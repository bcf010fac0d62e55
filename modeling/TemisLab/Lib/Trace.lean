/-
  Runs of a labelled machine. A machine is a total function `step : σ → ℓ → σ`; a label says
  which party moves and carries everything the move does not determine (a clock reading, a
  fresh random value, the answer of an outside service). A label whose party cannot move
  leaves the state as it is, so a list of labels is an arbitrary interleaving.

  * `run_invariant`: what one step keeps under a condition `Q`, a run whose steps all meet `Q`
    (`Along`) keeps.
  * `run_rel`: a relation every step respects is respected by every run.
  * `run_simulates`: two machines stay related under the same labels.
  * `run_origin`: what is found after a run was put there by one of its steps.
  * `run_script`: what one party has done after a run, whatever the others did in between.
  * `outputs_eq_map`: a machine whose answers to what comes are those of a function of the labels.
-/
import Mathlib.Data.List.Basic

namespace TemisLab.Lib

variable {σ ℓ : Type*} (step : σ → ℓ → σ)

/-- The state after the labels `ls`, taken in order from `s`. -/
def run (s : σ) (ls : List ℓ) : σ := ls.foldl step s

@[simp] theorem run_nil (s : σ) : run step s [] = s := rfl

@[simp] theorem run_cons (s : σ) (l : ℓ) (ls : List ℓ) :
    run step s (l :: ls) = run step (step s l) ls := rfl

theorem run_append (s : σ) (ls ms : List ℓ) :
    run step s (ls ++ ms) = run step (run step s ls) ms := by
  unfold run
  rw [List.foldl_append]

/-- Every step of the run from `s` along `ls` starts in a state where `Q` holds of it. -/
def Along (Q : σ → ℓ → Prop) : σ → List ℓ → Prop
  | _, [] => True
  | s, l :: ls => Q s l ∧ Along Q (step s l) ls

instance Along.decidable {Q : σ → ℓ → Prop} [∀ s l, Decidable (Q s l)] :
    ∀ (s : σ) (ls : List ℓ), Decidable (Along step Q s ls)
  | _, [] => .isTrue trivial
  | s, l :: ls =>
      have : Decidable (Along step Q (step s l) ls) := Along.decidable (step s l) ls
      inferInstanceAs (Decidable (Q s l ∧ Along step Q (step s l) ls))

theorem along_append {Q : σ → ℓ → Prop} (s : σ) (ls ms : List ℓ) :
    Along step Q s (ls ++ ms) ↔ Along step Q s ls ∧ Along step Q (run step s ls) ms := by
  induction ls generalizing s with
  | nil => simp [Along]
  | cons l ls ih => simp only [List.cons_append, Along, run_cons, ih, and_assoc]

variable {step} in
/-- The condition read at one point of the run. -/
theorem Along.at {Q : σ → ℓ → Prop} {s : σ} {pre post : List ℓ} {l : ℓ}
    (h : Along step Q s (pre ++ l :: post)) : Q (run step s pre) l :=
  ((along_append step s pre (l :: post)).mp h).2.1

/-- `Along` is a condition on every point of the run. -/
theorem along_iff {Q : σ → ℓ → Prop} (s : σ) (ls : List ℓ) :
    Along step Q s ls ↔ ∀ pre l post, ls = pre ++ l :: post → Q (run step s pre) l := by
  refine ⟨?_, ?_⟩
  · intro h pre l post hls
    rw [hls] at h
    exact h.at
  · intro h
    induction ls generalizing s with
    | nil => trivial
    | cons l ls ih =>
        refine ⟨h [] l ls rfl, ih (step s l) ?_⟩
        intro pre m post hls
        exact h (l :: pre) m post (by rw [hls]; rfl)

variable {step} in
theorem Along.and {Q Q' : σ → ℓ → Prop} {s : σ} {ls : List ℓ} (h : Along step Q s ls)
    (h' : Along step Q' s ls) : Along step (fun s l => Q s l ∧ Q' s l) s ls := by
  induction ls generalizing s with
  | nil => trivial
  | cons l ls ih => exact ⟨⟨h.1, h'.1⟩, ih h.2 h'.2⟩

variable {step} in
theorem Along.mono {Q Q' : σ → ℓ → Prop} {s : σ} {ls : List ℓ} (h : Along step Q s ls)
    (himp : ∀ s l, Q s l → Q' s l) : Along step Q' s ls := by
  induction ls generalizing s with
  | nil => trivial
  | cons l ls ih => exact ⟨himp s l h.1, ih h.2⟩

/-- An invariant kept by every step that meets `Q` holds after every run whose steps do. -/
theorem run_invariant {Q : σ → ℓ → Prop} (Inv : σ → Prop)
    (hstep : ∀ s l, Inv s → Q s l → Inv (step s l)) {s : σ} (h0 : Inv s) {ls : List ℓ}
    (hQ : Along step Q s ls) : Inv (run step s ls) := by
  induction ls generalizing s with
  | nil => exact h0
  | cons l ls ih => exact ih (hstep s l h0 hQ.1) hQ.2

/-- One party among others. `own` reads the labels of the party, and `At todo s` says where it is
    when it has `todo` still to do: the other labels keep that, and its own take it one further. -/
theorem run_script {α : Type*} {Q : σ → ℓ → Prop} (own : ℓ → Option α) (At : List α → σ → Prop)
    (hother : ∀ s l todo, Q s l → own l = none → At todo s → At todo (step s l))
    (hown : ∀ s l a todo, Q s l → own l = some a → At (a :: todo) s → At todo (step s l))
    {s : σ} {ls : List ℓ} (hQ : Along step Q s ls) (h0 : At (ls.filterMap own) s) :
    At [] (run step s ls) := by
  induction ls generalizing s with
  | nil => exact h0
  | cons l ls ih =>
      refine ih hQ.2 ?_
      cases hl : own l with
      | none =>
          rw [List.filterMap_cons_none hl] at h0
          exact hother s l _ hQ.1 hl h0
      | some a =>
          rw [List.filterMap_cons_some hl] at h0
          exact hown s l a _ hQ.1 hl h0

/-- An invariant kept by every step holds after every run. -/
theorem run_always (Inv : σ → Prop) (hstep : ∀ s l, Inv s → Inv (step s l)) {s : σ}
    (h0 : Inv s) (ls : List ℓ) : Inv (run step s ls) := by
  induction ls generalizing s with
  | nil => exact h0
  | cons l ls ih => exact ih (hstep s l h0)

/-- A relation between two machines that every label keeps holds after the same labels. -/
theorem run_simulates {σ' : Type*} (step' : σ' → ℓ → σ') (R : σ → σ' → Prop)
    (hstep : ∀ s t l, R s t → R (step s l) (step' t l)) {s : σ} {t : σ'} (h0 : R s t)
    (ls : List ℓ) : R (run step s ls) (run step' t ls) := by
  induction ls generalizing s t with
  | nil => exact h0
  | cons l ls ih => exact ih (hstep s t l h0)

/-- A preorder that every step climbs is climbed by every run. -/
theorem run_rel (R : σ → σ → Prop) (hrefl : ∀ s, R s s)
    (htrans : ∀ s t u, R s t → R t u → R s u) (hstep : ∀ s l, R s (step s l)) (s : σ)
    (ls : List ℓ) : R s (run step s ls) := by
  induction ls generalizing s with
  | nil => exact hrefl s
  | cons l ls ih => exact htrans _ _ _ (hstep s l) (ih (step s l))

/-- What is found at the end of a run was there before it, or some step put it there. -/
theorem run_origin {α : Type*} {Q : σ → ℓ → Prop} (At : α → σ → Prop) (Put : α → σ → ℓ → Prop)
    (hstep : ∀ s l a, Q s l → At a (step s l) → At a s ∨ Put a s l) {s : σ} {ls : List ℓ}
    (hQ : Along step Q s ls) {a : α} (h : At a (run step s ls)) :
    At a s ∨ ∃ pre l post, ls = pre ++ l :: post ∧ Put a (run step s pre) l := by
  induction ls generalizing s with
  | nil => exact Or.inl h
  | cons l ls ih =>
      rcases ih hQ.2 h with h | ⟨pre, m, post, hls, hput⟩
      · refine (hstep s l a hQ.1 h).imp_right ?_
        exact fun hput => ⟨[], l, ls, rfl, hput⟩
      · exact Or.inr ⟨l :: pre, m, post, by rw [hls]; rfl, hput⟩

/-! ## Answers -/

section Answers

variable {ω : Type*} (out : σ → ℓ → ω)

/-- What the machine answers to the labels `ls`, taken in order from `s`. -/
def outputs : σ → List ℓ → List ω
  | _, [] => []
  | s, l :: ls => out s l :: outputs (step s l) ls

/-- `Ready s ls` is what is known of a state in which `ls` is still to come. If it settles the
    answer to the first label and is handed on to the rest, the state does not show. -/
theorem outputs_eq_map (answer : ℓ → ω) (Ready : σ → List ℓ → Prop)
    (hout : ∀ s l ls, Ready s (l :: ls) → out s l = answer l)
    (hstep : ∀ s l ls, Ready s (l :: ls) → Ready (step s l) ls) {s : σ} {ls : List ℓ}
    (h : Ready s ls) : outputs step out s ls = ls.map answer := by
  induction ls generalizing s with
  | nil => rfl
  | cons l ls ih =>
      unfold outputs
      rw [hout s l ls h, ih (hstep s l ls h)]
      rfl

end Answers

end TemisLab.Lib
