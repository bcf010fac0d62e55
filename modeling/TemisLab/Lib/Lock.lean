/-
  Tasks that share a state and one lock. A step of a task is one atomic piece of its code; the
  scheduler picks whose step is next, so the steps of the tasks interleave in every way. A task
  that waits for the lock runs only once the lock is free, and takes it with that step; some
  tasks never wait, and read the shared state while another holds the lock. A task may be
  killed between any two of its steps, and what ends, is killed or leaves the critical section
  drops the lock.

  `Program.Keeps` is the proof rule. An invariant of the shared state and an assertion of each
  task are kept if every step keeps the invariant and its own assertion, and leaves the
  assertions of the others: of those outside the lock always, of one inside it only when the
  step is not itself one under the lock. `Keeps.run` adds the mutual exclusion and concludes
  that all three hold after every run.
-/
import Mathlib.Logic.Function.Basic
import TemisLab.Lib.Trace

namespace TemisLab.Lib

variable {P σ τ κ ι : Type*}

/-- How a call begins, what the next step of a task does, and when a task is free for a call,
    waits for the lock or holds it. `ι` is what a step reads besides the shared state. -/
structure Program (P σ τ κ ι : Type*) where
  idle : τ
  free : τ → Bool
  begin : P → σ → κ → σ × τ
  step : P → ι → σ → τ → σ × τ
  waits : τ → Bool
  inside : τ → Bool

/-- The shared state, the owner of the lock, and the tasks. -/
structure Host (P σ τ : Type*) where
  shared : σ
  lock : Option P
  task : P → τ

/-- A call begins, a task runs its next step, or it is killed. -/
inductive Signal (P κ ι : Type*) where
  | call (p : P) (c : κ)
  | go (p : P) (i : ι)
  | kill (p : P)
  deriving DecidableEq, Repr

/-- The lock after `p` has dropped it. -/
def Host.dropped [DecidableEq P] (h : Host P σ τ) (p : P) : Option P :=
  if h.lock = some p then none else h.lock

theorem Host.dropped_eq_some [DecidableEq P] {h : Host P σ τ} {p q : P} :
    h.dropped p = some q ↔ h.lock = some q ∧ q ≠ p := by
  unfold Host.dropped
  by_cases hp : h.lock = some p
  · rw [if_pos hp, hp]
    refine ⟨nofun, ?_⟩
    intro hq
    exact absurd (Option.some.inj hq.1).symm hq.2
  · rw [if_neg hp]
    refine ⟨fun hq => ⟨hq, ?_⟩, fun hq => hq.1⟩
    intro he
    exact hp (he ▸ hq)

namespace Program

variable (S : Program P σ τ κ ι)

/-- No call has begun. -/
def start (s : σ) : Host P σ τ := ⟨s, none, fun _ => S.idle⟩

/-- One event. A call of a busy task and a step that waits for a taken lock change nothing. -/
def signal [DecidableEq P] (h : Host P σ τ) : Signal P κ ι → Host P σ τ
  | .call p c =>
      if S.free (h.task p) then
        { h with
          shared := (S.begin p h.shared c).1
          task := Function.update h.task p (S.begin p h.shared c).2 }
      else h
  | .go p i =>
      if S.waits (h.task p) && h.lock.isSome then h
      else
        { shared := (S.step p i h.shared (h.task p)).1
          lock := if S.inside (S.step p i h.shared (h.task p)).2 then some p else h.dropped p
          task := Function.update h.task p (S.step p i h.shared (h.task p)).2 }
  | .kill p => { h with lock := h.dropped p, task := Function.update h.task p S.idle }

/-- `Inv` of the shared state and `Own` of each task are kept by the events that meet `Q`. -/
structure Keeps (Inv : σ → Prop) (Own : P → σ → τ → Prop)
    (Q : Host P σ τ → Signal P κ ι → Prop) : Prop where
  idle : ∀ p s, Own p s S.idle
  free : S.free S.idle = true ∧ ∀ t, S.free t = true → S.inside t = false
  begins : ∀ h p c, Q h (.call p c) → Inv h.shared →
    Inv (S.begin p h.shared c).1 ∧
      Own p (S.begin p h.shared c).1 (S.begin p h.shared c).2 ∧
      S.inside (S.begin p h.shared c).2 = false
  begins_others : ∀ h p c q u, Q h (.call p c) → Inv h.shared → q ≠ p → Own q h.shared u →
    Own q (S.begin p h.shared c).1 u
  enters : ∀ p i s t, S.inside (S.step p i s t).2 = true → S.inside t = true ∨ S.waits t = true
  goes : ∀ h p i, Q h (.go p i) → Inv h.shared → Own p h.shared (h.task p) →
    Inv (S.step p i h.shared (h.task p)).1 ∧
      Own p (S.step p i h.shared (h.task p)).1 (S.step p i h.shared (h.task p)).2
  goes_others : ∀ h p i q u, Q h (.go p i) → Inv h.shared → Own p h.shared (h.task p) →
    q ≠ p → Own q h.shared u →
    (S.inside (h.task p) = true ∨ S.waits (h.task p) = true → S.inside u = false) →
    Own q (S.step p i h.shared (h.task p)).1 u

/-- The state the rule keeps. -/
structure Sound (Inv : σ → Prop) (Own : P → σ → τ → Prop) (h : Host P σ τ) : Prop where
  shared : Inv h.shared
  tasks : ∀ p, Own p h.shared (h.task p)
  exclusion : ∀ p, S.inside (h.task p) = true ↔ h.lock = some p

variable {S} {Inv : σ → Prop} {Own : P → σ → τ → Prop} {Q : Host P σ τ → Signal P κ ι → Prop}

/-- What is kept under `Q` is kept under a stronger condition. -/
theorem Keeps.under (hS : S.Keeps Inv Own Q) {Q' : Host P σ τ → Signal P κ ι → Prop}
    (hQ : ∀ h e, Q' h e → Q h e) : S.Keeps Inv Own Q' where
  idle := hS.idle
  free := hS.free
  begins h p c hq := hS.begins h p c (hQ h _ hq)
  begins_others h p c q u hq := hS.begins_others h p c q u (hQ h _ hq)
  enters := hS.enters
  goes h p i hq := hS.goes h p i (hQ h _ hq)
  goes_others h p i q u hq := hS.goes_others h p i q u (hQ h _ hq)

theorem Keeps.start (hS : S.Keeps Inv Own Q) {s : σ} (h0 : Inv s) :
    S.Sound Inv Own (S.start s) := by
  refine ⟨h0, fun p => hS.idle p s, ?_⟩
  intro p
  show S.inside S.idle = true ↔ none = some p
  rw [hS.free.2 _ hS.free.1]
  simp

/-- While a task steps under the lock, or takes it, no other is inside. -/
theorem Sound.alone {h : Host P σ τ} (hs : S.Sound Inv Own h) {p q : P} (hq : q ≠ p)
    (hrun : ¬ (S.waits (h.task p) && h.lock.isSome) = true)
    (hp : S.inside (h.task p) = true ∨ S.waits (h.task p) = true) :
    S.inside (h.task q) = false := by
  rw [← Bool.not_eq_true, hs.exclusion q]
  intro hlock
  rcases hp with hp | hp
  · rw [hs.exclusion p, hlock] at hp
    exact hq (Option.some.inj hp)
  · rw [hp, hlock] at hrun
    exact hrun rfl

variable [DecidableEq P]

theorem Keeps.signal (hS : S.Keeps Inv Own Q) (h : Host P σ τ) (e : Signal P κ ι)
    (hs : S.Sound Inv Own h) (hq : Q h e) : S.Sound Inv Own (S.signal h e) := by
  cases e with
  | call p c =>
      simp only [Program.signal]
      split
      · next hidle =>
          obtain ⟨hinv, hown, hout⟩ := hS.begins h p c hq hs.shared
          refine ⟨hinv, ?_, ?_⟩
          · intro q
            by_cases hp : q = p
            · subst hp
              simpa only [Function.update_self] using hown
            · simp only [Function.update_of_ne hp]
              exact hS.begins_others h p c q _ hq hs.shared hp (hs.tasks q)
          · intro q
            by_cases hp : q = p
            · subst hp
              rw [← hs.exclusion q, hS.free.2 _ hidle]
              simp only [Function.update_self, hout]
            · simp only [Function.update_of_ne hp]
              exact hs.exclusion q
      · exact hs
  | go p i =>
      simp only [Program.signal]
      split
      · exact hs
      · next hrun =>
          obtain ⟨hinv, hown⟩ := hS.goes h p i hq hs.shared (hs.tasks p)
          refine ⟨hinv, ?_, ?_⟩
          · intro q
            by_cases hp : q = p
            · subst hp
              simpa only [Function.update_self] using hown
            · simp only [Function.update_of_ne hp]
              exact hS.goes_others h p i q _ hq hs.shared (hs.tasks p) hp (hs.tasks q)
                (hs.alone hp hrun)
          · intro q
            by_cases hp : q = p
            · subst hp
              simp only [Function.update_self]
              by_cases hin : S.inside (S.step q i h.shared (h.task q)).2 = true
              · simp [hin]
              · rw [if_neg hin, Host.dropped_eq_some]
                simp [hin]
            · simp only [Function.update_of_ne hp]
              by_cases hin : S.inside (S.step p i h.shared (h.task p)).2 = true
              · -- `p` is inside now, so `q` was not before
                rw [if_pos hin, hs.alone hp hrun (hS.enters p i _ _ hin)]
                simp [Ne.symm hp]
              · rw [if_neg hin, Host.dropped_eq_some, hs.exclusion q]
                simp [hp]
  | kill p =>
      refine ⟨hs.shared, ?_, ?_⟩
      · intro q
        by_cases hp : q = p
        · subst hp
          simp only [Program.signal, Function.update_self]
          exact hS.idle q _
        · simp only [Program.signal, Function.update_of_ne hp]
          exact hs.tasks q
      · intro q
        simp only [Program.signal, Host.dropped_eq_some]
        by_cases hp : q = p
        · subst hp
          simp [hS.free.2 _ hS.free.1]
        · rw [Function.update_of_ne hp, hs.exclusion q]
          simp [hp]

/-- The invariant, the assertions and the mutual exclusion hold after every run. -/
theorem Keeps.run (hS : S.Keeps Inv Own Q) {s : σ} (h0 : Inv s) {es : List (Signal P κ ι)}
    (hq : Along S.signal Q (S.start s) es) :
    S.Sound Inv Own (Lib.run S.signal (S.start s) es) :=
  run_invariant S.signal (S.Sound Inv Own) hS.signal (hS.start h0) hq

/-- What every event keeps holds after every run. -/
theorem Keeps.always (hS : S.Keeps Inv Own fun _ _ => True) {s : σ} (h0 : Inv s)
    (es : List (Signal P κ ι)) : S.Sound Inv Own (Lib.run S.signal (S.start s) es) :=
  hS.run h0 ((along_iff S.signal (S.start s) es).mpr fun _ _ _ _ => trivial)

end Program

end TemisLab.Lib
