/-
  Requests that commit more than once. A transaction takes the committed store and returns its
  result with the store it commits, or raises and commits nothing. Between the two transactions
  of a request others may change the store (`meanwhile`).

  * `twice_eq_ok`: what a request that returns has committed.
  * `restores_iff`: a request that raises leaves the store, as far as it is seen, as it would be
    without it, exactly if its second transaction commits wherever the first left a trace.
-/
import Mathlib.Tactic.Common

namespace TemisLab.Lib

universe u

variable {σ ε ε' ν : Type*} {α β : Type u}

/-- The body of a transaction. -/
abbrev Block (σ ε α : Type*) := σ → Except ε (α × σ)

/-- A step that may raise. -/
def raiseIf (fails : Bool) (error : ε) : Except ε PUnit.{u + 1} :=
  if fails then .error error else .ok .unit

theorem bind_eq_ok {x : Except ε α} {f : α → Except ε β} {b : β} :
    (x >>= f) = .ok b ↔ ∃ a, x = .ok a ∧ f a = .ok b := by
  cases x with
  | error e => simp [bind, Except.bind]
  | ok a => simp [bind, Except.bind]

theorem raiseIf_bind {fails : Bool} {error : ε} {f : PUnit.{u + 1} → Except ε β} {b : β} :
    (raiseIf fails error >>= f) = .ok b ↔ fails = false ∧ f .unit = .ok b := by
  cases fails <;> simp [raiseIf, bind, Except.bind]

theorem mapError_eq_ok {x : Except ε α} {f : ε → ε'} {a : α} :
    x.mapError f = .ok a ↔ x = .ok a := by
  cases x <;> simp [Except.mapError]

/-- The result of a transaction, and the store after it. -/
def Block.exec (b : Block σ ε α) (s : σ) : Except ε α × σ :=
  match b s with
  | .error e => (.error e, s)
  | .ok (a, s') => (.ok a, s')

/-- A request of two transactions. It ends with the first one if that raises. -/
def twice (first : Block σ ε α) (meanwhile : σ → σ) (second : α → Block σ ε β) (s : σ) :
    Except ε β × σ :=
  match first s with
  | .error e => (.error e, meanwhile s)
  | .ok (a, s') => (second a).exec (meanwhile s')

/-- The result raises. -/
def Raises (r : Except ε β) : Prop := ∀ b, r ≠ .ok b

/-- If the request raises, then what is seen of the store is as it would be without it. -/
def Restores (view : σ → ν) (meanwhile : σ → σ) (s : σ) (r : Except ε β × σ) : Prop :=
  Raises r.1 → view r.2 = view (meanwhile s)

variable {first : Block σ ε α} {meanwhile : σ → σ} {second : α → Block σ ε β} {s : σ}

theorem twice_eq_ok {b : β} (h : (twice first meanwhile second s).1 = .ok b) :
    ∃ a s', first s = .ok (a, s') ∧
      second a (meanwhile s') = .ok (b, (twice first meanwhile second s).2) := by
  unfold twice at h ⊢
  cases hf : first s with
  | error e =>
      rw [hf] at h
      cases h
  | ok p =>
      obtain ⟨a, s'⟩ := p
      rw [hf] at h
      refine ⟨a, s', rfl, ?_⟩
      dsimp only [Block.exec] at h ⊢
      cases hs : second a (meanwhile s') with
      | error e =>
          rw [hs] at h
          cases h
      | ok q =>
          rw [hs] at h
          cases h
          rfl

/-- A request is restored exactly if its second transaction commits wherever the first one left
    a trace. -/
theorem restores_iff (view : σ → ν) :
    Restores view meanwhile s (twice first meanwhile second s) ↔
      ∀ a s', first s = .ok (a, s') → view (meanwhile s') ≠ view (meanwhile s) →
        ∃ b s'', second a (meanwhile s') = .ok (b, s'') := by
  unfold Restores twice
  cases hf : first s with
  | error e => simp
  | ok p =>
      obtain ⟨a, s'⟩ := p
      dsimp only [Block.exec]
      cases hs : second a (meanwhile s') with
      | error e =>
          have hraises : Raises (Except.error e : Except ε β) := fun b h => nomatch h
          refine ⟨?_, ?_⟩
          · intro h a₁ s₁ he hne
            cases he
            exact absurd (h hraises) hne
          · intro h _
            by_contra hne
            obtain ⟨b, s'', hb⟩ := h a s' rfl hne
            rw [hs] at hb
            cases hb
      | ok q =>
          refine ⟨?_, ?_⟩
          · intro _ a₁ s₁ he _
            cases he
            exact ⟨q.1, q.2, hs⟩
          · intro _ h
            exact absurd rfl (h q.1)

end TemisLab.Lib
