/-
  Which exceptions a computation can end with. `Only P r`: whatever `r` raises is in `P`.

  `only_bind`: a sequence raises only what is in `P` exactly when its first part does and, where
  that returns, the rest does.
-/
import Mathlib.Tactic.Common

namespace TemisLab.Lib

universe u

variable {ε ε' : Type*} {α β : Type u} {P : ε → Prop}

def Only (P : ε → Prop) (r : Except ε α) : Prop := ∀ e, r = .error e → P e

@[simp] theorem only_ok (a : α) : Only P (.ok a : Except ε α) := fun e h => by cases h

@[simp] theorem only_pure (a : α) : Only P (pure a : Except ε α) := only_ok a

@[simp] theorem only_error (e : ε) : Only P (.error e : Except ε α) ↔ P e := by
  refine ⟨fun h => h e rfl, ?_⟩
  intro h e' he
  cases he
  exact h

@[simp] theorem only_throw (e : ε) : Only P (throw e : Except ε α) ↔ P e := only_error e

theorem only_bind {x : Except ε α} {f : α → Except ε β} :
    Only P (x >>= f) ↔ Only P x ∧ ∀ a, x = .ok a → Only P (f a) := by
  cases x with
  | error e =>
      have he : ((.error e : Except ε α) >>= f) = .error e := rfl
      rw [he, only_error, only_error]
      simp
  | ok a =>
      have he : ((.ok a : Except ε α) >>= f) = f a := rfl
      rw [he]
      simp

theorem only_mapError {x : Except ε α} {f : ε → ε'} {P : ε' → Prop} :
    Only P (x.mapError f) ↔ Only (fun e => P (f e)) x := by
  cases x <;> simp [Except.mapError]

/-- A wider class. -/
theorem Only.mono {Q : ε → Prop} {r : Except ε α} (h : Only P r) (hsub : ∀ e, P e → Q e) :
    Only Q r := fun e he => hsub e (h e he)

end TemisLab.Lib
