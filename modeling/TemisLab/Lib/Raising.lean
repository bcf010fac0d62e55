/-
  Methods that change the object they belong to and may raise: an exception leaves the object as it
  is at that point.

  The simp set computes a method on an object (`on`) through `do`.
-/
import Mathlib.Tactic.Common

namespace TemisLab.Lib

/-- A method of an object of type `σ`, raising `ε`. -/
abbrev Raising (ε σ : Type) := ExceptT ε (StateM σ)

namespace Raising

variable {ε σ α β : Type}

/-- The answer of a method on an object, and the object after it. -/
def on (m : Raising ε σ α) (s : σ) : Except ε α × σ := m.run.run s

theorem on_bind (m : Raising ε σ α) (f : α → Raising ε σ β) (s : σ) :
    (m >>= f).on s =
      match m.on s with
      | (.ok a, s') => (f a).on s'
      | (.error e, s') => (.error e, s') := by
  unfold on
  simp only [ExceptT.run_bind, StateT.run_bind]
  rcases m.run.run s with ⟨_ | _, s'⟩ <;> rfl

@[simp] theorem on_pure (a : α) (s : σ) : (pure a : Raising ε σ α).on s = (.ok a, s) := rfl

@[simp] theorem on_throw (e : ε) (s : σ) : (throw e : Raising ε σ α).on s = (.error e, s) := rfl

@[simp] theorem on_get (s : σ) : (get : Raising ε σ σ).on s = (.ok s, s) := rfl

@[simp] theorem on_modify (f : σ → σ) (s : σ) :
    (modify f : Raising ε σ PUnit).on s = (.ok ⟨⟩, f s) := rfl

/-- A computation that reads no object. -/
@[simp] theorem on_liftExcept (r : Except ε α) (s : σ) :
    (liftExcept r : Raising ε σ α).on s = (r, s) := by
  cases r <;> rfl

end Raising

end TemisLab.Lib
