/-
  Partial maps changed at one key: what the changed map holds was there before under another key, or
  is what was put.
-/
import Mathlib.Logic.Function.Basic

namespace TemisLab.Lib

variable {κ α : Type*} [DecidableEq κ] {f : κ → Option α} {k k' : κ} {a b : α}

theorem slot_update {c : Option α} (h : Function.update f k c k' = some a) :
    (k' ≠ k ∧ f k' = some a) ∨ (k' = k ∧ c = some a) := by
  by_cases hk : k' = k
  · rw [hk, Function.update_self] at h
    exact Or.inr ⟨hk, h⟩
  · rw [Function.update_of_ne hk] at h
    exact Or.inl ⟨hk, h⟩

/-- A key is cleared. -/
theorem slot_clear (h : Function.update f k none k' = some a) : k' ≠ k ∧ f k' = some a := by
  rcases slot_update h with h | ⟨-, h⟩
  · exact h
  · cases h

/-- A key is set. -/
theorem slot_set (h : Function.update f k (some b) k' = some a) :
    (k' ≠ k ∧ f k' = some a) ∨ (k' = k ∧ a = b) := by
  rcases slot_update h with h | ⟨hk, h⟩
  · exact Or.inl h
  · exact Or.inr ⟨hk, (Option.some.inj h).symm⟩

end TemisLab.Lib
