/-
  Columns that refer to another table (`Refers`). For each operation of a table there is one lemma
  that says when it keeps the constraint. The operations on the table referred to are covered by
  `Refers.mono`: they only have to leave its keys.
-/
import TemisLab.Lib.Table

namespace TemisLab.Lib.Table

variable {ρ κ ρ' κ' : Type*} [Keyed ρ κ] [Keyed ρ' κ'] [DecidableEq κ']

/-- `FOREIGN KEY (f) REFERENCES u`. -/
def Refers (t : Table ρ) (f : ρ → κ') (u : Table ρ') : Prop :=
  ∀ r ∈ t.rows, (u.get (f r)).isSome = true

instance (t : Table ρ) (f : ρ → κ') (u : Table ρ') : Decidable (t.Refers f u) :=
  inferInstanceAs (Decidable (∀ r ∈ t.rows, (u.get (f r)).isSome = true))

section Refers

variable {t : Table ρ} {f : ρ → κ'} {u u' : Table ρ'}

theorem refers_empty (f : ρ → κ') (u : Table ρ') : (empty : Table ρ).Refers f u := by
  intro r hr
  cases hr

/-- The table referred to may change as long as its keys stay. -/
theorem Refers.mono (h : t.Refers f u)
    (hu : ∀ k, (u.get k).isSome = true → (u'.get k).isSome = true) : t.Refers f u' :=
  fun r hr => hu _ (h r hr)

theorem Refers.modify (h : t.Refers f u) (p : ρ → Bool) {g : ρ → ρ}
    (hg : ∀ r, Keyed.key (g r) = Keyed.key r) (hf : ∀ r, f (g r) = f r) :
    (t.modify p g hg).Refers f u := by
  intro r hr
  obtain ⟨r', hr', rfl⟩ := List.mem_map.mp hr
  by_cases hp : p r' = true
  · rw [if_pos hp, hf]
    exact h r' hr'
  · rw [if_neg hp]
    exact h r' hr'

theorem Refers.delete (h : t.Refers f u) (p : ρ → Bool) : (t.delete p).Refers f u :=
  fun r hr => h r (List.mem_filter.mp hr).1

variable [DecidableEq κ]

theorem Refers.insert (h : t.Refers f u) {t' : Table ρ} {r : ρ} (hi : t.insert r = some t')
    (hr : (u.get (f r)).isSome = true) : t'.Refers f u := by
  intro r' hr'
  rw [(insert_eq_some hi).2] at hr'
  rcases List.mem_append.mp hr' with hr' | hr'
  · exact h r' hr'
  · rw [List.mem_singleton.mp hr']
    exact hr

theorem Refers.merge (h : t.Refers f u) {r : ρ} (hr : (u.get (f r)).isSome = true) :
    (t.merge r).Refers f u := by
  unfold Table.merge
  cases hi : t.insert r with
  | none => exact h
  | some t' => exact h.insert hi hr

end Refers

end TemisLab.Lib.Table
