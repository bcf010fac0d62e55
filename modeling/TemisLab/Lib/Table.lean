/-
  Keyed tables. A table is a list of rows whose keys are pairwise distinct; the distinctness is
  a field, so no operation can build a table that breaks its primary key. The operations are
  those of SQL: read by key, select by a condition, insert (refused on a taken key), update and
  delete by a condition. Each has one `get_…` lemma, and later proofs use only those.
-/
import Mathlib.Data.List.Nodup
import Mathlib.Data.List.Perm.Subperm

namespace TemisLab.Lib

/-- A record type with a primary key. -/
class Keyed (ρ : Type*) (κ : outParam Type*) where
  key : ρ → κ

/-- Rows with pairwise distinct keys. -/
@[ext] structure Table (ρ : Type*) {κ : Type*} [Keyed ρ κ] where
  rows : List ρ
  nodup : (rows.map Keyed.key).Nodup

namespace Table

variable {ρ κ : Type*} [Keyed ρ κ]

instance [DecidableEq ρ] : DecidableEq (Table ρ) := fun t u =>
  decidable_of_iff (t.rows = u.rows) Table.ext_iff.symm

def empty : Table ρ := ⟨[], List.nodup_nil⟩

/-- `SELECT … WHERE p`. -/
def select (t : Table ρ) (p : ρ → Bool) : List ρ := t.rows.filter p

theorem nodup_map_of_key_eq (f : ρ → ρ) (hf : ∀ r, Keyed.key (f r) = Keyed.key r) (t : Table ρ) :
    ((t.rows.map f).map Keyed.key).Nodup := by
  have h : (t.rows.map f).map Keyed.key = t.rows.map Keyed.key := by
    rw [List.map_map]
    exact List.map_congr_left fun r _ => hf r
  rw [h]
  exact t.nodup

/-- `UPDATE … SET f WHERE p`. The assignments do not touch the key. -/
def modify (t : Table ρ) (p : ρ → Bool) (f : ρ → ρ)
    (hf : ∀ r, Keyed.key (f r) = Keyed.key r) : Table ρ where
  rows := t.rows.map fun r => if p r then f r else r
  nodup := nodup_map_of_key_eq _ (fun r => by by_cases h : p r <;> simp [h, hf]) t

theorem modify_congr {t : Table ρ} {p : ρ → Bool} {f g : ρ → ρ}
    {hf : ∀ r, Keyed.key (f r) = Keyed.key r} {hg : ∀ r, Keyed.key (g r) = Keyed.key r}
    (h : ∀ r ∈ t.rows, p r = true → f r = g r) : t.modify p f hf = t.modify p g hg := by
  refine Table.ext (List.map_congr_left ?_)
  intro r hr
  by_cases hp : p r = true
  · rw [if_pos hp, if_pos hp, h r hr hp]
  · rw [if_neg hp, if_neg hp]

theorem modify_eq_self {t : Table ρ} {p : ρ → Bool} {f : ρ → ρ}
    {hf : ∀ r, Keyed.key (f r) = Keyed.key r} (h : ∀ r ∈ t.rows, p r = true → f r = r) :
    t.modify p f hf = t := by
  refine Table.ext (Eq.trans (List.map_congr_left ?_) (List.map_id _))
  intro r hr
  by_cases hp : p r = true
  · rw [if_pos hp, h r hr hp, id]
  · rw [if_neg hp, id]

/-- `DELETE … WHERE p`. -/
def delete (t : Table ρ) (p : ρ → Bool) : Table ρ where
  rows := t.rows.filter fun r => !p r
  nodup := t.nodup.sublist (List.filter_sublist.map _)

theorem delete_eq_self {t : Table ρ} {p : ρ → Bool} (h : ∀ r ∈ t.rows, p r = false) :
    t.delete p = t := by
  refine Table.ext (List.filter_eq_self.mpr ?_)
  intro r hr
  rw [h r hr, Bool.not_false]

theorem mem_select {t : Table ρ} {p : ρ → Bool} {r : ρ} :
    r ∈ t.select p ↔ r ∈ t.rows ∧ p r = true := List.mem_filter

variable [DecidableEq κ]

/-- The row with key `k`. -/
def get (t : Table ρ) (k : κ) : Option ρ := t.rows.find? fun r => Keyed.key r = k

theorem mem_of_get {t : Table ρ} {k : κ} {r : ρ} (h : t.get k = some r) :
    r ∈ t.rows ∧ Keyed.key r = k :=
  ⟨List.mem_of_find?_eq_some h, by simpa using List.find?_some h⟩

theorem key_of_get {t : Table ρ} {k : κ} {r : ρ} (h : t.get k = some r) : Keyed.key r = k :=
  (mem_of_get h).2

theorem get_eq_none {t : Table ρ} {k : κ} : t.get k = none ↔ ∀ r ∈ t.rows, Keyed.key r ≠ k := by
  simp [get, List.find?_eq_none]

/-- A row of the table is the one its key reads. -/
theorem get_of_mem {t : Table ρ} {r : ρ} (h : r ∈ t.rows) : t.get (Keyed.key r) = some r := by
  cases hg : t.get (Keyed.key r) with
  | none => exact absurd rfl (get_eq_none.mp hg r h)
  | some r' =>
      obtain ⟨hmem, hkey⟩ := mem_of_get hg
      rw [List.inj_on_of_nodup_map t.nodup hmem h hkey]

/-- `INSERT`: refused (`none`) when the key is taken. -/
def insert (t : Table ρ) (r : ρ) : Option (Table ρ) :=
  if h : t.get (Keyed.key r) = none then
    some ⟨t.rows ++ [r], by
      rw [List.map_append, List.nodup_append]
      refine ⟨t.nodup, List.nodup_singleton _, ?_⟩
      intro k hk k' hk' he
      obtain ⟨r', hr', rfl⟩ := List.mem_map.mp hk
      simp only [List.map_cons, List.map_nil, List.mem_singleton] at hk'
      exact get_eq_none.mp h r' hr' (he.trans hk')⟩
  else none

/-- `INSERT … ON CONFLICT DO NOTHING`: the table when the key is taken. -/
def merge (t : Table ρ) (r : ρ) : Table ρ := (t.insert r).getD t

theorem insert_eq_some {t t' : Table ρ} {r : ρ} (h : t.insert r = some t') :
    t.get (Keyed.key r) = none ∧ t'.rows = t.rows ++ [r] := by
  unfold insert at h
  split at h
  · next hn => exact ⟨hn, by rw [← Option.some.inj h]⟩
  · cases h

theorem insert_eq_none {t : Table ρ} {r : ρ} :
    t.insert r = none ↔ ∃ r', t.get (Keyed.key r) = some r' := by
  rw [← Option.isSome_iff_exists, Option.isSome_iff_ne_none]
  unfold insert
  split
  · next hn => simp [hn]
  · next hn => simp [hn]

/-- A row with a new key is inserted. -/
theorem exists_insert (t : Table ρ) (r : ρ) (h : t.get (Keyed.key r) = none) :
    ∃ t', t.insert r = some t' := by
  rw [← Option.ne_none_iff_exists']
  intro hnone
  obtain ⟨r', hr'⟩ := insert_eq_none.mp hnone
  rw [h] at hr'
  cases hr'

theorem get_insert {t t' : Table ρ} {r : ρ} (h : t.insert r = some t') (k : κ) :
    t'.get k = if Keyed.key r = k then some r else t.get k := by
  obtain ⟨hn, hrows⟩ := insert_eq_some h
  unfold get at hn ⊢
  rw [hrows, List.find?_append]
  by_cases hk : Keyed.key r = k
  · subst hk
    simp [hn]
  · simp [hk]

theorem get_merge (t : Table ρ) (r : ρ) (k : κ) :
    (t.merge r).get k = if t.get k = none ∧ Keyed.key r = k then some r else t.get k := by
  unfold merge
  cases hi : t.insert r with
  | none =>
      obtain ⟨r', hr'⟩ := insert_eq_none.mp hi
      have : ¬ (t.get k = none ∧ Keyed.key r = k) := by
        rintro ⟨hn, rfl⟩
        rw [hr'] at hn
        cases hn
      rw [if_neg this]
      rfl
  | some t' =>
      rw [Option.getD_some, get_insert hi]
      by_cases hk : Keyed.key r = k
      · have hn := (insert_eq_some hi).1
        rw [hk] at hn
        simp [hk, hn]
      · simp [hk]

@[simp] theorem get_modify (t : Table ρ) (p : ρ → Bool) (f : ρ → ρ)
    (hf : ∀ r, Keyed.key (f r) = Keyed.key r) (k : κ) :
    (t.modify p f hf).get k = (t.get k).map fun r => if p r then f r else r := by
  have hk : ((fun r => decide (Keyed.key r = k)) ∘ fun r => if p r then f r else r) =
      fun r => decide (Keyed.key r = k) := by
    funext r
    by_cases h : p r <;> simp [h, hf]
  unfold get modify
  rw [List.find?_map, hk]

theorem get_delete (t : Table ρ) (p : ρ → Bool) (k : κ) :
    (t.delete p).get k = (t.get k).filter fun r => !p r := by
  cases hg : t.get k with
  | none =>
      rw [get_eq_none] at hg
      simp only [Option.filter_none, get_eq_none]
      exact fun r hr => hg r (List.mem_filter.mp hr).1
  | some r =>
      obtain ⟨hmem, rfl⟩ := mem_of_get hg
      by_cases hp : p r
      · simp only [Option.filter_some, hp, Bool.not_true, Bool.false_eq_true, ite_false,
          get_eq_none]
        intro r' hr' hk
        obtain ⟨hr', hp'⟩ := List.mem_filter.mp hr'
        have : r' = r := List.inj_on_of_nodup_map t.nodup hr' hmem hk
        subst this
        simp [hp] at hp'
      · simp only [Option.filter_some, hp, Bool.not_false, ite_true]
        exact get_of_mem (List.mem_filter.mpr ⟨hmem, by simp [hp]⟩)

end Table

end TemisLab.Lib
