/-
  Values lent until a deadline. A value is granted under a key that no grant before had, read as
  long as its deadline has not come, and taken back by deleting the key (`SET` with an expiry,
  `GET`, `DEL`). `live` is the store; `granted` and `ended` are history.

  `Exact`: what is in the store is what was granted and not taken back. `read_iff` says what it
  means for a read.
-/
import Mathlib.Data.List.Nodup
import Mathlib.Order.Defs.LinearOrder
import TemisLab.Lib.Slots

namespace TemisLab.Lib

variable {κ ν τ : Type*}

structure Leases (κ ν τ : Type*) where
  live : κ → Option (ν × τ)
  granted : List (κ × ν × τ)
  ended : List κ

namespace Leases

def empty : Leases κ ν τ := ⟨fun _ => none, [], []⟩

/-- The keys that were granted. -/
def keys (s : Leases κ ν τ) : List κ := s.granted.map Prod.fst

section Operations

variable [DecidableEq κ]

def grant (s : Leases κ ν τ) (k : κ) (v : ν) (deadline : τ) : Leases κ ν τ where
  live := Function.update s.live k (some (v, deadline))
  granted := (k, v, deadline) :: s.granted
  ended := s.ended

def delete (s : Leases κ ν τ) (k : κ) : Leases κ ν τ where
  live := Function.update s.live k none
  granted := s.granted
  ended := k :: s.ended

end Operations

/-- The value under `k` at `now`. -/
def read [LT τ] [DecidableLT τ] (s : Leases κ ν τ) (k : κ) (now : τ) : Option ν :=
  (s.live k).bind fun (v, deadline) => if now < deadline then some v else none

/-- The store and its history agree, and no key was granted twice. -/
structure Exact (s : Leases κ ν τ) : Prop where
  live : ∀ k v d, s.live k = some (v, d) ↔ (k, v, d) ∈ s.granted ∧ k ∉ s.ended
  keys : s.keys.Nodup
  ended : s.ended ⊆ s.keys

variable {s : Leases κ ν τ} {k : κ} {v v' : ν} {d d' : τ}

theorem mem_keys (h : (k, v, d) ∈ s.granted) : k ∈ s.keys := List.mem_map_of_mem h

theorem exact_empty : (empty : Leases κ ν τ).Exact := by
  refine ⟨?_, List.nodup_nil, List.nil_subset _⟩
  intro k v d
  refine iff_of_false (by simp [empty]) ?_
  rintro ⟨h, -⟩
  cases h

/-- A key has one grant. -/
theorem Exact.unique (h : s.Exact) (hmem : (k, v, d) ∈ s.granted)
    (hmem' : (k, v', d') ∈ s.granted) : v = v' ∧ d = d' := by
  have he : (k, v, d) = (k, v', d') := List.inj_on_of_nodup_map h.keys hmem hmem' rfl
  cases he
  exact ⟨rfl, rfl⟩

section Keeping

variable [DecidableEq κ]

theorem exact_grant (h : s.Exact) (hnew : k ∉ s.keys) (v : ν) (d : τ) : (s.grant k v d).Exact := by
  refine ⟨?_, List.nodup_cons.mpr ⟨hnew, h.keys⟩, List.subset_cons_of_subset _ h.ended⟩
  intro k' v' d'
  have hmem : (k', v', d') ∈ (s.grant k v d).granted ↔
      (k', v', d') = (k, v, d) ∨ (k', v', d') ∈ s.granted := List.mem_cons
  rw [hmem]
  show Function.update s.live k (some (v, d)) k' = some (v', d') ↔ _ ∧ k' ∉ s.ended
  by_cases hk : k' = k
  · subst hk
    have hend : k' ∉ s.ended := fun hmem => hnew (h.ended hmem)
    have hold : (k', v', d') ∉ s.granted := fun hmem => hnew (mem_keys hmem)
    rw [Function.update_self]
    simp only [Option.some.injEq, Prod.mk.injEq, true_and, hend, hold, not_false_eq_true, and_true,
      or_false]
    exact ⟨fun ⟨hv, hd⟩ => ⟨hv.symm, hd.symm⟩, fun ⟨hv, hd⟩ => ⟨hv.symm, hd.symm⟩⟩
  · rw [Function.update_of_ne hk, h.live k' v' d']
    simp [hk]

theorem exact_delete (h : s.Exact) (hk : k ∈ s.keys) : (s.delete k).Exact := by
  refine ⟨?_, h.keys, List.cons_subset.mpr ⟨hk, h.ended⟩⟩
  intro k' v' d'
  have hend : k' ∉ (s.delete k).ended ↔ k' ≠ k ∧ k' ∉ s.ended := by
    show k' ∉ k :: s.ended ↔ _
    rw [List.mem_cons, not_or]
  rw [hend]
  show Function.update s.live k none k' = some (v', d') ↔ (k', v', d') ∈ s.granted ∧ _
  by_cases he : k' = k
  · subst he
    rw [Function.update_self]
    simp
  · rw [Function.update_of_ne he, h.live k' v' d']
    simp [he]

end Keeping

variable [LT τ] [DecidableLT τ] {now : τ}

theorem read_eq_some : s.read k now = some v ↔ ∃ d, s.live k = some (v, d) ∧ now < d := by
  unfold read
  cases hlive : s.live k with
  | none => simp
  | some p =>
      obtain ⟨w, d⟩ := p
      by_cases hd : now < d
      · simp [hd]
      · simp only [Option.bind_some, if_neg hd]
        refine iff_of_false (by simp) ?_
        rintro ⟨d', he, hd'⟩
        cases he
        exact hd hd'

/-- A read finds what was granted under the key, not taken back, and not too old. -/
theorem Exact.read_iff (h : s.Exact) :
    s.read k now = some v ↔ ∃ d, (k, v, d) ∈ s.granted ∧ k ∉ s.ended ∧ now < d := by
  rw [read_eq_some]
  constructor
  · rintro ⟨d, hlive, hd⟩
    obtain ⟨hmem, hend⟩ := (h.live k v d).mp hlive
    exact ⟨d, hmem, hend, hd⟩
  · rintro ⟨d, hmem, hend, hd⟩
    exact ⟨d, (h.live k v d).mpr ⟨hmem, hend⟩, hd⟩

end Leases

end TemisLab.Lib
