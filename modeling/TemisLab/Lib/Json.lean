/-
  JSON values as Python holds them after `json.loads`. A float is its literal, a `dict` is the
  list of its entries; `bool` is a subclass of `int`.

  `Within x v`: `x` is `v` or stands somewhere in it. `dictFrom`: the entries a `dict` has when
  they are set one after the other.
-/
import Mathlib.Data.Int.Notation
import Mathlib.Data.List.Nodup

namespace TemisLab.Lib

inductive Json where
  | null
  | bool (b : Bool)
  | int (n : ℤ)
  | float (literal : String)
  | str (s : String)
  | list (values : List Json)
  | dict (entries : List (String × Json))
  deriving Repr

abbrev Dict := List (String × Json)

namespace Json

/-- The integer a value is, where `isinstance(value, int)`. -/
def asInt : Json → Option ℤ
  | .bool b => some (if b then 1 else 0)
  | .int n => some n
  | _ => none

/-- The text a value is, where `isinstance(value, str)`. -/
def asStr : Json → Option String
  | .str s => some s
  | _ => none

/-- A value at any depth of another. -/
inductive Within : Json → Json → Prop
  | here (v : Json) : Within v v
  | item {x v : Json} {values : List Json} (hmem : v ∈ values) (h : Within x v) :
      Within x (.list values)
  | entry {x v : Json} {key : String} {entries : List (String × Json)}
      (hmem : (key, v) ∈ entries) (h : Within x v) : Within x (.dict entries)

theorem within_list {x : Json} {values : List Json} :
    Within x (.list values) ↔ x = .list values ∨ ∃ v ∈ values, Within x v := by
  constructor
  · intro h
    cases h with
    | here => exact Or.inl rfl
    | item hmem h => exact Or.inr ⟨_, hmem, h⟩
  · rintro (rfl | ⟨v, hmem, h⟩)
    · exact .here _
    · exact .item hmem h

theorem within_dict {x : Json} {entries : List (String × Json)} :
    Within x (.dict entries) ↔ x = .dict entries ∨ ∃ e ∈ entries, Within x e.2 := by
  constructor
  · intro h
    cases h with
    | here => exact Or.inl rfl
    | entry hmem h => exact Or.inr ⟨_, hmem, h⟩
  · rintro (rfl | ⟨e, hmem, h⟩)
    · exact .here _
    · exact .entry hmem h

end Json

section DictFrom

variable {α β : Type*}

/-- `d[key] = value`. -/
def dictSet (d : List (String × α)) (key : String) (value : α) : List (String × α) :=
  if d.any fun e => e.1 = key then d.map fun e => if e.1 = key then (key, value) else e
  else d ++ [(key, value)]

/-- `{key: value for key, value in pairs}`. -/
def dictFrom (pairs : List (String × α)) : List (String × α) :=
  pairs.foldl (fun d e => dictSet d e.1 e.2) []

theorem dictSet_map (f : String → α → β) (d : List (String × α)) (key : String) (value : α) :
    dictSet (d.map fun e => (e.1, f e.1 e.2)) key (f key value) =
      (dictSet d key value).map fun e => (e.1, f e.1 e.2) := by
  have hany : (d.map fun e => (e.1, f e.1 e.2)).any (fun e => e.1 = key) =
      d.any fun e => e.1 = key := by
    rw [List.any_map]
    rfl
  unfold dictSet
  rw [hany]
  split
  · rw [List.map_map, List.map_map]
    refine List.map_congr_left ?_
    intro e _
    by_cases he : e.1 = key <;> simp [he]
  · simp

/-- Values that depend on their own entry only can be put in before or after. -/
theorem dictFrom_map (f : String → α → β) (pairs : List (String × α)) :
    dictFrom (pairs.map fun e => (e.1, f e.1 e.2)) =
      (dictFrom pairs).map fun e => (e.1, f e.1 e.2) := by
  unfold dictFrom
  suffices h : ∀ d : List (String × α),
      (pairs.map fun e => (e.1, f e.1 e.2)).foldl (fun d e => dictSet d e.1 e.2)
        (d.map fun e => (e.1, f e.1 e.2)) =
      (pairs.foldl (fun d e => dictSet d e.1 e.2) d).map fun e => (e.1, f e.1 e.2) from h []
  induction pairs with
  | nil => exact fun d => rfl
  | cons e pairs ih =>
      intro d
      simp only [List.map_cons, List.foldl_cons]
      rw [dictSet_map f d e.1 e.2, ih]

theorem mem_dictSet {d : List (String × α)} {key : String} {value : α} {e : String × α}
    (h : e ∈ dictSet d key value) : e ∈ d ∨ e = (key, value) := by
  unfold dictSet at h
  split at h
  · obtain ⟨e', hmem, rfl⟩ := List.mem_map.mp h
    split
    · exact Or.inr rfl
    · exact Or.inl hmem
  · rcases List.mem_append.mp h with hmem | hmem
    · exact Or.inl hmem
    · exact Or.inr (List.mem_singleton.mp hmem)

/-- The entries are among those that were set. -/
theorem mem_of_mem_dictFrom {pairs : List (String × α)} {e : String × α}
    (h : e ∈ dictFrom pairs) : e ∈ pairs := by
  unfold dictFrom at h
  suffices hall : ∀ d : List (String × α),
      e ∈ pairs.foldl (fun d e => dictSet d e.1 e.2) d → e ∈ d ∨ e ∈ pairs by
    rcases hall [] h with hno | hmem
    · cases hno
    · exact hmem
  clear h
  induction pairs with
  | nil => exact fun d hd => Or.inl hd
  | cons p pairs ih =>
      intro d hd
      rcases ih (dictSet d p.1 p.2) hd with hset | hmem
      · rcases mem_dictSet hset with hold | rfl
        · exact Or.inl hold
        · exact Or.inr List.mem_cons_self
      · exact Or.inr (List.mem_cons_of_mem _ hmem)

theorem keys_dictSet (d : List (String × α)) (key : String) (value : α) :
    (dictSet d key value).map Prod.fst =
      if key ∈ d.map Prod.fst then d.map Prod.fst else d.map Prod.fst ++ [key] := by
  have hany : d.any (fun e => e.1 = key) = decide (key ∈ d.map Prod.fst) := by
    rw [Bool.eq_iff_iff]
    simp [List.any_eq_true]
  unfold dictSet
  rw [hany]
  by_cases hmem : key ∈ d.map Prod.fst
  · rw [if_pos (decide_eq_true hmem), if_pos hmem, List.map_map]
    refine List.map_congr_left ?_
    intro e _
    by_cases he : e.1 = key <;> simp [he]
  · rw [if_neg (by simpa using hmem), if_neg hmem, List.map_append]
    rfl

/-- A key is there once. -/
theorem nodup_dictFrom (pairs : List (String × α)) : ((dictFrom pairs).map Prod.fst).Nodup := by
  unfold dictFrom
  suffices h : ∀ d : List (String × α), (d.map Prod.fst).Nodup →
      ((pairs.foldl (fun d e => dictSet d e.1 e.2) d).map Prod.fst).Nodup from h [] List.nodup_nil
  induction pairs with
  | nil => exact fun d hd => hd
  | cons e pairs ih =>
      intro d hd
      refine ih _ ?_
      rw [keys_dictSet]
      split
      · exact hd
      · next hnew =>
          rw [← List.concat_eq_append]
          exact List.Nodup.concat hnew hd

/-- Keys that differ are set in their order. -/
theorem dictFrom_of_nodup {pairs : List (String × α)} (h : (pairs.map Prod.fst).Nodup) :
    dictFrom pairs = pairs := by
  unfold dictFrom
  suffices hall : ∀ d : List (String × α), ((d ++ pairs).map Prod.fst).Nodup →
      pairs.foldl (fun d e => dictSet d e.1 e.2) d = d ++ pairs from hall [] h
  clear h
  induction pairs with
  | nil => exact fun d _ => (List.append_nil d).symm
  | cons e pairs ih =>
      intro d hd
      have hnew : e.1 ∉ d.map Prod.fst := by
        rw [List.map_append, List.nodup_append] at hd
        intro hmem
        exact hd.2.2 e.1 hmem e.1 List.mem_cons_self rfl
      have hset : dictSet d e.1 e.2 = d ++ [e] := by
        unfold dictSet
        rw [if_neg (by simpa using hnew)]
      rw [List.foldl_cons, hset, ih (d ++ [e]) (by rwa [List.append_assoc]), List.append_assoc]
      rfl

end DictFrom

/-- `d.get(key)`, where only a text counts. -/
def Dict.str (d : Dict) (key : String) : Option String := (d.lookup key).bind Json.asStr

/-- `d.get(key)`, where only an integer counts. -/
def Dict.int (d : Dict) (key : String) : Option ℤ := (d.lookup key).bind Json.asInt

theorem Dict.lookup_of_str {d : Dict} {key s : String} (h : Dict.str d key = some s) :
    d.lookup key = some (.str s) := by
  unfold Dict.str at h
  cases hl : d.lookup key with
  | none =>
      rw [hl] at h
      cases h
  | some v =>
      rw [hl] at h
      cases v with
      | str t =>
          cases h
          rfl
      | _ => cases h

end TemisLab.Lib
