/-
  What a path and query denotes: the path is read as its decoded segments, the query as
  `parse_qsl` reads it with blank values.

  * `split_induction`: induction over the pieces between two delimiters.
  * `denotes_quote`: quoting that keeps the delimiters and the percent signs denotes the same.
-/
import TemisLab.Lib.Percent
import Mathlib.Data.List.TakeWhile

namespace TemisLab.Lib.PathQuery

open TemisLab.Lib.Percent TemisLab.Lib.Utf8

/-! ## What a path and query denotes -/

/-- What stands before the query and the fragment. -/
def pathOf (x : List Char) : List Char := x.takeWhile fun c => c != '?' && c != '#'

/-- The query, without its question mark. -/
def queryOf (x : List Char) : List Char :=
  ((x.takeWhile (· != '#')).dropWhile (· != '?')).drop 1

/-- The decoded segments of the path. -/
def segments (x : List Char) : List (List Char) := ((pathOf x).splitOn '/').map unquote

/-- The parameters of a query. -/
def parameters (query : List Char) : List (List Char × List Char) :=
  (parseQsl true false query).getD []

def denotes (x : List Char) : List (List Char) × List (List Char × List Char) :=
  (segments x, parameters (queryOf x))

/-! ## Pieces -/

/-- Induction over the pieces between the `c`s of a text. -/
theorem split_induction (c : Char) {motive : List Char → Prop}
    (last : ∀ w, c ∉ w → motive w)
    (more : ∀ w x, c ∉ w → motive x → motive (w ++ c :: x)) (x : List Char) : motive x := by
  induction hn : x.length using Nat.strong_induction_on generalizing x with
  | _ n ih =>
      by_cases hc : c ∈ x
      · obtain ⟨w, rest, rfl, hw⟩ := List.eq_append_cons_of_mem hc
        have hlt : rest.length < n := by
          rw [← hn, List.length_append, List.length_cons]
          omega
        exact more w rest hw (ih rest.length hlt rest rfl)
      · exact last x hc

theorem bne_of_not_mem {c : Char} {w : List Char} (h : c ∉ w) : ∀ a ∈ w, (a != c) = true := by
  intro a ha
  rw [bne_iff_ne]
  rintro rfl
  exact h ha

theorem takeWhile_piece {c : Char} {w : List Char} (h : c ∉ w) : w.takeWhile (· != c) = w :=
  List.takeWhile_eq_self_iff.mpr (bne_of_not_mem h)

theorem takeWhile_cons_piece {c : Char} {w : List Char} (h : c ∉ w) (x : List Char) :
    (w ++ c :: x).takeWhile (· != c) = w := by
  rw [List.takeWhile_append_of_pos (bne_of_not_mem h), List.takeWhile_cons_of_neg (by simp),
    List.append_nil]

theorem dropWhile_piece {c : Char} {w : List Char} (h : c ∉ w) : w.dropWhile (· != c) = [] :=
  List.dropWhile_eq_nil_iff.mpr (bne_of_not_mem h)

theorem dropWhile_cons_piece {c : Char} {w : List Char} (h : c ∉ w) (x : List Char) :
    (w ++ c :: x).dropWhile (· != c) = c :: x := by
  rw [List.dropWhile_append_of_pos (bne_of_not_mem h), List.dropWhile_cons_of_neg (by simp)]

/-- A text ends with its first piece, or goes on behind it. -/
theorem takeWhile_cases (c : Char) (x : List Char) :
    (c ∉ x ∧ x.takeWhile (· != c) = x) ∨
      ∃ rest, x = x.takeWhile (· != c) ++ c :: rest ∧ c ∉ x.takeWhile (· != c) := by
  by_cases hc : c ∈ x
  · obtain ⟨w, rest, rfl, hw⟩ := List.eq_append_cons_of_mem hc
    rw [takeWhile_cons_piece hw]
    exact .inr ⟨rest, rfl, hw⟩
  · exact .inl ⟨hc, takeWhile_piece hc⟩

/-- As many pieces as there are `c`s, and one. -/
theorem length_splitOn (c : Char) (x : List Char) : (x.splitOn c).length = x.count c + 1 := by
  induction x using split_induction c with
  | last w hw => rw [List.splitOn_eq_singleton hw, List.count_eq_zero_of_not_mem hw]; rfl
  | more w x hw ih =>
      rw [List.splitOn_append_cons_self_of_not_mem hw, List.length_cons, ih, List.count_append,
        List.count_cons_self, List.count_eq_zero_of_not_mem hw]
      omega

/-- A character that ends the part ends it whatever stands behind it. -/
theorem takeWhile_append_cons {p : Char → Bool} {c : Char} (hc : p c = false) (as bs : List Char) :
    (as ++ c :: bs).takeWhile p = as.takeWhile p := by
  induction as with
  | nil => simp [hc]
  | cons a as ih => by_cases ha : p a = true <;> simp [ha, ih]

/-! ## Delimiters -/

theorem literal_slash : Literal '/' := by decide

theorem literal_question : Literal '?' := by decide

theorem literal_hash : Literal '#' := by decide

theorem literal_ampersand : Literal '&' := by decide

theorem literal_equals : Literal '=' := by decide

theorem literal_plus : Literal '+' := by decide

theorem literal_space : Literal ' ' := by decide

theorem spaces_append (w x : List Char) : spaces (w ++ '+' :: x) = spaces w ++ ' ' :: spaces x := by
  simp [spaces]

/-- Without plus signs nothing is replaced. -/
theorem spaces_eq_self {x : List Char} : spaces x = x ↔ '+' ∉ x := by
  induction x with
  | nil => simp [spaces]
  | cons c x ih =>
      have hcons : spaces (c :: x) = (if c = '+' then ' ' else c) :: spaces x := rfl
      rw [hcons, List.cons.injEq, ih, List.mem_cons, not_or]
      refine and_congr_left fun _ => ?_
      by_cases hc : c = '+'
      · simp [hc]
      · simp [hc, Ne.symm hc]

theorem unquotePlus_append (w x : List Char) :
    unquotePlus (w ++ '+' :: x) = unquotePlus w ++ ' ' :: unquotePlus x := by
  unfold unquotePlus
  rw [spaces_append, unquote_append literal_space]

theorem unquotePlus_piece {w : List Char} (h : '+' ∉ w) : unquotePlus w = unquote w := by
  unfold unquotePlus
  rw [spaces_eq_self.mpr h]

/-- A piece is a name, or a name and a value. -/
theorem piece_cases (w : List Char) :
    ('=' ∉ w ∧ fieldName w = w ∧ fieldValue w = []) ∨
      ∃ name value, '=' ∉ name ∧ w = name ++ '=' :: value ∧ fieldName w = name ∧
        fieldValue w = value := by
  unfold fieldName fieldValue
  by_cases hw : '=' ∈ w
  · obtain ⟨name, value, rfl, hname⟩ := List.eq_append_cons_of_mem hw
    refine .inr ⟨name, value, hname, rfl, takeWhile_cons_piece hname value, ?_⟩
    rw [dropWhile_cons_piece hname]
    rfl
  · refine .inl ⟨hw, takeWhile_piece hw, ?_⟩
    rw [dropWhile_piece hw]
    rfl

theorem parameters_eq (query : List Char) :
    parameters query = ((query.splitOn '&').filter (· ≠ [])).map field := by
  unfold parameters parseQsl
  by_cases hquery : query = []
  · rw [hquery]
    rfl
  · simp [hquery]

/-- A path ends at the fragment, and at the query before it. -/
theorem pathOf_eq (x : List Char) :
    pathOf x = (x.takeWhile (· != '#')).takeWhile (· != '?') := by
  rw [List.takeWhile_takeWhile]
  unfold pathOf
  congr 1
  funext c
  rw [Bool.eq_iff_iff]
  simp

/-! ## Quoting -/

/-- The quoting leaves the delimiters of a path and query, and percent signs. -/
structure KeepsDelimiters (safe : List Char) : Prop where
  slash : '/' ∈ safe
  question : '?' ∈ safe
  hash : '#' ∈ safe
  ampersand : '&' ∈ safe
  equals : '=' ∈ safe
  plus : '+' ∈ safe
  percent : '%' ∈ safe

instance (safe : List Char) : Decidable (KeepsDelimiters safe) :=
  decidable_of_iff
    ('/' ∈ safe ∧ '?' ∈ safe ∧ '#' ∈ safe ∧ '&' ∈ safe ∧ '=' ∈ safe ∧ '+' ∈ safe ∧ '%' ∈ safe)
    ⟨fun ⟨h₁, h₂, h₃, h₄, h₅, h₆, h₇⟩ => ⟨h₁, h₂, h₃, h₄, h₅, h₆, h₇⟩,
      fun h => ⟨h.slash, h.question, h.hash, h.ampersand, h.equals, h.plus, h.percent⟩⟩

section Quote

variable {safe : List Char} {c : Char} {w x : List Char}

/-- The escapes that quoting makes are percent signs and digits. -/
theorem not_mem_escapeOf (hc : Literal c) {b : ℕ} (hb : b < 256) : c ∉ escapeOf b := by
  have hdigit : ∀ n < 16, c ≠ hexChar n := by
    rintro n hn rfl
    rw [Literal, hexDigit_hexChar hn] at hc
    cases hc.2
  have hhigh := hdigit (b / 16) (by omega)
  have hlow := hdigit (b % 16) (by omega)
  simp [escapeOf, hc.1, hhigh, hlow]

theorem not_mem_quote (hc : Literal c) (h : c ∉ x) : c ∉ quote safe x := by
  intro hmem
  obtain ⟨a, ha, hca⟩ := List.mem_flatMap.mp hmem
  unfold quoteChar at hca
  split at hca
  · rw [List.mem_singleton] at hca
    exact h (hca ▸ ha)
  · obtain ⟨b, hb, hcb⟩ := List.mem_flatMap.mp hca
    exact not_mem_escapeOf hc (encodeChar_lt hb) hcb

theorem quote_append_kept (h : Kept safe c) (w x : List Char) :
    quote safe (w ++ c :: x) = quote safe w ++ c :: quote safe x := by
  rw [quote_append, quote_cons_kept h]

theorem takeWhile_quote (hc : Literal c) (hk : Kept safe c) (x : List Char) :
    (quote safe x).takeWhile (· != c) = quote safe (x.takeWhile (· != c)) := by
  by_cases hx : c ∈ x
  · obtain ⟨w, rest, rfl, hw⟩ := List.eq_append_cons_of_mem hx
    rw [quote_append_kept hk, takeWhile_cons_piece (not_mem_quote hc hw), takeWhile_cons_piece hw]
  · rw [takeWhile_piece hx, takeWhile_piece (not_mem_quote hc hx)]

theorem drop_dropWhile_quote (hc : Literal c) (hk : Kept safe c) (x : List Char) :
    ((quote safe x).dropWhile (· != c)).drop 1 = quote safe ((x.dropWhile (· != c)).drop 1) := by
  by_cases hx : c ∈ x
  · obtain ⟨w, rest, rfl, hw⟩ := List.eq_append_cons_of_mem hx
    rw [quote_append_kept hk, dropWhile_cons_piece (not_mem_quote hc hw), dropWhile_cons_piece hw]
    rfl
  · rw [dropWhile_piece hx, dropWhile_piece (not_mem_quote hc hx)]
    rfl

theorem splitOn_quote (hc : Literal c) (hk : Kept safe c) (x : List Char) :
    (quote safe x).splitOn c = (x.splitOn c).map (quote safe) := by
  induction x using split_induction c with
  | last w hw =>
      rw [List.splitOn_eq_singleton hw, List.splitOn_eq_singleton (not_mem_quote hc hw)]
      rfl
  | more w x hw ih =>
      rw [quote_append_kept hk, List.splitOn_append_cons_self_of_not_mem (not_mem_quote hc hw),
        List.splitOn_append_cons_self_of_not_mem hw, ih]
      rfl

theorem quote_eq_nil {x : List Char} : quote safe x = [] ↔ x = [] := by
  refine ⟨?_, fun h => by rw [h]; rfl⟩
  intro h
  cases x with
  | nil => rfl
  | cons c x =>
      obtain ⟨d, rest, hq, -⟩ := quoteChar_eq_cons safe c
      rw [quote_cons, hq] at h
      cases h

theorem unquotePlus_quote (hplus : Kept safe '+') (hpercent : '%' ∈ safe) (x : List Char) :
    unquotePlus (quote safe x) = unquotePlus x := by
  induction x using split_induction '+' with
  | last w hw =>
      rw [unquotePlus_piece hw, unquotePlus_piece (not_mem_quote literal_plus hw),
        unquote_quote hpercent]
  | more w x hw ih =>
      rw [quote_append_kept hplus, unquotePlus_append, unquotePlus_append, ih,
        unquotePlus_piece hw, unquotePlus_piece (not_mem_quote literal_plus hw),
        unquote_quote hpercent]

/-- Quoting that leaves the delimiters leaves what the text denotes. -/
theorem denotes_quote (h : KeepsDelimiters safe) (x : List Char) :
    denotes (quote safe x) = denotes x := by
  have kept : ∀ c ∈ safe, c.toNat < 0x80 → Kept safe c := fun c hc hn => .inr ⟨hc, hn⟩
  have hslash := kept '/' h.slash (by decide)
  have hquestion := kept '?' h.question (by decide)
  have hhash := kept '#' h.hash (by decide)
  have hampersand := kept '&' h.ampersand (by decide)
  have hequals := kept '=' h.equals (by decide)
  have hplus := kept '+' h.plus (by decide)
  have hpath : pathOf (quote safe x) = quote safe (pathOf x) := by
    rw [pathOf_eq, pathOf_eq, takeWhile_quote literal_hash hhash,
      takeWhile_quote literal_question hquestion]
  have hquery : queryOf (quote safe x) = quote safe (queryOf x) := by
    unfold queryOf
    rw [takeWhile_quote literal_hash hhash, drop_dropWhile_quote literal_question hquestion]
  have hsegments : segments (quote safe x) = segments x := by
    unfold segments
    rw [hpath, splitOn_quote literal_slash hslash, List.map_map]
    exact List.map_congr_left fun w _ => unquote_quote h.percent w
  have hfield : ∀ w, field (quote safe w) = field w := by
    intro w
    unfold field fieldName fieldValue
    rw [takeWhile_quote literal_equals hequals, drop_dropWhile_quote literal_equals hequals,
      unquotePlus_quote hplus h.percent, unquotePlus_quote hplus h.percent]
  have hnil : ((fun w : List Char => decide (w ≠ [])) ∘ quote safe) = fun w => decide (w ≠ []) := by
    funext w
    simp [quote_eq_nil]
  have hparameters : ∀ q, parameters (quote safe q) = parameters q := by
    intro q
    rw [parameters_eq, parameters_eq, splitOn_quote literal_ampersand hampersand, List.filter_map,
      List.map_map, hnil]
    exact List.map_congr_left fun w _ => hfield w
  unfold denotes
  rw [hsegments, hquery, hparameters]

end Quote

end TemisLab.Lib.PathQuery
