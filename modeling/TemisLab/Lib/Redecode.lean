/-
  When a path and query denotes the same after one percent-decoding too many.

  Decoding goes through every literal character, so each condition on a text is one on its pieces
  (`apart_append`, `once_append`); no delimiter gets lost, and decoding never makes a text longer.

  * `segments_unquote_iff`: the path. Equal segments make equal decoded paths.
  * `parameters_unquote_iff`: the query. What the delimiters leave of it is counted (`content`):
    a delimiter that an escape stands for takes something away that no parameter gets back.
  * `denotes_unquote_iff`: both.
-/
import TemisLab.Lib.PathQuery

namespace TemisLab.Lib.Redecode

open TemisLab.Lib.Percent TemisLab.Lib.PathQuery

/-- No escape of the text stands for `c`: decoded it has as many of them. -/
def Apart (c : Char) (x : List Char) : Prop := (unquote x).count c = x.count c

/-- Decoding twice is decoding once. -/
def Once (x : List Char) : Prop := unquote (unquote x) = unquote x

instance (c : Char) (x : List Char) : Decidable (Apart c x) :=
  inferInstanceAs (Decidable ((unquote x).count c = x.count c))

instance (x : List Char) : Decidable (Once x) :=
  inferInstanceAs (Decidable (unquote (unquote x) = unquote x))

/-- The decoded path is read as it was. -/
structure StablePath (path : List Char) : Prop where
  slash : Apart '/' path
  query : '?' ∉ unquote path
  fragment : '#' ∉ unquote path
  once : Once path

/-- The decoded query is read as it was. -/
structure StableQuery (query : List Char) : Prop where
  ampersand : Apart '&' query
  plus : Apart '+' query
  fragment : '#' ∉ unquote query
  equals : ∀ piece ∈ query.splitOn '&', '=' ∉ unquote (fieldName piece)
  once : Once query

/-! ## Decoding, piece by piece -/

theorem length_unquote_le (x : List Char) : (unquote x).length ≤ x.length := by
  rcases unquote_eq_or_shorter x with h | h
  · rw [h]
  · exact h.le

theorem unquote_eq_of_length {x : List Char} (h : x.length ≤ (unquote x).length) :
    unquote x = x := by
  rcases unquote_eq_or_shorter x with he | hlt
  · exact he
  · omega

section Literal

variable {c d : Char} {w x : List Char}

/-- Decoding loses no literal character. -/
theorem count_le (hc : Literal c) (x : List Char) : x.count c ≤ (unquote x).count c := by
  induction x using split_induction c with
  | last w hw =>
      rw [List.count_eq_zero_of_not_mem hw]
      exact Nat.zero_le _
  | more w x hw ih =>
      rw [unquote_append hc, List.count_append, List.count_append, List.count_cons_self,
        List.count_cons_self, List.count_eq_zero_of_not_mem hw]
      omega

theorem mem_unquote (hc : Literal c) (h : c ∈ x) : c ∈ unquote x := by
  have hle := count_le hc x
  have hpos := List.count_pos_iff.mpr h
  exact List.count_pos_iff.mp (by omega)

theorem apart_append (hc : Literal c) (hd : Literal d) :
    Apart c (w ++ d :: x) ↔ Apart c w ∧ Apart c x := by
  have hw := count_le hc w
  have hx := count_le hc x
  unfold Apart
  rw [unquote_append hd, List.count_append, List.count_append, List.count_cons, List.count_cons]
  omega

theorem apart_piece (h : c ∉ w) : Apart c w ↔ c ∉ unquote w := by
  unfold Apart
  rw [List.count_eq_zero_of_not_mem h, List.count_eq_zero]

theorem apart_of_not_mem (hc : Literal c) (h : c ∉ unquote w) : Apart c w := by
  have hle := count_le hc w
  rw [List.count_eq_zero_of_not_mem h] at hle
  unfold Apart
  rw [List.count_eq_zero_of_not_mem h, Nat.le_zero.mp hle]

theorem fixed_append (hd : Literal d) :
    unquote (w ++ d :: x) = w ++ d :: x ↔ unquote w = w ∧ unquote x = x := by
  rw [unquote_append hd]
  refine ⟨?_, fun ⟨hw, hx⟩ => by rw [hw, hx]⟩
  intro h
  have hlength := congrArg List.length h
  have hw := length_unquote_le w
  have hx := length_unquote_le x
  simp only [List.length_append, List.length_cons] at hlength
  exact ⟨unquote_eq_of_length (by omega), unquote_eq_of_length (by omega)⟩

theorem once_append (hd : Literal d) : Once (w ++ d :: x) ↔ Once w ∧ Once x := by
  unfold Once
  rw [unquote_append hd]
  exact fixed_append hd

theorem splitOn_unquote (hc : Literal c) (h : Apart c x) :
    (unquote x).splitOn c = (x.splitOn c).map unquote := by
  induction x using split_induction c with
  | last w hw =>
      rw [List.splitOn_eq_singleton hw, List.splitOn_eq_singleton ((apart_piece hw).mp h)]
      rfl
  | more w x hw ih =>
      obtain ⟨haw, hax⟩ := (apart_append hc hc).mp h
      rw [unquote_append hc, List.splitOn_append_cons_self_of_not_mem ((apart_piece hw).mp haw),
        List.splitOn_append_cons_self_of_not_mem hw, ih hax]
      rfl

theorem intercalate_unquote (hc : Literal c) (x : List Char) :
    [c].intercalate ((x.splitOn c).map unquote) = unquote x := by
  induction x using split_induction c with
  | last w hw =>
      rw [List.splitOn_eq_singleton hw]
      simp
  | more w x hw ih =>
      obtain ⟨p, ps, hps⟩ := List.exists_cons_of_ne_nil (List.splitOn_ne_nil c x)
      rw [unquote_append hc, List.splitOn_append_cons_self_of_not_mem hw, ← ih, hps]
      simp [List.intercalate]

/-- A property of texts that literal characters join holds of the pieces. -/
theorem forall_pieces {P : List Char → Prop} (hP : ∀ w x, P (w ++ c :: x) ↔ P w ∧ P x) :
    P x ↔ ∀ w ∈ x.splitOn c, P w := by
  induction x using split_induction c with
  | last w hw => rw [List.splitOn_eq_singleton hw, List.forall_mem_singleton]
  | more w x hw ih =>
      rw [List.splitOn_append_cons_self_of_not_mem hw, List.forall_mem_cons, hP, ih]

end Literal

/-! ## The path -/

/-- A part that ends at a literal character is decoded by itself. -/
theorem takeWhile_unquote {p : Char → Bool} (hp : ∀ c, p c = false → Literal c) (x : List Char) :
    (unquote x).takeWhile p = (unquote (x.takeWhile p)).takeWhile p := by
  cases hrest : x.dropWhile p with
  | nil =>
      rw [List.takeWhile_eq_self_iff.mpr (List.dropWhile_eq_nil_iff.mp hrest)]
  | cons c rest =>
      have hc : p c = false := by
        have hhead := List.head?_dropWhile_not p x
        rw [hrest] at hhead
        simpa using hhead
      have hx : x.takeWhile p ++ c :: rest = x := by
        rw [← hrest]
        exact List.takeWhile_append_dropWhile
      calc (unquote x).takeWhile p
          = (unquote (x.takeWhile p ++ c :: rest)).takeWhile p := by rw [hx]
        _ = (unquote (x.takeWhile p)).takeWhile p := by
            rw [unquote_append (hp c hc), takeWhile_append_cons hc]

theorem pathOf_unquote (x : List Char) : pathOf (unquote x) = pathOf (unquote (pathOf x)) := by
  refine takeWhile_unquote ?_ x
  intro c hc
  by_cases hq : c = '?'
  · exact hq ▸ literal_question
  · have hh : c = '#' := by simpa [hq] using hc
    exact hh ▸ literal_hash

/-- A text without the two delimiters is all path. -/
theorem pathOf_eq_self {x : List Char} : pathOf x = x ↔ '?' ∉ x ∧ '#' ∉ x := by
  unfold pathOf
  rw [List.takeWhile_eq_self_iff]
  refine ⟨fun h => ⟨fun hq => by simpa using h _ hq, fun hh => by simpa using h _ hh⟩, ?_⟩
  rintro ⟨hq, hh⟩ a ha
  have hq' : a ≠ '?' := fun he => hq (he ▸ ha)
  have hh' : a ≠ '#' := fun he => hh (he ▸ ha)
  simp [hq', hh']

/-- Segments that stay the same make the decoded path the same, and leave no room for anything
    that was cut off or decoded again. -/
theorem StablePath.of_segments {x : List Char} (h : segments (unquote x) = segments x) :
    StablePath (pathOf x) := by
  unfold segments at h
  rw [pathOf_unquote] at h
  have hjoin : unquote (pathOf (unquote (pathOf x))) = unquote (pathOf x) := by
    rw [← intercalate_unquote literal_slash, h, intercalate_unquote literal_slash]
  have hprefix : pathOf (unquote (pathOf x)) <+: unquote (pathOf x) := List.takeWhile_prefix _
  have hlength := length_unquote_le (pathOf (unquote (pathOf x)))
  rw [hjoin] at hlength
  have hall : pathOf (unquote (pathOf x)) = unquote (pathOf x) := hprefix.eq_of_length_le hlength
  rw [hall] at h hjoin
  obtain ⟨hquery, hfragment⟩ := pathOf_eq_self.mp hall
  have hcount := congrArg List.length h
  rw [List.length_map, List.length_map, length_splitOn, length_splitOn] at hcount
  exact ⟨Nat.succ.inj hcount, hquery, hfragment, hjoin⟩

theorem StablePath.segments {x : List Char} (h : StablePath (pathOf x)) :
    segments (unquote x) = segments x := by
  have hpieces := (forall_pieces fun _ _ => once_append literal_slash).mp h.once
  unfold PathQuery.segments
  rw [pathOf_unquote, pathOf_eq_self.mpr ⟨h.query, h.fragment⟩,
    splitOn_unquote literal_slash h.slash, List.map_map]
  exact List.map_congr_left hpieces

theorem segments_unquote_iff {x : List Char} :
    segments (unquote x) = segments x ↔ StablePath (pathOf x) :=
  ⟨StablePath.of_segments, StablePath.segments⟩

/-! ## Plus signs -/

@[simp] theorem length_spaces (x : List Char) : (spaces x).length = x.length := List.length_map _

@[simp] theorem length_unquotePlus (x : List Char) :
    (unquotePlus x).length = (unquote x).length := by
  induction x using split_induction '+' with
  | last w hw => rw [unquotePlus_piece hw]
  | more w x hw ih =>
      rw [unquotePlus_append, unquotePlus_piece hw, unquote_append literal_plus]
      simp only [List.length_append, List.length_cons, ih]

/-- Replacing the plus signs of the decoded text replaces those an escape stands for, too. -/
theorem spaces_unquote {x : List Char} : spaces (unquote x) = unquotePlus x ↔ Apart '+' x := by
  induction x using split_induction '+' with
  | last w hw => rw [unquotePlus_piece hw, apart_piece hw, spaces_eq_self]
  | more w x hw ih =>
      rw [unquote_append literal_plus, spaces_append, unquotePlus_append, unquotePlus_piece hw,
        apart_append literal_plus literal_plus, apart_piece hw, ← ih]
      refine ⟨?_, fun ⟨hnot, hx⟩ => by rw [spaces_eq_self.mpr hnot, hx]⟩
      intro h
      obtain ⟨hhead, htail⟩ := List.append_inj h (length_spaces _)
      exact ⟨spaces_eq_self.mp hhead, (List.cons.inj htail).2⟩

/-- A text that decoding leaves has its plus signs replaced, and no more. -/
theorem unquotePlus_of_fixed {x : List Char} (h : unquote x = x) : unquotePlus x = spaces x := by
  have hlength := length_unquotePlus x
  rw [h] at hlength
  exact unquote_eq_of_length (by rw [length_spaces]; exact hlength.symm.le)

/-- A name or a value is read as it was. -/
theorem unquotePlus_unquote {x : List Char} (h : Once x) :
    unquotePlus (unquote x) = unquotePlus x ↔ Apart '+' x := by
  rw [unquotePlus_of_fixed h, spaces_unquote]

/-! ## The pieces of a query -/

/-- A piece whose delimiters are those of its own text is read as it was. -/
theorem field_unquote {w : List Char} (hequals : '=' ∉ unquote (fieldName w)) (honce : Once w)
    (hplus : Apart '+' w) : field (unquote w) = field w := by
  rcases piece_cases w with ⟨hw, hname, hvalue⟩ | ⟨name, value, hw, rfl, hname, hvalue⟩
  · rw [hname] at hequals
    have hname' : fieldName (unquote w) = unquote w := takeWhile_piece hequals
    have hvalue' : fieldValue (unquote w) = [] := by
      unfold fieldValue
      rw [dropWhile_piece hequals]
      rfl
    unfold field
    rw [hname, hvalue, hname', hvalue', (unquotePlus_unquote honce).mpr hplus]
  · rw [hname] at hequals
    obtain ⟨honce₁, honce₂⟩ := (once_append literal_equals).mp honce
    obtain ⟨hplus₁, hplus₂⟩ := (apart_append literal_plus literal_equals).mp hplus
    unfold field
    rw [hname, hvalue, unquote_append literal_equals]
    have hname' : fieldName (unquote name ++ '=' :: unquote value) = unquote name :=
      takeWhile_cons_piece hequals _
    have hvalue' : fieldValue (unquote name ++ '=' :: unquote value) = unquote value := by
      unfold fieldValue
      rw [dropWhile_cons_piece hequals]
      rfl
    rw [hname', hvalue', (unquotePlus_unquote honce₁).mpr hplus₁,
      (unquotePlus_unquote honce₂).mpr hplus₂]

/-- The pieces that are not empty, decoded. -/
theorem parameters_unquote {query : List Char} (h : Apart '&' query) :
    parameters (unquote query) =
      ((query.splitOn '&').filter (· ≠ [])).map fun w => field (unquote w) := by
  have hnil : ((fun w : List Char => decide (w ≠ [])) ∘ unquote) = fun w => decide (w ≠ []) := by
    funext w
    simp [unquote_eq_nil]
  rw [parameters_eq, splitOn_unquote literal_ampersand h, List.filter_map, List.map_map, hnil]
  rfl

theorem StableQuery.parameters {query : List Char} (h : StableQuery query) :
    parameters (unquote query) = parameters query := by
  have honce := (forall_pieces fun _ _ => once_append literal_ampersand).mp h.once
  have hplus :=
    (forall_pieces fun _ _ => apart_append literal_plus literal_ampersand).mp h.plus
  rw [parameters_unquote h.ampersand, parameters_eq]
  refine List.map_congr_left fun w hw => ?_
  have hmem := List.mem_of_mem_filter hw
  exact field_unquote (h.equals w hmem) (honce w hmem) (hplus w hmem)

/-! ## What the delimiters leave of a query -/

/-- The characters of a query that are in a name or a value; `valued` in a value. -/
def content : Bool → List Char → ℕ
  | _, [] => 0
  | valued, c :: cs =>
      if c = '&' then content false cs
      else if c = '=' ∧ valued = false then content true cs
      else content valued cs + 1

theorem content_ampersand (valued : Bool) (w x : List Char) :
    content valued (w ++ '&' :: x) = content valued w + content false x := by
  induction w generalizing valued with
  | nil => simp [content]
  | cons c w ih =>
      simp only [List.cons_append, content, ih]
      split
      · rfl
      · split <;> omega

/-- A query that is cut off has less in it. -/
theorem content_hash (valued : Bool) (w x : List Char) :
    content valued w < content valued (w ++ '#' :: x) := by
  induction w generalizing valued with
  | nil => simp [content]
  | cons c w ih =>
      simp only [List.cons_append, content]
      split
      · exact ih false
      · split
        · exact ih true
        · exact Nat.succ_lt_succ (ih valued)

theorem content_takeWhile_le (x : List Char) :
    content false (x.takeWhile (· != '#')) ≤ content false x ∧
      (content false x ≤ content false (x.takeWhile (· != '#')) → '#' ∉ x) := by
  rcases takeWhile_cases '#' x with ⟨hx, he⟩ | ⟨rest, he, -⟩
  · rw [he]
    exact ⟨le_refl _, fun _ => hx⟩
  · have hlt := content_hash false (x.takeWhile (· != '#')) rest
    rw [← he] at hlt
    exact ⟨hlt.le, fun hle => absurd hle (by omega)⟩

/-- Every ampersand takes a character away, and so does an equals sign. -/
theorem content_le (valued : Bool) (x : List Char) :
    content valued x + x.count '&' + (if valued = false ∧ '=' ∈ x then 1 else 0) ≤ x.length := by
  induction x generalizing valued with
  | nil => simp [content]
  | cons c x ih =>
      have hnamed := ih false
      have hvalued := ih true
      have hsame := ih valued
      simp only [content, List.count_cons, List.length_cons, List.mem_cons, beq_iff_eq]
      by_cases hamp : c = '&'
      · subst hamp
        cases valued with
        | false =>
            simp at hnamed ⊢
            omega
        | true =>
            simp at hnamed ⊢
            split at hnamed <;> omega
      · by_cases heq : c = '='
        · subst heq
          cases valued with
          | false =>
              simp at hvalued ⊢
              omega
          | true =>
              simp at hvalued ⊢
              omega
        · have heq' : '=' ≠ c := Ne.symm heq
          simp only [hamp, heq, heq', if_false, false_and, false_or, add_zero] at hsame ⊢
          omega

/-- Without delimiters everything is content. -/
theorem content_plain {valued : Bool} {w : List Char} (hamp : '&' ∉ w)
    (heq : valued = true ∨ '=' ∉ w) : content valued w = w.length := by
  induction w with
  | nil => rfl
  | cons c w ih =>
      simp only [List.mem_cons, not_or] at hamp heq
      have hc : ¬ (c = '=' ∧ valued = false) := by
        rintro ⟨rfl, rfl⟩
        simp at heq
      have hrest := ih hamp.2 (heq.imp_right And.right)
      simp only [content, if_neg (Ne.symm hamp.1), if_neg hc, hrest, List.length_cons]

theorem content_equals {w : List Char} (hamp : '&' ∉ w) (heq : '=' ∉ w) (x : List Char) :
    content false (w ++ '=' :: x) = w.length + content true x := by
  induction w with
  | nil => simp [content]
  | cons c w ih =>
      simp only [List.mem_cons, not_or] at hamp heq
      have hrest := ih hamp.2 heq.2
      simp only [List.cons_append, content, if_neg (Ne.symm hamp.1), Ne.symm heq.1, false_and,
        if_false, hrest, List.length_cons]
      omega

/-- The length of a field as it is written. -/
def written (w : List Char) : ℕ := (fieldName w).length + (fieldValue w).length

/-- The length of a field as it is read. -/
def decoded (w : List Char) : ℕ := (unquote (fieldName w)).length + (unquote (fieldValue w)).length

theorem content_piece {w : List Char} (hamp : '&' ∉ w) : content false w = written w := by
  unfold written
  rcases piece_cases w with ⟨hw, hname, hvalue⟩ | ⟨name, value, hw, rfl, hname, hvalue⟩
  · rw [hname, hvalue, content_plain hamp (.inr hw)]
    rfl
  · simp only [List.mem_append, List.mem_cons, not_or] at hamp
    rw [hname, hvalue, content_equals hamp.1 hw, content_plain hamp.2.2 (.inl rfl)]

theorem content_eq_sum (x : List Char) :
    content false x = ((x.splitOn '&').map written).sum := by
  induction x using split_induction '&' with
  | last w hw => rw [List.splitOn_eq_singleton hw, content_piece hw]; rfl
  | more w x hw ih =>
      rw [List.splitOn_append_cons_self_of_not_mem hw, content_ampersand, content_piece hw, ih]
      rfl

theorem content_unquote (x : List Char) :
    content false (unquote x) = ((x.splitOn '&').map fun w => content false (unquote w)).sum := by
  induction x using split_induction '&' with
  | last w hw => rw [List.splitOn_eq_singleton hw]; rfl
  | more w x hw ih =>
      rw [List.splitOn_append_cons_self_of_not_mem hw, unquote_append literal_ampersand,
        content_ampersand, ih]
      rfl

/-- A decoded piece has no more in it than its name and its value; as much only if it has no
    delimiters of its own. -/
theorem content_decoded (w : List Char) :
    content false (unquote w) ≤ decoded w ∧
      (content false (unquote w) = decoded w → '&' ∉ unquote w ∧ ('=' ∈ unquote w → '=' ∈ w)) := by
  have hle := content_le false (unquote w)
  have hmem : '=' ∈ w → '=' ∈ unquote w := mem_unquote literal_equals
  have hlength : (unquote w).length = decoded w + if '=' ∈ w then 1 else 0 := by
    unfold decoded
    rcases piece_cases w with ⟨hw, hname, hvalue⟩ | ⟨name, value, hw, rfl, hname, hvalue⟩
    · rw [hname, hvalue, if_neg hw]
      rfl
    · have heq : '=' ∈ name ++ '=' :: value := by simp
      rw [hname, hvalue, if_pos heq, unquote_append literal_equals, List.length_append,
        List.length_cons]
      omega
  rw [← List.count_eq_zero]
  by_cases hw : '=' ∈ w
  · simp only [hw, hmem hw, and_self, if_true] at hle hlength ⊢
    exact ⟨by omega, fun _ => ⟨by omega, fun _ => trivial⟩⟩
  · by_cases hu : '=' ∈ unquote w
    · simp only [hw, hu, and_self, if_true, if_false] at hle hlength ⊢
      exact ⟨by omega, fun _ => by omega⟩
    · simp only [hw, hu, and_false, if_false] at hle hlength ⊢
      exact ⟨by omega, fun _ => ⟨by omega, fun h => h⟩⟩

/-- How much the parameters of a query hold. -/
def size (fields : List (List Char × List Char)) : ℕ :=
  (fields.map fun f => f.1.length + f.2.length).sum

theorem size_parameters (query : List Char) :
    size (parameters query) = ((query.splitOn '&').map decoded).sum := by
  rw [parameters_eq]
  generalize query.splitOn '&' = pieces
  induction pieces with
  | nil => rfl
  | cons w pieces ih =>
      by_cases hw : w = []
      · subst hw
        rw [List.filter_cons_of_neg (by simp), ih]
        simp [decoded, fieldName, fieldValue]
      · rw [List.filter_cons_of_pos (by simpa using hw)]
        simp only [size, List.map_cons, List.sum_cons, field, length_unquotePlus] at ih ⊢
        rw [ih]
        rfl

theorem decoded_le (w : List Char) : decoded w ≤ written w :=
  Nat.add_le_add (length_unquote_le _) (length_unquote_le _)

/-- Sums of bounded terms: as large only if the terms are. -/
theorem sum_le_of_le {α : Type*} {l : List α} {f g : α → ℕ} (h : ∀ a ∈ l, f a ≤ g a) :
    (l.map f).sum ≤ (l.map g).sum ∧
      ((l.map g).sum ≤ (l.map f).sum → ∀ a ∈ l, f a = g a) := by
  induction l with
  | nil => exact ⟨le_refl _, fun _ a ha => by cases ha⟩
  | cons a l ih =>
      obtain ⟨ha, hl⟩ := List.forall_mem_cons.mp h
      obtain ⟨hle, htight⟩ := ih hl
      simp only [List.map_cons, List.sum_cons]
      refine ⟨by omega, fun hge => ?_⟩
      exact List.forall_mem_cons.mpr ⟨by omega, htight (by omega)⟩

/-- What follows from the lengths alone, when nothing got lost. -/
structure Tight (query : List Char) : Prop where
  fragment : '#' ∉ unquote query
  pieces : ∀ w ∈ query.splitOn '&', '&' ∉ unquote w ∧ ('=' ∈ unquote w → '=' ∈ w)
  fields : ∀ w ∈ (unquote query).splitOn '&', decoded w = written w

theorem Tight.of_parameters {query : List Char}
    (h : parameters ((unquote query).takeWhile (· != '#')) = parameters query) : Tight query := by
  have hsize := congrArg size h
  rw [size_parameters, size_parameters] at hsize
  obtain ⟨hcut, hfragment⟩ := content_takeWhile_le (unquote query)
  obtain ⟨hread, hfields⟩ := sum_le_of_le (l := ((unquote query).takeWhile (· != '#')).splitOn '&')
    (f := decoded) (g := written) fun w _ => decoded_le w
  obtain ⟨hkept, hpieces⟩ := sum_le_of_le (l := query.splitOn '&')
    (f := fun w => content false (unquote w)) (g := decoded) fun w _ => (content_decoded w).1
  rw [← content_eq_sum] at hread hfields
  rw [← content_unquote] at hkept hpieces
  -- every inequality between the two equal sizes is an equality
  have hnone : '#' ∉ unquote query := hfragment (by omega)
  rw [takeWhile_piece hnone] at hread hfields hsize
  exact ⟨hnone, fun w hw => (content_decoded w).2 (hpieces (by omega) w hw), hfields (by omega)⟩

/-- Equal fields of a piece and its decoded text, where the lengths fit. -/
theorem stable_of_field {w : List Char} (hequals : '=' ∈ unquote w → '=' ∈ w)
    (hlength : decoded (unquote w) = written (unquote w)) (hfield : field (unquote w) = field w) :
    '=' ∉ unquote (fieldName w) ∧ Once w ∧ Apart '+' w := by
  obtain ⟨hname, hvalue⟩ := Prod.mk.inj hfield
  have hname_le := length_unquote_le (fieldName (unquote w))
  have hvalue_le := length_unquote_le (fieldValue (unquote w))
  have honce_name : unquote (fieldName (unquote w)) = fieldName (unquote w) :=
    unquote_eq_of_length (by unfold decoded written at hlength; omega)
  have honce_value : unquote (fieldValue (unquote w)) = fieldValue (unquote w) :=
    unquote_eq_of_length (by unfold decoded written at hlength; omega)
  rcases piece_cases w with ⟨hw, hn, hv⟩ | ⟨name, value, hw, rfl, hn, hv⟩
  · have hnot : '=' ∉ unquote w := fun h => hw (hequals h)
    have hread : fieldName (unquote w) = unquote w := takeWhile_piece hnot
    rw [hread] at honce_name hname
    rw [hn] at hname ⊢
    exact ⟨hnot, honce_name, (unquotePlus_unquote honce_name).mp hname⟩
  · rw [hn] at hname ⊢
    rw [hv] at hvalue
    rw [unquote_append literal_equals] at hname hvalue honce_name honce_value
    -- a name that was cut off is shorter than the name it is read as
    have hnot : '=' ∉ unquote name := by
      intro hmem
      obtain ⟨cut, rest, he, hcut⟩ := List.eq_append_cons_of_mem hmem
      have hread : fieldName (unquote name ++ '=' :: unquote value) = cut := by
        rw [he, List.append_assoc, List.cons_append]
        exact takeWhile_cons_piece hcut _
      have hlengths := congrArg List.length hname
      rw [length_unquotePlus, length_unquotePlus, honce_name, hread, he, List.length_append,
        List.length_cons] at hlengths
      omega
    have hread_name : fieldName (unquote name ++ '=' :: unquote value) = unquote name :=
      takeWhile_cons_piece hnot _
    have hread_value : fieldValue (unquote name ++ '=' :: unquote value) = unquote value := by
      unfold fieldValue
      rw [dropWhile_cons_piece hnot]
      rfl
    rw [hread_name] at hname honce_name
    rw [hread_value] at hvalue honce_value
    refine ⟨hnot, (once_append literal_equals).mpr ⟨honce_name, honce_value⟩, ?_⟩
    exact (apart_append literal_plus literal_equals).mpr
      ⟨(unquotePlus_unquote honce_name).mp hname, (unquotePlus_unquote honce_value).mp hvalue⟩

theorem StableQuery.of_parameters {query : List Char}
    (h : PathQuery.parameters ((unquote query).takeWhile (· != '#')) = PathQuery.parameters query) :
    StableQuery query := by
  have htight := Tight.of_parameters h
  have happart : Apart '&' query :=
    (forall_pieces fun _ _ => apart_append literal_ampersand literal_ampersand).mpr
      fun w hw => apart_of_not_mem literal_ampersand (htight.pieces w hw).1
  rw [takeWhile_piece htight.fragment, parameters_unquote happart, parameters_eq,
    List.map_inj_left] at h
  have hpiece : ∀ w ∈ query.splitOn '&',
      '=' ∉ unquote (fieldName w) ∧ Once w ∧ Apart '+' w := by
    intro w hw
    by_cases hnil : w = []
    · subst hnil
      exact ⟨List.not_mem_nil, rfl, rfl⟩
    · have hdecoded : unquote w ∈ (unquote query).splitOn '&' := by
        rw [splitOn_unquote literal_ampersand happart]
        exact List.mem_map_of_mem hw
      exact stable_of_field (htight.pieces w hw).2 (htight.fields _ hdecoded)
        (h w (List.mem_filter.mpr ⟨hw, by simpa using hnil⟩))
  exact {
    ampersand := happart
    plus := (forall_pieces fun _ _ => apart_append literal_plus literal_ampersand).mpr
      fun w hw => (hpiece w hw).2.2
    fragment := htight.fragment
    equals := fun w hw => (hpiece w hw).1
    once := (forall_pieces fun _ _ => once_append literal_ampersand).mpr
      fun w hw => (hpiece w hw).2.1 }

theorem parameters_unquote_iff {query : List Char} :
    parameters ((unquote query).takeWhile (· != '#')) = parameters query ↔ StableQuery query := by
  refine ⟨StableQuery.of_parameters, ?_⟩
  intro h
  rw [takeWhile_piece h.fragment]
  exact h.parameters

/-! ## Path and query -/

/-- The query of a decoded text whose decoded path has no delimiters. -/
theorem queryOf_unquote {x : List Char} (h : StablePath (pathOf x)) :
    queryOf (unquote x) = (unquote (queryOf x)).takeWhile (· != '#') := by
  have hcut : (unquote x).takeWhile (· != '#') =
      (unquote (x.takeWhile (· != '#'))).takeWhile (· != '#') := by
    refine takeWhile_unquote ?_ x
    intro c hc
    have he : c = '#' := by simpa using hc
    exact he ▸ literal_hash
  unfold queryOf
  rw [hcut]
  rw [pathOf_eq] at h
  generalize x.takeWhile (· != '#') = y at h ⊢
  by_cases hy : '?' ∈ y
  · obtain ⟨path, query, rfl, hmem⟩ := List.eq_append_cons_of_mem hy
    rw [takeWhile_cons_piece hmem] at h
    rw [unquote_append literal_question, dropWhile_cons_piece hmem,
      List.takeWhile_append_of_pos (bne_of_not_mem h.fragment),
      List.takeWhile_cons_of_pos (by decide), dropWhile_cons_piece h.query]
    rfl
  · rw [takeWhile_piece hy] at h
    rw [takeWhile_piece h.fragment, dropWhile_piece h.query, dropWhile_piece hy]
    rfl

theorem denotes_unquote_iff {x : List Char} : denotes (unquote x) = denotes x ↔
    StablePath (pathOf x) ∧ StableQuery (queryOf x) := by
  unfold denotes
  rw [Prod.mk.injEq, segments_unquote_iff]
  refine and_congr_right fun hpath => ?_
  rw [queryOf_unquote hpath, parameters_unquote_iff]

end TemisLab.Lib.Redecode
