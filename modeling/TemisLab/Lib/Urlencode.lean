/-
  `urllib.parse.urlencode`, and what `parse_qsl` reads of its result. A name or a value is quoted
  character by character: a space becomes a plus sign, a character that is not always safe becomes
  the escapes of its octets. So neither delimiter is left in one, and decoding gives it back.

  `parseQsl_urlencode`: the pairs come back, without the blank values where those are not kept.
-/
import TemisLab.Lib.PathQuery

namespace TemisLab.Lib.Percent

open TemisLab.Lib.Utf8 TemisLab.Lib.PathQuery

/-- `quote_plus`. -/
def quotePlus (cs : List Char) : List Char :=
  if ' ' ∈ cs then (quote [' '] cs).map fun c => if c = ' ' then '+' else c else quote [] cs

/-- `urlencode` of a `dict`. -/
def urlencode (fields : List (List Char × List Char)) : List Char :=
  ['&'].intercalate (fields.map fun f => quotePlus f.1 ++ '=' :: quotePlus f.2)

/-! ## A name or a value -/

/-- What `quote_plus` makes of a character. -/
def plusChar (c : Char) : List Char := if c = ' ' then ['+'] else quoteChar [] c

theorem not_mem_escapes {c : Char} (hc : Literal c) (a : Char) :
    c ∉ (encodeChar a).flatMap escapeOf := by
  intro h
  obtain ⟨b, hb, hcb⟩ := List.mem_flatMap.mp h
  exact not_mem_escapeOf hc (encodeChar_lt hb) hcb

theorem quotePlus_eq (cs : List Char) : quotePlus cs = cs.flatMap plusChar := by
  unfold quotePlus quote
  split
  · rw [List.map_flatMap]
    refine List.flatMap_congr fun c _ => ?_
    unfold plusChar
    split
    · next hc =>
        subst hc
        decide
    · next hc =>
        have hkept : Kept [' '] c ↔ Kept [] c := by simp [Kept, hc]
        unfold quoteChar
        simp only [hkept]
        split
        · simp [hc]
        · have hsame : ∀ a ∈ (encodeChar c).flatMap escapeOf, (if a = ' ' then '+' else a) = a := by
            intro a ha
            refine if_neg ?_
            rintro rfl
            exact not_mem_escapes literal_space c ha
          rw [List.map_congr_left hsame, List.map_id']
  · next hspace =>
      refine List.flatMap_congr fun c hc => (if_neg ?_).symm
      rintro rfl
      exact hspace hc

theorem quotePlus_cons (c : Char) (cs : List Char) :
    quotePlus (c :: cs) = plusChar c ++ quotePlus cs := by
  rw [quotePlus_eq, quotePlus_eq, List.flatMap_cons]

/-- A character that quoting neither leaves nor makes. -/
structure Delimits (c : Char) : Prop where
  literal : Literal c
  replaced : ¬ Kept [] c
  plus : c ≠ '+'

instance (c : Char) : Decidable (Delimits c) :=
  decidable_of_iff (Literal c ∧ ¬ Kept [] c ∧ c ≠ '+')
    ⟨fun ⟨h, h', h''⟩ => ⟨h, h', h''⟩, fun h => ⟨h.literal, h.replaced, h.plus⟩⟩

theorem not_mem_quotePlus {c : Char} (hc : Delimits c) (cs : List Char) : c ∉ quotePlus cs := by
  rw [quotePlus_eq]
  intro h
  obtain ⟨a, -, ha⟩ := List.mem_flatMap.mp h
  unfold plusChar quoteChar at ha
  split at ha
  · exact hc.plus (List.mem_singleton.mp ha)
  · split at ha
    · next hkept =>
        rw [← List.mem_singleton.mp ha] at hkept
        exact hc.replaced hkept
    · exact not_mem_escapes hc.literal a ha

theorem delimits_ampersand : Delimits '&' := by decide

theorem delimits_equals : Delimits '=' := by decide

theorem octets_spaces_plusChar (c : Char) (cs : List Char) :
    octets (spaces (plusChar c) ++ cs) = encodeChar c ++ octets cs := by
  unfold plusChar
  split
  · next hc =>
      subst hc
      exact octets_plain (c := ' ') fun h => absurd h (by decide)
  · unfold quoteChar
    split
    · next hkept =>
        have hplus : c ≠ '+' := by
          rintro rfl
          exact absurd hkept (by decide)
        have hpercent : c ≠ '%' := by
          rintro rfl
          exact absurd hkept (by decide)
        have hspaces : spaces [c] = [c] := spaces_eq_self.mpr (by simp [Ne.symm hplus])
        rw [hspaces]
        exact octets_plain fun h => absurd h hpercent
    · rw [spaces_eq_self.mpr (not_mem_escapes literal_plus c)]
      exact octets_escapes (fun b hb => encodeChar_lt hb) cs

theorem octets_spaces_quotePlus (cs : List Char) : octets (spaces (quotePlus cs)) = encode cs := by
  induction cs with
  | nil => rfl
  | cons c cs ih =>
      have happend : spaces (plusChar c ++ quotePlus cs) =
          spaces (plusChar c) ++ spaces (quotePlus cs) := List.map_append
      rw [quotePlus_cons, happend, octets_spaces_plusChar, ih]
      rfl

theorem unquotePlus_quotePlus (cs : List Char) : unquotePlus (quotePlus cs) = cs := by
  unfold unquotePlus unquote
  rw [octets_spaces_quotePlus, decodeReplace_encode]

/-! ## Pairs -/

/-- A pair as it is written. -/
def fieldText (f : List Char × List Char) : List Char := quotePlus f.1 ++ '=' :: quotePlus f.2

theorem not_mem_fieldText {c : Char} (hc : Delimits c) (hne : c ≠ '=')
    (f : List Char × List Char) : c ∉ fieldText f := by
  unfold fieldText
  rw [List.mem_append, List.mem_cons]
  rintro (h | h | h)
  · exact not_mem_quotePlus hc _ h
  · exact hne h
  · exact not_mem_quotePlus hc _ h

theorem field_fieldText (f : List Char × List Char) : field (fieldText f) = f := by
  have hname : fieldName (fieldText f) = quotePlus f.1 :=
    takeWhile_cons_piece (not_mem_quotePlus delimits_equals _) _
  have hvalue : fieldValue (fieldText f) = quotePlus f.2 := by
    unfold fieldValue fieldText
    rw [dropWhile_cons_piece (not_mem_quotePlus delimits_equals _)]
    rfl
  rw [field, hname, hvalue, unquotePlus_quotePlus, unquotePlus_quotePlus]

theorem quotePlus_eq_nil {cs : List Char} : quotePlus cs = [] ↔ cs = [] := by
  refine ⟨?_, fun h => by rw [h]; rfl⟩
  intro h
  have hback := unquotePlus_quotePlus cs
  rw [h] at hback
  exact hback.symm

theorem fieldValue_fieldText (f : List Char × List Char) :
    fieldValue (fieldText f) ≠ [] ↔ f.2 ≠ [] := by
  have hvalue : fieldValue (fieldText f) = quotePlus f.2 := by
    unfold fieldValue fieldText
    rw [dropWhile_cons_piece (not_mem_quotePlus delimits_equals _)]
    rfl
  rw [hvalue, Ne, quotePlus_eq_nil]

theorem urlencode_eq (fields : List (List Char × List Char)) :
    urlencode fields = ['&'].intercalate (fields.map fieldText) := rfl

theorem not_mem_urlencode {c : Char} (hc : Delimits c) (hequals : c ≠ '=') (hampersand : c ≠ '&')
    (fields : List (List Char × List Char)) : c ∉ urlencode fields := by
  rw [urlencode_eq]
  induction fields with
  | nil => exact List.not_mem_nil
  | cons f fields ih =>
      have hf := not_mem_fieldText hc hequals f
      cases fields with
      | nil => simpa using hf
      | cons f' fields =>
          rw [List.map_cons, List.map_cons, List.intercalate_cons_cons, List.mem_append,
            List.mem_append, List.mem_singleton]
          rintro ((h | h) | h)
          · exact hf h
          · exact hampersand h
          · exact ih h

/-- The pieces of the text are the pairs, each by itself. -/
theorem splitOn_urlencode {fields : List (List Char × List Char)} (h : fields ≠ []) :
    (urlencode fields).splitOn '&' = fields.map fieldText := by
  rw [urlencode_eq]
  refine List.splitOn_intercalate '&' ?_ (by simpa using h)
  intro piece hpiece
  obtain ⟨f, -, rfl⟩ := List.mem_map.mp hpiece
  exact not_mem_fieldText delimits_ampersand (by decide) f

theorem urlencode_eq_nil {fields : List (List Char × List Char)} :
    urlencode fields = [] ↔ fields = [] := by
  refine ⟨?_, fun h => by rw [h]; rfl⟩
  intro h
  by_contra hne
  have hsplit := splitOn_urlencode hne
  rw [h] at hsplit
  cases fields with
  | nil => exact hne rfl
  | cons f rest =>
      rw [List.splitOn_nil, List.map_cons, List.cons.injEq] at hsplit
      have hmem : '=' ∈ fieldText f := List.mem_append_right _ List.mem_cons_self
      rw [← hsplit.1] at hmem
      cases hmem

/-- `parse_qsl` of an encoded list of pairs. -/
theorem parseQsl_urlencode (keepBlankValues strictParsing : Bool)
    (fields : List (List Char × List Char)) :
    parseQsl keepBlankValues strictParsing (urlencode fields) =
      some (fields.filter fun f => keepBlankValues || f.2 ≠ []) := by
  have hequals : ∀ piece ∈ fields.map fieldText, '=' ∈ piece := by
    intro piece hpiece
    obtain ⟨f, -, rfl⟩ := List.mem_map.mp hpiece
    exact List.mem_append_right _ List.mem_cons_self
  have hpieces : (if urlencode fields = [] then [] else (urlencode fields).splitOn '&') =
      fields.map fieldText := by
    by_cases hfields : fields = []
    · rw [if_pos (urlencode_eq_nil.mpr hfields), hfields]
      rfl
    · rw [if_neg fun h => hfields (urlencode_eq_nil.mp h), splitOn_urlencode hfields]
  have hnone : ¬ (strictParsing = true ∧ ∃ piece ∈ fields.map fieldText, '=' ∉ piece) := by
    rintro ⟨-, piece, hpiece, hmissing⟩
    exact hmissing (hequals piece hpiece)
  have hfull : (fields.map fieldText).filter (fun piece => strictParsing || piece ≠ []) =
      fields.map fieldText := by
    refine List.filter_eq_self.mpr fun piece hpiece => ?_
    have hne : piece ≠ [] := List.ne_nil_of_mem (hequals piece hpiece)
    simp [hne]
  unfold parseQsl
  simp only [hpieces]
  rw [if_neg hnone, hfull, List.filter_map, List.map_map]
  congr 1
  have hid : (field ∘ fieldText) = id := funext field_fieldText
  rw [hid, List.map_id]
  refine List.filter_congr fun f _ => ?_
  simp only [Function.comp_apply, fieldValue_fieldText]

end TemisLab.Lib.Percent
