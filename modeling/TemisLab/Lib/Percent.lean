/-
  Percent-encoding as Python's `urllib.parse` has it: `unquote`, `quote` and `parse_qsl`, on the
  characters of a text.

  `octets` are the octets a text stands for: those of its escapes, and the UTF-8 of every other
  character. A character that is neither a percent sign nor a hexadecimal digit (`Literal`) ends
  what stands before it, so the text is decoded piece by piece.

  * `unquote_append`: decoding goes through a literal character.
  * `unquote_eq_or_shorter`: decoding leaves a text, or makes it shorter.
  * `unquote_quote`: quoting that leaves percent signs leaves what the text stands for.
-/
import TemisLab.Lib.Utf8

namespace TemisLab.Lib.Percent

open TemisLab.Lib.Utf8

/-! ## Decoding -/

def hexDigit (c : Char) : Option ℕ :=
  if '0' ≤ c ∧ c ≤ '9' then some (c.toNat - '0'.toNat)
  else if 'A' ≤ c ∧ c ≤ 'F' then some (c.toNat - 'A'.toNat + 10)
  else if 'a' ≤ c ∧ c ≤ 'f' then some (c.toNat - 'a'.toNat + 10)
  else none

/-- The octet of the escape whose percent sign stands before the text. -/
def escape : List Char → Option ℕ
  | h :: l :: _ => (hexDigit h).bind fun a => (hexDigit l).map fun b => 16 * a + b
  | _ => none

/-- `unquote_to_bytes`. -/
def octets : List Char → List ℕ
  | [] => []
  | '%' :: h :: l :: cs =>
      match escape [h, l] with
      | some b => b :: octets cs
      | none => 0x25 :: octets (h :: l :: cs)
  | c :: cs => encodeChar c ++ octets cs

/-- `unquote`. -/
def unquote (cs : List Char) : List Char := decodeReplace (octets cs)

/-- `string.replace('+', ' ')`. -/
def spaces (cs : List Char) : List Char := cs.map fun c => if c = '+' then ' ' else c

/-- `unquote_plus`. -/
def unquotePlus (cs : List Char) : List Char := unquote (spaces cs)

/-- The character is no part of an escape. -/
def Literal (c : Char) : Prop := c ≠ '%' ∧ hexDigit c = none

instance (c : Char) : Decidable (Literal c) :=
  inferInstanceAs (Decidable (c ≠ '%' ∧ hexDigit c = none))

/-! ## Encoding -/

/-- A digit of `'{:02X}'`. -/
def hexChar (n : ℕ) : Char := if n < 10 then Char.ofNat (48 + n) else Char.ofNat (55 + n)

def escapeOf (b : ℕ) : List Char := ['%', hexChar (b / 16), hexChar (b % 16)]

/-- `_ALWAYS_SAFE`. -/
def alwaysSafe (c : Char) : Bool :=
  ('A' ≤ c ∧ c ≤ 'Z') ∨ ('a' ≤ c ∧ c ≤ 'z') ∨ ('0' ≤ c ∧ c ≤ '9') ∨ c ∈ "_.-~".toList

/-- A character `quote` leaves. -/
def Kept (safe : List Char) (c : Char) : Prop := alwaysSafe c = true ∨ (c ∈ safe ∧ c.toNat < 0x80)

instance (safe : List Char) (c : Char) : Decidable (Kept safe c) :=
  inferInstanceAs (Decidable (alwaysSafe c = true ∨ (c ∈ safe ∧ c.toNat < 0x80)))

def quoteChar (safe : List Char) (c : Char) : List Char :=
  if Kept safe c then [c] else (encodeChar c).flatMap escapeOf

/-- `quote`. -/
def quote (safe cs : List Char) : List Char := cs.flatMap (quoteChar safe)

/-! ## Queries -/

/-- What stands before the first `=` of a piece of a query. -/
def fieldName (piece : List Char) : List Char := piece.takeWhile (· != '=')

/-- What stands behind it, or nothing. -/
def fieldValue (piece : List Char) : List Char := (piece.dropWhile (· != '=')).drop 1

def field (piece : List Char) : List Char × List Char :=
  (unquotePlus (fieldName piece), unquotePlus (fieldValue piece))

/-- `parse_qsl`; `none` is the `ValueError` of a piece without `=`. -/
def parseQsl (keepBlankValues strictParsing : Bool) (qs : List Char) :
    Option (List (List Char × List Char)) :=
  let pieces := if qs = [] then [] else qs.splitOn '&'
  if strictParsing ∧ ∃ piece ∈ pieces, '=' ∉ piece then none
  else
    some (((pieces.filter fun piece => strictParsing || piece ≠ []).filter fun piece =>
      keepBlankValues || fieldValue piece ≠ []).map field)

/-! ## Laws of decoding -/

theorem escape_append {c : Char} (hc : Literal c) (as bs : List Char) :
    escape (as ++ c :: bs) = escape as := by
  match as with
  | [] => cases bs <;> simp [escape, hc.2]
  | [a] => simp [escape, hc.2]
  | a :: a' :: as => rfl

theorem octets_escape {h l : Char} {b : ℕ} (hb : escape [h, l] = some b) (cs : List Char) :
    octets ('%' :: h :: l :: cs) = b :: octets cs := by
  simp only [octets, hb]

theorem octets_plain {c : Char} {cs : List Char} (hc : c = '%' → escape cs = none) :
    octets (c :: cs) = encodeChar c ++ octets cs := by
  by_cases hp : c = '%'
  · subst hp
    have hnone := hc rfl
    match cs with
    | [] => rfl
    | [h] => rfl
    | h :: l :: cs =>
        have hpair : escape [h, l] = none := hnone
        simp only [octets, hpair]
        rfl
  · rw [octets]
    rintro h l cs' rfl
    exact absurd rfl hp

/-- Induction along `octets`: an escape is read at once. -/
theorem escape_induction {motive : List Char → Prop} (nil : motive [])
    (escaped : ∀ h l b cs, escape [h, l] = some b → motive cs → motive ('%' :: h :: l :: cs))
    (plain : ∀ c cs, (c = '%' → escape cs = none) → motive cs → motive (c :: cs))
    (cs : List Char) : motive cs := by
  induction cs using octets.induct with
  | case1 => exact nil
  | case2 h l cs b hb ih => exact escaped h l b cs hb ih
  | case3 h l cs hb ih => exact plain '%' (h :: l :: cs) (fun _ => hb) ih
  | case4 c cs hno ih =>
      refine plain c cs ?_ ih
      intro hc
      match cs with
      | [] => rfl
      | [h] => rfl
      | h :: l :: cs => exact (hno h l cs hc rfl).elim

theorem octets_append {c : Char} (hc : Literal c) (as bs : List Char) :
    octets (as ++ c :: bs) = octets as ++ (encodeChar c ++ octets bs) := by
  induction as using escape_induction with
  | nil => exact octets_plain fun h => absurd h hc.1
  | escaped h l b as hb ih =>
      rw [List.cons_append, List.cons_append, List.cons_append, octets_escape hb,
        octets_escape hb, ih]
      rfl
  | plain a as ha ih =>
      have ha' : a = '%' → escape (as ++ c :: bs) = none := by
        intro h
        rw [escape_append hc, ha h]
      rw [List.cons_append, octets_plain ha', octets_plain ha, ih, List.append_assoc]

@[simp] theorem unquote_nil : unquote [] = [] := rfl

theorem unquote_append {c : Char} (hc : Literal c) (as bs : List Char) :
    unquote (as ++ c :: bs) = unquote as ++ c :: unquote bs := by
  unfold unquote decodeReplace decode
  rw [octets_append hc, decode_encodeChar open_none, List.map_append, List.map_cons]
  rfl

theorem octets_eq_nil {cs : List Char} : octets cs = [] ↔ cs = [] := by
  refine ⟨?_, fun h => by rw [h]; rfl⟩
  intro h
  induction cs using escape_induction with
  | nil => rfl
  | escaped h' l b cs hb =>
      rw [octets_escape hb] at h
      cases h
  | plain c cs hc =>
      rw [octets_plain hc] at h
      exact absurd (List.append_eq_nil_iff.mp h).1 (encodeChar_ne_nil c)

theorem unquote_eq_nil {cs : List Char} : unquote cs = [] ↔ cs = [] := by
  unfold unquote decodeReplace decode
  rw [List.map_eq_nil_iff, decodeFrom_eq_nil, octets_eq_nil]
  exact and_iff_right rfl

/-- The characters of a text, with a sequence that is open before it. -/
theorem length_decode_octets_le {pending : Option Pending} (h : Open pending) (cs : List Char) :
    (decodeFrom pending (octets cs)).length ≤ (cut pending).length + cs.length := by
  induction cs using escape_induction generalizing pending with
  | nil => exact le_refl _
  | escaped h' l b cs hb ih =>
      have hoctet := length_octet_le pending b
      have hrest := ih (open_octet pending b)
      rw [octets_escape hb]
      simp only [decodeFrom, List.length_append, List.length_cons] at hrest ⊢
      omega
  | plain c cs hc ih =>
      have hrest := ih open_none
      rw [octets_plain hc, decodeFrom_encodeChar h]
      simp only [List.length_append, List.length_cons, cut, Option.isSome_none] at hrest ⊢
      simp only [Bool.false_eq_true, if_false, List.length_nil] at hrest
      omega

/-- A text without escapes stands for its UTF-8; an escape makes it shorter. -/
theorem octets_eq_or_shorter (cs : List Char) : octets cs = encode cs ∨
    ∀ pending, Open pending →
      (decodeFrom pending (octets cs)).length < (cut pending).length + cs.length := by
  induction cs using escape_induction with
  | nil => exact .inl rfl
  | escaped h' l b cs hb ih =>
      refine .inr fun pending _ => ?_
      have hoctet := length_octet_le pending b
      have hrest := length_decode_octets_le (open_octet pending b) cs
      rw [octets_escape hb]
      simp only [decodeFrom, List.length_append, List.length_cons] at hrest ⊢
      omega
  | plain c cs hc ih =>
      rw [octets_plain hc]
      rcases ih with ih | ih
      · exact .inl (by rw [ih]; rfl)
      · refine .inr fun pending hp => ?_
        have hrest := ih none open_none
        rw [decodeFrom_encodeChar hp]
        simp only [List.length_append, List.length_cons, cut, Option.isSome_none] at hrest ⊢
        simp only [Bool.false_eq_true, if_false, List.length_nil] at hrest
        omega

theorem unquote_eq_or_shorter (cs : List Char) :
    unquote cs = cs ∨ (unquote cs).length < cs.length := by
  unfold unquote
  rcases octets_eq_or_shorter cs with h | h
  · refine .inl ?_
    rw [h, decodeReplace_encode]
  · refine .inr ?_
    have hlt := h none open_none
    simpa [decodeReplace, decode, cut] using hlt

/-! ## Quoting -/

theorem hexDigit_hexChar {n : ℕ} (h : n < 16) : hexDigit (hexChar n) = some n := by
  interval_cases n <;> rfl

theorem octets_escapeOf {b : ℕ} (hb : b < 256) (cs : List Char) :
    octets (escapeOf b ++ cs) = b :: octets cs := by
  have hesc : escape [hexChar (b / 16), hexChar (b % 16)] = some b := by
    have hhigh : b / 16 < 16 := by omega
    have hlow : b % 16 < 16 := by omega
    simp only [escape, hexDigit_hexChar hhigh, hexDigit_hexChar hlow, Option.bind_some,
      Option.map_some, Option.some.injEq]
    omega
  exact octets_escape hesc cs

theorem octets_escapes {bs : List ℕ} (hbs : ∀ b ∈ bs, b < 256) (cs : List Char) :
    octets (bs.flatMap escapeOf ++ cs) = bs ++ octets cs := by
  induction bs with
  | nil => rfl
  | cons b bs ih =>
      rw [List.flatMap_cons, List.append_assoc, octets_escapeOf (hbs b List.mem_cons_self),
        ih fun b' hb' => hbs b' (List.mem_cons_of_mem _ hb')]
      rfl

theorem kept_of_hexDigit {safe : List Char} {c : Char} {a : ℕ} (h : hexDigit c = some a) :
    Kept safe c := by
  refine .inl ?_
  unfold hexDigit at h
  unfold alwaysSafe
  have hF : 'F' ≤ 'Z' := by decide
  have hf : 'f' ≤ 'z' := by decide
  split at h
  · next hc => simp [hc]
  · split at h
    · next hc => simp [hc.1, Char.le_trans hc.2 hF]
    · split at h
      · next hc => simp [hc.1, Char.le_trans hc.2 hf]
      · cases h

theorem quoteChar_kept {safe : List Char} {c : Char} (h : Kept safe c) : quoteChar safe c = [c] :=
  if_pos h

/-- What a character is quoted to begins with itself or with a percent sign. -/
theorem quoteChar_eq_cons (safe : List Char) (c : Char) :
    ∃ d rest, quoteChar safe c = d :: rest ∧ (d = c ∨ d = '%') := by
  unfold quoteChar
  split
  · exact ⟨c, [], rfl, .inl rfl⟩
  · obtain ⟨b, bs, hb⟩ := List.exists_cons_of_ne_nil (encodeChar_ne_nil c)
    exact ⟨'%', _, by rw [hb]; rfl, .inr rfl⟩

@[simp] theorem quote_nil (safe : List Char) : quote safe [] = [] := rfl

theorem quote_cons (safe : List Char) (c : Char) (cs : List Char) :
    quote safe (c :: cs) = quoteChar safe c ++ quote safe cs := List.flatMap_cons

theorem quote_append (safe as bs : List Char) :
    quote safe (as ++ bs) = quote safe as ++ quote safe bs := List.flatMap_append

theorem quote_cons_kept {safe : List Char} {c : Char} (h : Kept safe c) (cs : List Char) :
    quote safe (c :: cs) = c :: quote safe cs := by
  rw [quote_cons, quoteChar_kept h]
  rfl

theorem hexDigit_percent : hexDigit '%' = none := by decide

/-- Quoting begins with no hexadecimal digit where the text does not. -/
theorem quote_head (safe : List Char) {c : Char} (hc : hexDigit c = none) (cs : List Char) :
    ∃ d rest, quote safe (c :: cs) = d :: rest ∧ hexDigit d = none := by
  obtain ⟨d, rest, hq, hd⟩ := quoteChar_eq_cons safe c
  refine ⟨d, rest ++ quote safe cs, by rw [quote_cons, hq]; rfl, ?_⟩
  rcases hd with rfl | rfl
  · exact hc
  · exact hexDigit_percent

theorem escape_of_head {d : Char} (hd : hexDigit d = none) (cs : List Char) :
    escape (d :: cs) = none := by
  cases cs <;> simp [escape, hd]

theorem escape_of_second {h d : Char} (hd : hexDigit d = none) (cs : List Char) :
    escape (h :: d :: cs) = none := by
  simp [escape, hd]

/-- Quoting makes no escape out of a percent sign, and takes none away. -/
theorem escape_quote (safe cs : List Char) : escape (quote safe cs) = escape cs := by
  match cs with
  | [] => rfl
  | h :: cs =>
      cases hh : hexDigit h with
      | none =>
          obtain ⟨d, rest, hq, hd⟩ := quote_head safe hh cs
          rw [hq, escape_of_head hd, escape_of_head hh]
      | some a =>
          rw [quote_cons_kept (kept_of_hexDigit hh)]
          match cs with
          | [] => rfl
          | l :: cs =>
              cases hl : hexDigit l with
              | none =>
                  obtain ⟨d, rest, hq, hd⟩ := quote_head safe hl cs
                  rw [hq, escape_of_second hd, escape_of_second hl]
              | some b =>
                  rw [quote_cons_kept (kept_of_hexDigit hl)]
                  rfl

theorem octets_quote {safe : List Char} (hsafe : '%' ∈ safe) (cs : List Char) :
    octets (quote safe cs) = octets cs := by
  have hpercent : Kept safe '%' := .inr ⟨hsafe, by decide⟩
  induction cs using escape_induction with
  | nil => rfl
  | escaped h l b cs hb ih =>
      have hdigits : (∃ a, hexDigit h = some a) ∧ ∃ a, hexDigit l = some a := by
        simp only [escape, Option.bind_eq_some_iff, Option.map_eq_some_iff] at hb
        obtain ⟨a, ha, a', ha', -⟩ := hb
        exact ⟨⟨a, ha⟩, a', ha'⟩
      obtain ⟨⟨a, ha⟩, a', ha'⟩ := hdigits
      rw [quote_cons_kept hpercent, quote_cons_kept (kept_of_hexDigit ha),
        quote_cons_kept (kept_of_hexDigit ha'), octets_escape hb, octets_escape hb, ih]
  | plain c cs hc ih =>
      by_cases hk : Kept safe c
      · have hc' : c = '%' → escape (quote safe cs) = none := fun h => by rw [escape_quote, hc h]
        rw [quote_cons_kept hk, octets_plain hc', octets_plain hc, ih]
      · rw [quote_cons, quoteChar, if_neg hk, octets_escapes fun b hb => encodeChar_lt hb,
          octets_plain hc, ih]

theorem unquote_quote {safe : List Char} (hsafe : '%' ∈ safe) (cs : List Char) :
    unquote (quote safe cs) = unquote cs := by
  rw [unquote, octets_quote hsafe, unquote]

end TemisLab.Lib.Percent
