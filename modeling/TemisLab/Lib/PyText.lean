/-
  Python's text functions that the services rely on: `str.strip`, `str.split` without an
  argument, `" ".join`, `in`, and `int` of decimal digits. Blank characters are those of
  `str.isspace`.
-/
import Mathlib.Data.List.Infix

namespace TemisLab.Lib.PyText

/-- The characters `str.isspace` accepts. -/
def isSpace (c : Char) : Bool :=
  let n := c.toNat
  (9 ≤ n && n ≤ 13) || (28 ≤ n && n ≤ 32) || n = 0x85 || n = 0xA0 || n = 0x1680 ||
    (0x2000 ≤ n && n ≤ 0x200A) || n = 0x2028 || n = 0x2029 || n = 0x202F || n = 0x205F ||
    n = 0x3000

/-- `str.strip()`: without the blanks at both ends. -/
def strip (s : String) : String :=
  String.ofList (((s.toList.dropWhile isSpace).reverse.dropWhile isSpace).reverse)

/-- The maximal blank-free runs of a text. -/
def words : List Char → List (List Char)
  | [] => []
  | c :: cs =>
      if isSpace c then words cs
      else match cs, words cs with
        | [], _ => [[c]]
        | d :: _, ws =>
            if isSpace d then [c] :: ws
            else match ws with
              | [] => [[c]]
              | w :: ws => (c :: w) :: ws

/-- `str.split()`. -/
def split (s : String) : List String := (words s.toList).map String.ofList

/-- `sep.join(parts)`. -/
def join (sep : String) : List String → String
  | [] => ""
  | [a] => a
  | a :: b :: rest => a ++ sep ++ join sep (b :: rest)

/-- A text that `split` leaves whole. -/
def Word (w : String) : Prop := w ≠ "" ∧ w.toList.all (fun c => !isSpace c) = true

instance (w : String) : Decidable (Word w) :=
  inferInstanceAs (Decidable (w ≠ "" ∧ w.toList.all (fun c => !isSpace c) = true))

theorem words_nil : words [] = [] := rfl

theorem words_blank {c : Char} (h : isSpace c = true) (cs : List Char) :
    words (c :: cs) = words cs := by
  conv_lhs => rw [words.eq_def]
  exact if_pos h

/-- A character before a word makes it longer. -/
theorem words_cons {c d : Char} {cs w : List Char} {ws : List (List Char)}
    (hc : isSpace c = false) (hd : isSpace d = false) (h : words (d :: cs) = w :: ws) :
    words (c :: d :: cs) = (c :: w) :: ws := by
  rw [words.eq_def]
  simp [hc, hd, h]

/-- A run of blank-free characters up to a blank is one word. -/
theorem words_append {w rest : List Char} (hne : w ≠ []) (hword : ∀ c ∈ w, isSpace c = false)
    (hrest : ∀ c ∈ rest.head?, isSpace c = true) : words (w ++ rest) = w :: words rest := by
  induction w with
  | nil => exact absurd rfl hne
  | cons c w ih =>
      have hc : isSpace c = false := hword c List.mem_cons_self
      have hothers : ∀ d ∈ w, isSpace d = false := fun d hd => hword d (List.mem_cons_of_mem c hd)
      cases w with
      | nil =>
          cases rest with
          | nil =>
              rw [List.append_nil, words.eq_def]
              simp [hc, words_nil]
          | cons d rest =>
              have hd : isSpace d = true := hrest d rfl
              rw [List.singleton_append, words.eq_def]
              simp [hc, hd]
      | cons d w =>
          exact words_cons hc (hothers d List.mem_cons_self) (ih (List.cons_ne_nil d w) hothers)

/-- Words that are joined by a space are split again. -/
theorem split_join {ws : List String} (h : ∀ w ∈ ws, Word w) : split (join " " ws) = ws := by
  induction ws with
  | nil => rfl
  | cons w ws ih =>
      obtain ⟨hne, hword⟩ := h w List.mem_cons_self
      have hchars : ∀ c ∈ w.toList, isSpace c = false := fun c hc => by
        simpa using List.all_eq_true.mp hword c hc
      have hnil : w.toList ≠ [] := fun hnil => hne (String.toList_eq_nil_iff.mp hnil)
      have hrest := ih fun v hv => h v (List.mem_cons_of_mem w hv)
      cases ws with
      | nil =>
          have hwords : words (w.toList ++ []) = w.toList :: words [] :=
            words_append hnil hchars nofun
          rw [List.append_nil] at hwords
          show (words w.toList).map String.ofList = [w]
          rw [hwords, words_nil, List.map_singleton, String.ofList_toList]
      | cons v ws =>
          have hwords : words (w.toList ++ ' ' :: (join " " (v :: ws)).toList) =
              w.toList :: words (' ' :: (join " " (v :: ws)).toList) :=
            words_append hnil hchars fun c hc => by
              cases hc
              rfl
          have hjoin : (join " " (w :: v :: ws)).toList =
              w.toList ++ ' ' :: (join " " (v :: ws)).toList := by
            simp [join]
          unfold split at hrest ⊢
          rw [hjoin, hwords, words_blank rfl, List.map_cons, hrest, String.ofList_toList]

/-- `sub in s`. -/
def contains (sub s : String) : Bool := s.toList.tails.any fun t => sub.toList.isPrefixOf t

theorem mem_of_contains {sub s : String} (h : contains sub s = true) {c : Char}
    (hc : c ∈ sub.toList) : c ∈ s.toList := by
  obtain ⟨t, ht, hsub⟩ := List.any_eq_true.mp h
  have hstart : sub.toList <+: t := List.isPrefixOf_iff_prefix.mp hsub
  have hend : t <:+ s.toList := (List.mem_tails t s.toList).mp ht
  exact hend.subset (hstart.subset hc)

/-- The zeros of the decimal digits of Unicode (category Nd); the nine others follow each. -/
def zeros : List ℕ :=
  [0x30, 0x660, 0x6F0, 0x7C0, 0x966, 0x9E6, 0xA66, 0xAE6, 0xB66, 0xBE6, 0xC66, 0xCE6, 0xD66, 0xDE6,
    0xE50, 0xED0, 0xF20, 0x1040, 0x1090, 0x17E0, 0x1810, 0x1946, 0x19D0, 0x1A80, 0x1A90, 0x1B50,
    0x1BB0, 0x1C40, 0x1C50, 0xA620, 0xA8D0, 0xA900, 0xA9D0, 0xA9F0, 0xAA50, 0xABF0, 0xFF10,
    0x104A0, 0x10D30, 0x11066, 0x110F0, 0x11136, 0x111D0, 0x112F0, 0x11450, 0x114D0, 0x11650,
    0x116C0, 0x11730, 0x118E0, 0x11950, 0x11C50, 0x11D50, 0x11DA0, 0x11F50, 0x16A60, 0x16AC0,
    0x16B50, 0x1D7CE, 0x1D7D8, 0x1D7E2, 0x1D7EC, 0x1D7F6, 0x1E140, 0x1E2F0, 0x1E4F0, 0x1E950,
    0x1FBF0]

/-- The value of a character that `\d` matches. -/
def decimal (c : Char) : Option ℕ :=
  (zeros.find? fun base => base ≤ c.toNat && c.toNat < base + 10).map (c.toNat - ·)

/-- The most digits that `int` takes of a text. -/
def maxStrDigits : ℕ := 4300

/-- `int(text)` of the digits of a text; over the limit it is a `ValueError`. -/
def int (digits : List Char) : Option ℕ :=
  if digits.length ≤ maxStrDigits then
    some ((digits.filterMap decimal).foldl (fun n d => 10 * n + d) 0)
  else none

end TemisLab.Lib.PyText
