/-
  The texts of JSON values: Python's `json.dumps` and `json.loads`, on the characters of a text.
  `Style` holds the two settings of `dumps` that differ between writers: `ensure_ascii` and the
  blanks of the separators.

  A text is read token by token: one character of a string literal (`scanChar`), a string, a
  number, a value. The readers of strings, arrays and objects go on with the text that is left, so
  they are bounded by a number of rounds; `loads` gives them two for each character.

  * `loads_dumps`: what `dumps` writes of a value, `loads` reads back, in every style;
  * `loads_ends`: the rounds are enough for every text.
-/
import TemisLab.Lib.Json
import TemisLab.Lib.Percent

namespace TemisLab.Lib.JsonText

open TemisLab.Lib

/-! ## Writing -/

/-- How `dumps` writes. -/
structure Style where
  /-- `ensure_ascii`. -/
  ascii : Bool
  /-- A blank follows each separator. -/
  spaced : Bool
  deriving DecidableEq, Repr

/-- The defaults of `dumps`. -/
def Style.default : Style := ⟨true, true⟩

/-- `'\\u{0:04x}'`. -/
def unicodeEscape (n : ℕ) : List Char :=
  ['\\', 'u', (n / 4096).digitChar, (n / 256 % 16).digitChar, (n / 16 % 16).digitChar,
    (n % 16).digitChar]

/-- One character of a string literal. -/
def escapeChar (ascii : Bool) (c : Char) : List Char :=
  if c = '"' then ['\\', '"']
  else if c = '\\' then ['\\', '\\']
  else if c = '\n' then ['\\', 'n']
  else if c = '\r' then ['\\', 'r']
  else if c = '\t' then ['\\', 't']
  else if c = '\x0c' then ['\\', 'f']
  else if c = '\x08' then ['\\', 'b']
  else if 0x20 ≤ c.toNat ∧ (c.toNat < 0x7f ∨ ascii = false) then [c]
  else if c.toNat < 0x10000 then unicodeEscape c.toNat
  else
    -- the two halves of a surrogate pair
    unicodeEscape (0xD800 + (c.toNat - 0x10000) / 0x400) ++
      unicodeEscape (0xDC00 + (c.toNat - 0x10000) % 0x400)

/-- A string literal. -/
def quoted (style : Style) (s : String) : List Char :=
  '"' :: (s.toList.flatMap (escapeChar style.ascii) ++ ['"'])

/-- `int.__repr__`. -/
def intText : ℤ → List Char
  | .ofNat n => Nat.toDigits 10 n
  | .negSucc n => '-' :: Nat.toDigits 10 (n + 1)

/-- What follows a comma or a colon. -/
def Style.gap (style : Style) : List Char := if style.spaced then [' '] else []

mutual

/-- `json.dumps`. -/
def dumps (style : Style) : Json → List Char
  | .null => ['n', 'u', 'l', 'l']
  | .bool true => ['t', 'r', 'u', 'e']
  | .bool false => ['f', 'a', 'l', 's', 'e']
  | .int n => intText n
  | .float literal => literal.toList
  | .str s => quoted style s
  | .list [] => ['[', ']']
  | .list (v :: values) => '[' :: (dumps style v ++ dumpsItems style values ++ [']'])
  | .dict [] => ['{', '}']
  | .dict ((key, v) :: entries) =>
      '{' :: (quoted style key ++ ':' :: (style.gap ++ dumps style v) ++
        dumpsEntries style entries ++ ['}'])

/-- The values of a list after the first. -/
def dumpsItems (style : Style) : List Json → List Char
  | [] => []
  | v :: values => ',' :: (style.gap ++ dumps style v ++ dumpsItems style values)

/-- The entries of a dictionary after the first. -/
def dumpsEntries (style : Style) : List (String × Json) → List Char
  | [] => []
  | (key, v) :: entries =>
      ',' :: (style.gap ++ quoted style key ++ ':' :: (style.gap ++ dumps style v) ++
        dumpsEntries style entries)

end

/-! ## Reading -/

/-- Why a text is no JSON. The last two are no errors of `json`: a `str` may hold half of a
    surrogate pair where a text here may not, and `tooLong` is the end of the rounds. -/
inductive DecodeError where
  | byteOrderMark | expectingValue | extraData | unterminatedString | invalidControl | invalidEscape
  | invalidUnicode | expectingName | expectingColon | expectingComma | intDigits
  | loneSurrogate | tooLong
  deriving DecidableEq, Repr

/-- What a reader found, and the text after it. -/
abbrev Scan (α : Type) := Except DecodeError (α × List Char)

/-- `[ \t\n\r]`. -/
def isBlank (c : Char) : Bool := c = ' ' || c = '\t' || c = '\n' || c = '\r'

def skipBlanks (cs : List Char) : List Char := cs.dropWhile isBlank

/-- Four hexadecimal digits. -/
def hexValue (a b c d : Char) : Option ℕ :=
  (Percent.hexDigit a).bind fun x =>
    (Percent.hexDigit b).bind fun y =>
      (Percent.hexDigit c).bind fun z =>
        (Percent.hexDigit d).map fun w => x * 4096 + y * 256 + z * 16 + w

/-- The escapes of one letter. -/
def letterEscape (c : Char) : Option Char :=
  if c = '"' ∨ c = '\\' ∨ c = '/' then some c
  else if c = 'b' then some '\x08'
  else if c = 'f' then some '\x0c'
  else if c = 'n' then some '\n'
  else if c = 'r' then some '\r'
  else if c = 't' then some '\t'
  else none

/-- The second half of the surrogate pair that `high` begins. -/
def scanLow (high : ℕ) : List Char → Scan (Option Char)
  | '\\' :: 'u' :: a :: b :: c :: d :: rest =>
      match hexValue a b c d with
      | none => .error .invalidUnicode
      | some low =>
          if 0xDC00 ≤ low ∧ low ≤ 0xDFFF then
            .ok (some (Char.ofNat (0x10000 + ((high - 0xD800) * 0x400 + (low - 0xDC00)))), rest)
          else .error .loneSurrogate
  | _ => .error .loneSurrogate

/-- An escape, after its backslash. -/
def scanEscape : List Char → Scan (Option Char)
  | [] => .error .unterminatedString
  | 'u' :: a :: b :: c :: d :: rest =>
      match hexValue a b c d with
      | none => .error .invalidUnicode
      | some n =>
          if 0xD800 ≤ n ∧ n ≤ 0xDBFF then scanLow n rest
          else if 0xDC00 ≤ n ∧ n ≤ 0xDFFF then .error .loneSurrogate
          else .ok (some (Char.ofNat n), rest)
  | 'u' :: _ => .error .invalidUnicode
  | c :: rest =>
      match letterEscape c with
      | none => .error .invalidEscape
      | some c' => .ok (some c', rest)

/-- One character of a string literal; `none` is its end. -/
def scanChar : List Char → Scan (Option Char)
  | [] => .error .unterminatedString
  | '"' :: rest => .ok (none, rest)
  | '\\' :: rest => scanEscape rest
  | c :: rest => if c.toNat < 0x20 then .error .invalidControl else .ok (some c, rest)

/-- A string literal, after its first quote. -/
def scanString : ℕ → List Char → Scan (List Char)
  | 0, _ => .error .tooLong
  | rounds + 1, cs =>
      match scanChar cs with
      | .error e => .error e
      | .ok (none, rest) => .ok ([], rest)
      | .ok (some c, rest) => (scanString rounds rest).map fun (s, rest) => (c :: s, rest)

/-- `0|[1-9][0-9]*`. -/
def matchDigits : List Char → Option (List Char × List Char)
  | [] => none
  | c :: rest =>
      if c = '0' then some (['0'], rest)
      else if c.isDigit then some (c :: rest.takeWhile Char.isDigit, rest.dropWhile Char.isDigit)
      else none

/-- `(\.[0-9]+)?`. -/
def matchFraction : List Char → List Char × List Char
  | '.' :: d :: rest =>
      if d.isDigit then ('.' :: d :: rest.takeWhile Char.isDigit, rest.dropWhile Char.isDigit)
      else ([], '.' :: d :: rest)
  | cs => ([], cs)

/-- `([eE][-+]?[0-9]+)?`. -/
def matchExponent : List Char → List Char × List Char
  | e :: s :: d :: rest =>
      if (e = 'e' ∨ e = 'E') ∧ (s = '-' ∨ s = '+') ∧ d.isDigit then
        (e :: s :: d :: rest.takeWhile Char.isDigit, rest.dropWhile Char.isDigit)
      else if (e = 'e' ∨ e = 'E') ∧ s.isDigit then
        (e :: s :: (d :: rest).takeWhile Char.isDigit, (d :: rest).dropWhile Char.isDigit)
      else ([], e :: s :: d :: rest)
  | [e, s] => if (e = 'e' ∨ e = 'E') ∧ s.isDigit then ([e, s], []) else ([], [e, s])
  | cs => ([], cs)

/-- `int(text)` of a sign and digits. -/
def intValue (negative : Bool) (digits : List Char) : Except DecodeError ℤ :=
  if 4300 < digits.length then .error .intDigits
  else
    let n : ℤ := (Nat.ofDigitChars 10 digits 0 : ℕ)
    .ok (if negative then -n else n)

/-- A number, after its sign. -/
def scanUnsigned (negative : Bool) (cs : List Char) : Scan Json :=
  match matchDigits cs with
  | none => .error .expectingValue
  | some (digits, rest) =>
      let (fraction, rest) := matchFraction rest
      let (exponent, rest) := matchExponent rest
      if fraction = [] ∧ exponent = [] then
        (intValue negative digits).map fun n => (.int n, rest)
      else
        let literal := (if negative then ['-'] else []) ++ digits ++ fraction ++ exponent
        .ok (.float (String.ofList literal), rest)

/-- A number, or one of the three names for floats that are no numbers. -/
def scanNumber : List Char → Scan Json
  | 'N' :: 'a' :: 'N' :: rest => .ok (.float "NaN", rest)
  | 'I' :: 'n' :: 'f' :: 'i' :: 'n' :: 'i' :: 't' :: 'y' :: rest => .ok (.float "Infinity", rest)
  | '-' :: 'I' :: 'n' :: 'f' :: 'i' :: 'n' :: 'i' :: 't' :: 'y' :: rest =>
      .ok (.float "-Infinity", rest)
  | '-' :: rest => scanUnsigned true rest
  | cs => scanUnsigned false cs

mutual

/-- A value, at its first character. -/
def scanValue : ℕ → List Char → Scan Json
  | 0, _ => .error .tooLong
  | rounds + 1, cs =>
      match cs with
      | '"' :: rest => (scanString rounds rest).map fun (s, rest) => (.str (String.ofList s), rest)
      | '[' :: rest =>
          match skipBlanks rest with
          | ']' :: rest => .ok (.list [], rest)
          | rest => (scanItems rounds rest).map fun (values, rest) => (.list values, rest)
      | '{' :: rest =>
          match skipBlanks rest with
          | '}' :: rest => .ok (.dict [], rest)
          | '"' :: rest =>
              (scanEntries rounds rest).map fun (entries, rest) => (.dict (dictFrom entries), rest)
          | _ => .error .expectingName
      | 'n' :: 'u' :: 'l' :: 'l' :: rest => .ok (.null, rest)
      | 't' :: 'r' :: 'u' :: 'e' :: rest => .ok (.bool true, rest)
      | 'f' :: 'a' :: 'l' :: 's' :: 'e' :: rest => .ok (.bool false, rest)
      | cs => scanNumber cs

/-- The values of a list, at the first. -/
def scanItems : ℕ → List Char → Scan (List Json)
  | 0, _ => .error .tooLong
  | rounds + 1, cs =>
      match scanValue rounds cs with
      | .error e => .error e
      | .ok (v, rest) =>
          match skipBlanks rest with
          | ']' :: rest => .ok ([v], rest)
          | ',' :: rest =>
              (scanItems rounds (skipBlanks rest)).map fun (values, rest) => (v :: values, rest)
          | _ => .error .expectingComma

/-- The entries of a dictionary, after the first quote of the first name. -/
def scanEntries : ℕ → List Char → Scan (List (String × Json))
  | 0, _ => .error .tooLong
  | rounds + 1, cs =>
      match scanString rounds cs with
      | .error e => .error e
      | .ok (key, rest) =>
          match skipBlanks rest with
          | ':' :: rest =>
              match scanValue rounds (skipBlanks rest) with
              | .error e => .error e
              | .ok (v, rest) =>
                  match skipBlanks rest with
                  | '}' :: rest => .ok ([(String.ofList key, v)], rest)
                  | ',' :: rest =>
                      match skipBlanks rest with
                      | '"' :: rest =>
                          (scanEntries rounds rest).map fun (entries, rest) =>
                            ((String.ofList key, v) :: entries, rest)
                      | _ => .error .expectingName
                  | _ => .error .expectingComma
          | _ => .error .expectingColon

end

/-- `json.loads`. -/
def loads (text : List Char) : Except DecodeError Json :=
  if text.head? = some (Char.ofNat 0xFEFF) then .error .byteOrderMark
  else
    match scanValue (2 * text.length + 1) (skipBlanks text) with
    | .error e => .error e
    | .ok (v, rest) => if skipBlanks rest = [] then .ok v else .error .extraData

/-! ## Strings -/

theorem hexDigit_digitChar {n : ℕ} (h : n < 16) : Percent.hexDigit n.digitChar = some n := by
  interval_cases n <;> rfl

theorem hexValue_digitChar {n : ℕ} (h : n < 0x10000) :
    hexValue (n / 4096).digitChar (n / 256 % 16).digitChar (n / 16 % 16).digitChar
      (n % 16).digitChar = some n := by
  have h₁ : n / 4096 < 16 := by omega
  have h₂ : n / 256 % 16 < 16 := by omega
  have h₃ : n / 16 % 16 < 16 := by omega
  have h₄ : n % 16 < 16 := by omega
  have hsum : n / 4096 * 4096 + n / 256 % 16 * 256 + n / 16 % 16 * 16 + n % 16 = n := by omega
  unfold hexValue
  rw [hexDigit_digitChar h₁, hexDigit_digitChar h₂, hexDigit_digitChar h₃, hexDigit_digitChar h₄]
  simp only [Option.bind_some, Option.map_some, hsum]

theorem scanChar_unicodeEscape (n : ℕ) (rest : List Char) :
    scanChar (unicodeEscape n ++ rest) = scanEscape ((unicodeEscape n).tail ++ rest) := rfl

/-- An escape that is no half of a surrogate pair. -/
theorem scanEscape_unicode {n : ℕ} (h : n < 0x10000) (hs : n < 0xD800 ∨ 0xDFFF < n)
    (rest : List Char) :
    scanEscape ((unicodeEscape n).tail ++ rest) = .ok (some (Char.ofNat n), rest) := by
  have hhigh : ¬ (0xD800 ≤ n ∧ n ≤ 0xDBFF) := by omega
  have hlow : ¬ (0xDC00 ≤ n ∧ n ≤ 0xDFFF) := by omega
  show scanEscape ('u' :: _ :: _ :: _ :: _ :: rest) = _
  unfold scanEscape
  simp only [hexValue_digitChar h]
  rw [if_neg hhigh, if_neg hlow]

/-- A character of a higher plane, as a pair of escapes. -/
theorem scanEscape_surrogates {c : Char} (h : 0x10000 ≤ c.toNat) (rest : List Char) :
    scanEscape ((unicodeEscape (0xD800 + (c.toNat - 0x10000) / 0x400)).tail ++
      (unicodeEscape (0xDC00 + (c.toNat - 0x10000) % 0x400) ++ rest)) = .ok (some c, rest) := by
  have hscalar := Utf8.toNat_scalar c
  generalize hhigh : 0xD800 + (c.toNat - 0x10000) / 0x400 = high
  generalize hlow : 0xDC00 + (c.toNat - 0x10000) % 0x400 = low
  have hh : 0xD800 ≤ high ∧ high ≤ 0xDBFF := by omega
  have hl : 0xDC00 ≤ low ∧ low ≤ 0xDFFF := by omega
  have hsum : 0x10000 + ((high - 0xD800) * 0x400 + (low - 0xDC00)) = c.toNat := by omega
  have hhigh₁ : high < 0x10000 := by omega
  have hlow₁ : low < 0x10000 := by omega
  show scanEscape ('u' :: _ :: _ :: _ :: _ :: '\\' :: 'u' :: _ :: _ :: _ :: _ :: rest) = _
  unfold scanEscape
  simp only [hexValue_digitChar hhigh₁, if_pos hh]
  unfold scanLow
  simp only [hexValue_digitChar hlow₁, if_pos hl, hsum, Char.ofNat_toNat]

theorem scanChar_plain {c : Char} (hquote : c ≠ '"') (hslash : c ≠ '\\') (h : 0x20 ≤ c.toNat)
    (rest : List Char) : scanChar (c :: rest) = .ok (some c, rest) := by
  unfold scanChar
  split
  · next heq => cases heq
  · next heq => exact absurd (List.cons.inj heq).1 hquote
  · next heq => exact absurd (List.cons.inj heq).1 hslash
  · next heq =>
      obtain ⟨rfl, rfl⟩ := List.cons.inj heq
      rw [if_neg (by omega)]

/-- What stands for a character is read as it. -/
theorem scanChar_escapeChar (ascii : Bool) (c : Char) (rest : List Char) :
    scanChar (escapeChar ascii c ++ rest) = .ok (some c, rest) := by
  unfold escapeChar
  split_ifs with h₁ h₂ h₃ h₄ h₅ h₆ h₇ h₈ h₉
  · rw [h₁]
    rfl
  · rw [h₂]
    rfl
  · rw [h₃]
    rfl
  · rw [h₄]
    rfl
  · rw [h₅]
    rfl
  · rw [h₆]
    rfl
  · rw [h₇]
    rfl
  · exact scanChar_plain h₁ h₂ h₈.1 rest
  · have hscalar := Utf8.toNat_scalar c
    rw [scanChar_unicodeEscape, scanEscape_unicode h₉ (by omega), Char.ofNat_toNat]
  · rw [List.append_assoc, scanChar_unicodeEscape, scanEscape_surrogates (by omega)]

theorem escapeChar_ne_nil (ascii : Bool) (c : Char) : escapeChar ascii c ≠ [] := by
  unfold escapeChar unicodeEscape
  split_ifs <;> exact List.cons_ne_nil _ _

/-- A literal has a character for each of its text. -/
theorem length_le_flatMap (ascii : Bool) (s : List Char) :
    s.length ≤ (s.flatMap (escapeChar ascii)).length := by
  induction s with
  | nil => exact Nat.zero_le _
  | cons c s ih =>
      have hpos := List.length_pos_of_ne_nil (escapeChar_ne_nil ascii c)
      rw [List.flatMap_cons, List.length_append, List.length_cons]
      omega

theorem scanString_flatMap (ascii : Bool) {rounds : ℕ} {s : List Char} (h : s.length < rounds)
    (rest : List Char) :
    scanString rounds (s.flatMap (escapeChar ascii) ++ '"' :: rest) = .ok (s, rest) := by
  induction s generalizing rounds with
  | nil =>
      obtain ⟨rounds, rfl⟩ := Nat.exists_eq_add_one_of_ne_zero (Nat.ne_of_gt h)
      rfl
  | cons c s ih =>
      obtain ⟨rounds, rfl⟩ := Nat.exists_eq_add_one_of_ne_zero (Nat.ne_of_gt (Nat.zero_lt_of_lt h))
      rw [List.flatMap_cons, List.append_assoc]
      unfold scanString
      simp only [scanChar_escapeChar, ih (Nat.lt_of_succ_lt_succ h)]
      rfl

/-- A literal is read back. -/
theorem scanString_quoted (style : Style) (s : String) (rounds : ℕ)
    (h : (quoted style s).length ≤ rounds) (rest : List Char) :
    scanString rounds ((quoted style s).tail ++ rest) = .ok (s.toList, rest) := by
  have hlength := length_le_flatMap style.ascii s.toList
  have hrounds : s.toList.length < rounds := by
    simp only [quoted, List.length_cons, List.length_append, List.length_nil] at h
    omega
  show scanString rounds (s.toList.flatMap (escapeChar style.ascii) ++ ['"'] ++ rest) = _
  rw [List.append_assoc]
  exact scanString_flatMap style.ascii hrounds rest

/-! ## Numbers -/

/-- What may follow a number: nothing that goes on with it. -/
def Stops (rest : List Char) : Prop :=
  ∀ c ∈ rest.head?, c.isDigit = false ∧ c ≠ '.' ∧ c ≠ 'e' ∧ c ≠ 'E'

theorem stops_cons {c : Char} (h : c.isDigit = false ∧ c ≠ '.' ∧ c ≠ 'e' ∧ c ≠ 'E')
    (rest : List Char) : Stops (c :: rest) := by
  intro c' hc'
  rw [List.head?_cons, Option.mem_some_iff] at hc'
  exact hc' ▸ h

/-- No digit comes next. -/
def NoDigit (rest : List Char) : Prop := ∀ c ∈ rest.head?, c.isDigit = false

theorem Stops.noDigit {rest : List Char} (h : Stops rest) : NoDigit rest :=
  fun c hc => (h c hc).1

theorem takeWhile_digits {digits rest : List Char} (hdigits : ∀ c ∈ digits, c.isDigit = true)
    (h : NoDigit rest) : (digits ++ rest).takeWhile Char.isDigit = digits ∧
      (digits ++ rest).dropWhile Char.isDigit = rest := by
  rw [List.takeWhile_append_of_pos hdigits, List.dropWhile_append_of_pos hdigits]
  cases rest with
  | nil => exact ⟨List.append_nil digits, rfl⟩
  | cons c rest =>
      have hc := h c rfl
      simp [hc]

/-- A positive number does not begin with a zero. -/
theorem toDigits_head {n : ℕ} (h : 0 < n) :
    ∃ c digits, Nat.toDigits 10 n = c :: digits ∧ c ≠ '0' := by
  induction n using Nat.strong_induction_on with
  | _ n ih =>
      by_cases hn : n < 10
      · refine ⟨n.digitChar, [], Nat.toDigits_of_lt_base hn, ?_⟩
        interval_cases n <;> decide
      · have hlt : n / 10 < n := by omega
        obtain ⟨c, digits, hdigits, hc⟩ := ih (n / 10) hlt (by omega)
        refine ⟨c, digits ++ [(n % 10).digitChar], ?_, hc⟩
        rw [Nat.toDigits_of_base_le (by omega) (by omega), hdigits]
        rfl

theorem matchDigits_toDigits (n : ℕ) {rest : List Char} (h : NoDigit rest) :
    matchDigits (Nat.toDigits 10 n ++ rest) = some (Nat.toDigits 10 n, rest) := by
  by_cases hn : n = 0
  · rw [hn, Nat.toDigits_zero]
    rfl
  · obtain ⟨c, digits, hdigits, hc⟩ := toDigits_head (Nat.pos_of_ne_zero hn)
    have hall : ∀ d ∈ c :: digits, d.isDigit = true := by
      intro d hd
      rw [← hdigits] at hd
      exact Nat.isDigit_of_mem_toDigits (by decide) (by decide) hd
    obtain ⟨htake, hdrop⟩ := takeWhile_digits
      (fun d hd => hall d (List.mem_cons_of_mem c hd)) h
    rw [hdigits]
    unfold matchDigits
    rw [List.cons_append]
    dsimp only
    rw [if_neg hc, if_pos (hall c List.mem_cons_self), htake, hdrop]

theorem matchFraction_stops {rest : List Char} (h : Stops rest) :
    matchFraction rest = ([], rest) := by
  unfold matchFraction
  split
  · exact absurd rfl (h '.' rfl).2.1
  · rfl

theorem matchExponent_stops {rest : List Char} (h : Stops rest) :
    matchExponent rest = ([], rest) := by
  have hno : ∀ e tail, rest = e :: tail → ¬ (e = 'e' ∨ e = 'E') := by
    rintro e tail rfl he
    obtain ⟨-, -, hlower, hupper⟩ := h e rfl
    exact he.elim hlower hupper
  unfold matchExponent
  split
  · next e s d tail =>
      have he := hno e _ rfl
      rw [if_neg fun hc => he hc.1, if_neg fun hc => he hc.1]
  · next e s => rw [if_neg fun hc => hno e _ rfl hc.1]
  · rfl

theorem scanUnsigned_toDigits (negative : Bool) {n : ℕ}
    (hn : (Nat.toDigits 10 n).length ≤ 4300) {rest : List Char} (h : Stops rest) :
    scanUnsigned negative (Nat.toDigits 10 n ++ rest) =
      .ok (.int (if negative then -(n : ℤ) else n), rest) := by
  unfold scanUnsigned intValue
  simp only [matchDigits_toDigits n h.noDigit, matchFraction_stops h, matchExponent_stops h,
    if_neg (not_lt.mpr hn), Nat.ofDigitChars_ten_toDigits, and_self, if_true]
  rfl

theorem toDigits_cons (n : ℕ) :
    ∃ c digits, Nat.toDigits 10 n = c :: digits ∧ c.isDigit = true := by
  cases hd : Nat.toDigits 10 n with
  | nil => exact absurd hd Nat.toDigits_ne_nil
  | cons c digits =>
      have hmem : c ∈ Nat.toDigits 10 n := by
        rw [hd]
        exact List.mem_cons_self
      exact ⟨c, digits, rfl, Nat.isDigit_of_mem_toDigits (by decide) (by decide) hmem⟩

/-- The first character of an integer. -/
theorem intText_head (n : ℤ) : ∃ c tail, intText n = c :: tail ∧ (c = '-' ∨ c.isDigit = true) := by
  cases n with
  | ofNat n =>
      obtain ⟨c, digits, hdigits, hc⟩ := toDigits_cons n
      exact ⟨c, digits, hdigits, Or.inr hc⟩
  | negSucc n => exact ⟨'-', _, rfl, Or.inl rfl⟩

theorem scanNumber_digit {c : Char} (hc : c.isDigit = true) (cs : List Char) :
    scanNumber (c :: cs) = scanUnsigned false (c :: cs) := by
  unfold scanNumber
  split
  · next heq =>
      rw [(List.cons.inj heq).1] at hc
      exact absurd hc (by decide)
  · next heq =>
      rw [(List.cons.inj heq).1] at hc
      exact absurd hc (by decide)
  · next heq =>
      rw [(List.cons.inj heq).1] at hc
      exact absurd hc (by decide)
  · next heq =>
      rw [(List.cons.inj heq).1] at hc
      exact absurd hc (by decide)
  · rfl

theorem scanNumber_minus {c : Char} (hc : c.isDigit = true) (cs : List Char) :
    scanNumber ('-' :: c :: cs) = scanUnsigned true (c :: cs) := by
  unfold scanNumber
  split
  · next heq => exact absurd (List.cons.inj heq).1 (by decide)
  · next heq => exact absurd (List.cons.inj heq).1 (by decide)
  · next heq =>
      rw [(List.cons.inj (List.cons.inj heq).2).1] at hc
      exact absurd hc (by decide)
  · next heq => rw [(List.cons.inj heq).2]
  · next hno => exact absurd rfl (hno _)

/-- An integer within the limit is read back. -/
theorem scanNumber_intText {n : ℤ} (hn : (Nat.toDigits 10 n.natAbs).length ≤ 4300)
    {rest : List Char} (h : Stops rest) : scanNumber (intText n ++ rest) = .ok (.int n, rest) := by
  cases n with
  | ofNat n =>
      obtain ⟨c, tail, hd, hc⟩ := toDigits_cons n
      have hscan := scanUnsigned_toDigits false hn h
      rw [show Int.natAbs (Int.ofNat n) = n from rfl, hd, List.cons_append] at hscan
      show scanNumber (Nat.toDigits 10 n ++ rest) = _
      rw [hd, List.cons_append, scanNumber_digit hc, hscan]
      rfl
  | negSucc n =>
      obtain ⟨c, tail, hd, hc⟩ := toDigits_cons (n + 1)
      have hscan := scanUnsigned_toDigits true hn h
      rw [show Int.natAbs (Int.negSucc n) = n + 1 from rfl, hd, List.cons_append] at hscan
      show scanNumber ('-' :: (Nat.toDigits 10 (n + 1) ++ rest)) = _
      rw [hd, List.cons_append, scanNumber_minus hc, hscan]
      rfl

/-- `(\.[0-9]+)?`. -/
def Fraction (cs : List Char) : Prop :=
  cs = [] ∨ ∃ d ds, cs = '.' :: d :: ds ∧ ∀ c ∈ d :: ds, c.isDigit = true

/-- `(e[-+][0-9]+)?`. -/
def Exponent (cs : List Char) : Prop :=
  cs = [] ∨ ∃ s d ds, cs = 'e' :: s :: d :: ds ∧ (s = '-' ∨ s = '+') ∧
    ∀ c ∈ d :: ds, c.isDigit = true

/-- `float.__repr__` of a finite number. -/
def FloatText (cs : List Char) : Prop :=
  ∃ (negative : Bool) (n : ℕ) (fraction exponent : List Char),
    Fraction fraction ∧ Exponent exponent ∧ ¬ (fraction = [] ∧ exponent = []) ∧
      cs = (if negative then ['-'] else []) ++ Nat.toDigits 10 n ++ fraction ++ exponent

theorem Exponent.next {exponent : List Char} (h : Exponent exponent) {rest : List Char}
    (hstops : Stops rest) : ∀ c ∈ (exponent ++ rest).head?, c.isDigit = false ∧ c ≠ '.' := by
  rcases h with rfl | ⟨s, d, ds, rfl, -⟩
  · exact fun c hc => ⟨(hstops c hc).1, (hstops c hc).2.1⟩
  · intro c hc
    cases hc
    decide

theorem matchFraction_append {fraction : List Char} (h : Fraction fraction) {rest : List Char}
    (hrest : ∀ c ∈ rest.head?, c.isDigit = false ∧ c ≠ '.') :
    matchFraction (fraction ++ rest) = (fraction, rest) := by
  rcases h with rfl | ⟨d, ds, rfl, hdigits⟩
  · rw [List.nil_append]
    unfold matchFraction
    split
    · exact absurd rfl (hrest '.' rfl).2
    · rfl
  · obtain ⟨htake, hdrop⟩ := takeWhile_digits
      (fun c hc => hdigits c (List.mem_cons_of_mem d hc)) fun c hc => (hrest c hc).1
    show (if d.isDigit = true then ('.' :: d :: (ds ++ rest).takeWhile Char.isDigit,
      (ds ++ rest).dropWhile Char.isDigit) else ([], '.' :: d :: (ds ++ rest))) = _
    rw [if_pos (hdigits d List.mem_cons_self), htake, hdrop]

theorem matchExponent_append {exponent : List Char} (h : Exponent exponent) {rest : List Char}
    (hstops : Stops rest) : matchExponent (exponent ++ rest) = (exponent, rest) := by
  rcases h with rfl | ⟨s, d, ds, rfl, hs, hdigits⟩
  · exact matchExponent_stops hstops
  · obtain ⟨htake, hdrop⟩ := takeWhile_digits
      (fun c hc => hdigits c (List.mem_cons_of_mem d hc)) hstops.noDigit
    show matchExponent ('e' :: s :: d :: (ds ++ rest)) = _
    unfold matchExponent
    dsimp only
    rw [if_pos ⟨Or.inl rfl, hs, hdigits d List.mem_cons_self⟩, htake, hdrop]

theorem scanUnsigned_float (negative : Bool) (n : ℕ) {fraction exponent : List Char}
    (hfraction : Fraction fraction) (hexponent : Exponent exponent)
    (hne : ¬ (fraction = [] ∧ exponent = [])) {rest : List Char} (h : Stops rest) :
    scanUnsigned negative (Nat.toDigits 10 n ++ (fraction ++ (exponent ++ rest))) =
      .ok (.float (String.ofList ((if negative then ['-'] else []) ++ Nat.toDigits 10 n ++
        fraction ++ exponent)), rest) := by
  have hnext := hexponent.next h
  have hdigit : NoDigit (fraction ++ (exponent ++ rest)) := by
    rcases hfraction with rfl | ⟨d, ds, rfl, -⟩
    · exact fun c hc => (hnext c hc).1
    · intro c hc
      cases hc
      decide
  unfold scanUnsigned
  simp only [matchDigits_toDigits n hdigit, matchFraction_append hfraction hnext,
    matchExponent_append hexponent h, if_neg hne]

/-- A float is read back. -/
theorem scanNumber_float {cs : List Char} (hcs : FloatText cs) {rest : List Char} (h : Stops rest) :
    scanNumber (cs ++ rest) = .ok (.float (String.ofList cs), rest) := by
  obtain ⟨negative, n, fraction, exponent, hfraction, hexponent, hne, rfl⟩ := hcs
  have hscan := scanUnsigned_float negative n hfraction hexponent hne h
  obtain ⟨c, tail, hd, hc⟩ := toDigits_cons n
  simp only [List.append_assoc]
  cases negative with
  | true =>
      show scanNumber ('-' :: (Nat.toDigits 10 n ++ _)) = _
      rw [hd, List.cons_append] at hscan ⊢
      rw [scanNumber_minus hc, hscan, ← hd]
      simp only [if_true, List.append_assoc]
  | false =>
      show scanNumber (Nat.toDigits 10 n ++ _) = _
      rw [hd, List.cons_append] at hscan ⊢
      rw [scanNumber_digit hc, hscan, ← hd]
      simp only [Bool.false_eq_true, if_false, List.append_assoc]

/-- The first character of a float. -/
theorem floatText_head {cs : List Char} (h : FloatText cs) :
    ∃ c tail, cs = c :: tail ∧ (c = '-' ∨ c.isDigit = true) := by
  obtain ⟨negative, n, fraction, exponent, -, -, -, rfl⟩ := h
  cases negative with
  | true => exact ⟨'-', _, rfl, Or.inl rfl⟩
  | false =>
      obtain ⟨c, tail, hd, hc⟩ := toDigits_cons n
      exact ⟨c, tail ++ fraction ++ exponent, by rw [hd]; rfl, Or.inr hc⟩

/-! ## Values -/

/-- A finite float, no integer over the limit of `int`, and every key once. -/
def Exact : Json → Prop
  | .float literal => FloatText literal.toList
  | .int n => (Nat.toDigits 10 n.natAbs).length ≤ 4300
  | .dict entries => (entries.map Prod.fst).Nodup
  | _ => True

/-- The value is exact at every depth. -/
def Plain (v : Json) : Prop := ∀ x, Json.Within x v → Exact x

theorem Plain.exact {v : Json} (h : Plain v) : Exact v := h v (.here v)

theorem Plain.item {v : Json} {values : List Json} (h : Plain (.list values)) (hv : v ∈ values) :
    Plain v := fun x hx => h x (.item hv hx)

theorem Plain.entry {key : String} {v : Json} {entries : List (String × Json)}
    (h : Plain (.dict entries)) (hv : (key, v) ∈ entries) : Plain v :=
  fun x hx => h x (.entry hv hx)

/-- A dictionary of texts. -/
theorem plain_texts {texts : List (String × String)} (h : (texts.map Prod.fst).Nodup) :
    Plain (.dict (texts.map fun (key, s) => (key, .str s))) := by
  intro x hx
  rcases Json.within_dict.mp hx with rfl | ⟨e, he, hx⟩
  · show ((texts.map fun (key, s) => (key, Json.str s)).map Prod.fst).Nodup
    rw [List.map_map]
    exact h
  · obtain ⟨⟨key, s⟩, -, rfl⟩ := List.mem_map.mp he
    cases hx
    trivial

theorem isBlank_of_isDigit {c : Char} (h : c.isDigit = true) : isBlank c = false := by
  have hne : ∀ d, d.isDigit = false → c ≠ d := by
    rintro d hd rfl
    rw [h] at hd
    cases hd
  simp [isBlank, hne ' ' rfl, hne '\t' rfl, hne '\n' rfl, hne '\r' rfl]

theorem number_head {c : Char} (h : c = '-' ∨ c.isDigit = true) :
    isBlank c = false ∧ c ≠ ']' ∧ c ≠ Char.ofNat 0xFEFF := by
  rcases h with rfl | hc
  · decide
  · refine ⟨isBlank_of_isDigit hc, ?_, ?_⟩
    · rintro rfl
      exact absurd hc (by decide)
    · rintro rfl
      exact absurd hc (by decide)

/-- The first character of a value. -/
theorem dumps_head (style : Style) {v : Json} (h : Exact v) :
    ∃ c tail, dumps style v = c :: tail ∧ isBlank c = false ∧ c ≠ ']' ∧ c ≠ Char.ofNat 0xFEFF := by
  cases v with
  | null => exact ⟨'n', _, rfl, by decide⟩
  | bool b => cases b with
    | true => exact ⟨'t', _, rfl, by decide⟩
    | false => exact ⟨'f', _, rfl, by decide⟩
  | int n =>
      obtain ⟨c, tail, htext, hc⟩ := intText_head n
      exact ⟨c, tail, htext, number_head hc⟩
  | float literal =>
      obtain ⟨c, tail, htext, hc⟩ := floatText_head h
      exact ⟨c, tail, htext, number_head hc⟩
  | str s => exact ⟨'"', _, rfl, by decide⟩
  | list values => cases values with
    | nil => exact ⟨'[', _, rfl, by decide⟩
    | cons v values => exact ⟨'[', _, by rw [dumps], by decide⟩
  | dict entries => cases entries with
    | nil => exact ⟨'\x7b', _, rfl, by decide⟩
    | cons e entries => exact ⟨'\x7b', _, by rw [dumps], by decide⟩

theorem skipBlanks_cons {c : Char} (h : isBlank c = false) (cs : List Char) :
    skipBlanks (c :: cs) = c :: cs := by
  unfold skipBlanks
  rw [List.dropWhile_cons_of_neg (by rw [h]; exact Bool.false_ne_true)]

/-- The blank after a separator is skipped. -/
theorem skipBlanks_gap (style : Style) {c : Char} (h : isBlank c = false) (cs : List Char) :
    skipBlanks (style.gap ++ c :: cs) = c :: cs := by
  unfold Style.gap
  split
  · show skipBlanks (c :: cs) = _
    exact skipBlanks_cons h cs
  · exact skipBlanks_cons h cs

theorem skipBlanks_dumps (style : Style) {v : Json} (h : Exact v) (rest : List Char) :
    skipBlanks (style.gap ++ (dumps style v ++ rest)) = dumps style v ++ rest := by
  obtain ⟨c, tail, htext, hblank, -⟩ := dumps_head style h
  rw [htext, List.cons_append, skipBlanks_gap style hblank]

theorem scanValue_number {c : Char} (h : c = '-' ∨ c.isDigit = true) (rounds : ℕ)
    (cs : List Char) : scanValue (rounds + 1) (c :: cs) = scanNumber (c :: cs) := by
  have hne : ∀ d tail, c :: cs = d :: tail → d ≠ '-' → d.isDigit = false → False := by
    rintro d tail heq hd hdigit
    rw [(List.cons.inj heq).1] at h
    rcases h with h | h
    · exact hd h
    · rw [hdigit] at h
      cases h
  unfold scanValue
  split
  · next heq => exact absurd (hne _ _ heq (by decide) (by decide)) id
  · next heq => exact absurd (hne _ _ heq (by decide) (by decide)) id
  · next heq => exact absurd (hne _ _ heq (by decide) (by decide)) id
  · next heq => exact absurd (hne _ _ heq (by decide) (by decide)) id
  · next heq => exact absurd (hne _ _ heq (by decide) (by decide)) id
  · next heq => exact absurd (hne _ _ heq (by decide) (by decide)) id
  · rfl

theorem scanValue_list {c : Char} (hblank : isBlank c = false) (hc : c ≠ ']') (rounds : ℕ)
    (cs : List Char) : scanValue (rounds + 1) ('[' :: c :: cs) =
      (scanItems rounds (c :: cs)).map fun (values, rest) => (.list values, rest) := by
  show (match skipBlanks (c :: cs) with
    | ']' :: rest => Except.ok (Json.list [], rest)
    | rest => (scanItems rounds rest).map fun (values, rest) => (.list values, rest)) = _
  rw [skipBlanks_cons hblank]
  split
  · next heq => exact absurd (List.cons.inj heq).1 hc
  · rfl

/-- What the readers make of the texts that are written. -/
structure ReadsBack (style : Style) (rounds : ℕ) : Prop where
  value : ∀ v rest, Plain v → Stops rest → (dumps style v).length < rounds →
    scanValue rounds (dumps style v ++ rest) = .ok (v, rest)
  items : ∀ v values rest, (∀ x ∈ v :: values, Plain x) →
    (dumps style v).length + (dumpsItems style values).length + 1 < rounds →
    scanItems rounds (dumps style v ++ (dumpsItems style values ++ ']' :: rest)) =
      .ok (v :: values, rest)
  entries : ∀ key v entries rest, (∀ e ∈ (key, v) :: entries, Plain e.2) →
    (quoted style key).length + (dumps style v).length + (dumpsEntries style entries).length + 1 <
      rounds →
    scanEntries rounds ((quoted style key).tail ++ ':' :: (style.gap ++ (dumps style v ++
        (dumpsEntries style entries ++ '}' :: rest)))) = .ok ((key, v) :: entries, rest)

section Rounds

variable {style : Style} {rounds : ℕ} (ih : ReadsBack style rounds)

include ih

theorem reads_value (v : Json) (rest : List Char) (hplain : Plain v) (hstops : Stops rest)
    (h : (dumps style v).length < rounds + 1) :
    scanValue (rounds + 1) (dumps style v ++ rest) = .ok (v, rest) := by
  cases v with
  | null => rfl
  | bool b => cases b <;> rfl
  | int n =>
      obtain ⟨c, tail, htext, hc⟩ := intText_head n
      have hscan := scanNumber_intText hplain.exact hstops
      show scanValue (rounds + 1) (intText n ++ rest) = _
      rw [htext, List.cons_append] at hscan ⊢
      rw [scanValue_number hc, hscan]
  | float literal =>
      have hfloat : FloatText literal.toList := hplain.exact
      obtain ⟨c, tail, htext, hc⟩ := floatText_head hfloat
      have hscan := scanNumber_float hfloat hstops
      show scanValue (rounds + 1) (literal.toList ++ rest) = _
      rw [String.ofList_toList] at hscan
      rw [htext, List.cons_append] at hscan ⊢
      rw [scanValue_number hc, hscan]
  | str s =>
      show (scanString rounds ((quoted style s).tail ++ rest)).map _ = _
      rw [scanString_quoted style s rounds (Nat.le_of_lt_succ h)]
      show Except.ok (Json.str (String.ofList s.toList), rest) = _
      rw [String.ofList_toList]
  | list values => cases values with
    | nil => rfl
    | cons v values =>
        have hall : ∀ x ∈ v :: values, Plain x := fun x hx => hplain.item hx
        obtain ⟨c, tail, htext, hblank, hc, -⟩ :=
          dumps_head style (hall v List.mem_cons_self).exact
        have hitems := ih.items v values rest hall (by
          simp only [dumps, List.length_cons, List.length_append, List.length_nil] at h
          omega)
        simp only [dumps, List.cons_append, List.append_assoc, List.nil_append]
        rw [htext, List.cons_append] at hitems ⊢
        rw [scanValue_list hblank hc, hitems]
        rfl
  | dict entries => cases entries with
    | nil => rfl
    | cons e entries =>
        obtain ⟨key, v⟩ := e
        have hall : ∀ e ∈ (key, v) :: entries, Plain e.2 := fun e he => hplain.entry he
        have hentries := ih.entries key v entries rest hall (by
          simp only [dumps, List.length_cons, List.length_append, List.length_nil] at h
          omega)
        simp only [dumps, List.cons_append, List.append_assoc, List.nil_append]
        show (scanEntries rounds ((quoted style key).tail ++ _)).map _ = _
        rw [hentries]
        show Except.ok (Json.dict (dictFrom ((key, v) :: entries)), rest) = _
        rw [dictFrom_of_nodup hplain.exact]

theorem reads_items (v : Json) (values : List Json) (rest : List Char)
    (hall : ∀ x ∈ v :: values, Plain x)
    (h : (dumps style v).length + (dumpsItems style values).length + 1 < rounds + 1) :
    scanItems (rounds + 1) (dumps style v ++ (dumpsItems style values ++ ']' :: rest)) =
      .ok (v :: values, rest) := by
  have hstops : Stops (dumpsItems style values ++ ']' :: rest) := by
    cases values with
    | nil => exact stops_cons (by decide) rest
    | cons w values => exact stops_cons (by decide) _
  have hvalue := ih.value v _ (hall v List.mem_cons_self) hstops (by omega)
  unfold scanItems
  simp only [hvalue]
  cases values with
  | nil => rfl
  | cons w values =>
      have hw : Plain w := hall w (List.mem_cons_of_mem v List.mem_cons_self)
      have hitems := ih.items w values rest (fun x hx => hall x (List.mem_cons_of_mem v hx)) (by
        simp only [dumpsItems, List.length_cons, List.length_append] at h
        omega)
      simp only [dumpsItems, List.cons_append, List.append_assoc]
      show (scanItems rounds (skipBlanks (style.gap ++ (dumps style w ++ _)))).map _ = _
      rw [skipBlanks_dumps style hw.exact, hitems]
      rfl

theorem reads_entries (key : String) (v : Json) (entries : List (String × Json))
    (rest : List Char) (hall : ∀ e ∈ (key, v) :: entries, Plain e.2)
    (h : (quoted style key).length + (dumps style v).length + (dumpsEntries style entries).length +
      1 < rounds + 1) :
    scanEntries (rounds + 1) ((quoted style key).tail ++ ':' :: (style.gap ++ (dumps style v ++
        (dumpsEntries style entries ++ '}' :: rest)))) = .ok ((key, v) :: entries, rest) := by
  have hplain : Plain v := hall (key, v) List.mem_cons_self
  have hstops : Stops (dumpsEntries style entries ++ '}' :: rest) := by
    cases entries with
    | nil => exact stops_cons (by decide) rest
    | cons e entries => exact stops_cons (by decide) _
  have hname := scanString_quoted style key rounds (by omega)
    (':' :: (style.gap ++ (dumps style v ++ (dumpsEntries style entries ++ '}' :: rest))))
  have hvalue := ih.value v _ hplain hstops (by omega)
  have hcolon : isBlank ':' = false := by decide
  unfold scanEntries
  simp only [hname, skipBlanks_cons hcolon, skipBlanks_dumps style hplain.exact, hvalue,
    String.ofList_toList]
  cases entries with
  | nil => rfl
  | cons e entries =>
      obtain ⟨name, w⟩ := e
      have hentries := ih.entries name w entries rest
        (fun e he => hall e (List.mem_cons_of_mem _ he)) (by
          simp only [dumpsEntries, List.length_cons, List.length_append] at h
          omega)
      have hquote : isBlank '"' = false := by decide
      have hliteral : quoted style name = '"' :: (quoted style name).tail := rfl
      simp only [dumpsEntries, List.cons_append, List.append_assoc]
      rw [skipBlanks_cons (by decide : isBlank ',' = false)]
      split
      · next heq => exact absurd (List.cons.inj heq).1 (by decide)
      · next after heq =>
          rw [← (List.cons.inj heq).2, hliteral, List.cons_append, skipBlanks_gap style hquote]
          show (scanEntries rounds ((quoted style name).tail ++ _)).map _ = _
          rw [hentries]
          rfl
      · next hno => exact absurd rfl (hno _)

end Rounds

theorem readsBack (style : Style) (rounds : ℕ) : ReadsBack style rounds := by
  induction rounds with
  | zero => exact ⟨fun _ _ _ _ h => absurd h (Nat.not_lt_zero _),
      fun _ _ _ _ h => absurd h (Nat.not_lt_zero _),
      fun _ _ _ _ _ h => absurd h (Nat.not_lt_zero _)⟩
  | succ rounds ih => exact ⟨reads_value ih, reads_items ih, reads_entries ih⟩

/-- What is written is read back, in every style. -/
theorem loads_dumps (style : Style) {v : Json} (h : Plain v) :
    loads (dumps style v) = .ok v := by
  obtain ⟨c, tail, htext, hblank, -, hmark⟩ := dumps_head style h.exact
  have hstops : Stops [] := by
    intro c hc
    cases hc
  have hscan := (readsBack style (2 * (dumps style v).length + 1)).value v [] h hstops (by omega)
  have hhead : (dumps style v).head? ≠ some (Char.ofNat 0xFEFF) := by
    rw [htext]
    intro hc
    exact hmark (Option.some.inj hc)
  have hskip : skipBlanks (dumps style v) = dumps style v := by
    rw [htext, skipBlanks_cons hblank]
  rw [List.append_nil] at hscan
  unfold loads
  rw [if_neg hhead, hskip, hscan]
  rfl

/-! ## The rounds -/

/-- The reader leaves less than it got, and gives up only if `short`. -/
def Ends {α : Type} (length : ℕ) (short : Prop) : Scan α → Prop
  | .ok (_, rest) => rest.length < length
  | .error e => e = .tooLong → short

section Ends

variable {α β : Type} {length length' : ℕ} {short short' : Prop} {r : Scan α}

theorem Ends.mono (h : Ends length short r) (hlength : length ≤ length') (hshort : short → short') :
    Ends length' short' r := by
  cases r with
  | error e => exact hshort ∘ h
  | ok p => exact Nat.lt_of_lt_of_le h hlength

theorem Ends.map (h : Ends length short r) (f : α → β) :
    Ends length short (r.map fun (a, rest) => (f a, rest)) := by
  cases r with
  | error e => exact h
  | ok p => exact h

theorem ends_error {e : DecodeError} (h : e ≠ .tooLong) :
    Ends length short (.error e : Scan α) := fun he => absurd he h

end Ends

theorem length_dropWhile_le (p : Char → Bool) (cs : List Char) :
    (cs.dropWhile p).length ≤ cs.length := (List.dropWhile_suffix p).length_le

theorem scanLow_ends (high : ℕ) (cs : List Char) : Ends cs.length False (scanLow high cs) := by
  unfold scanLow
  split
  · split
    · exact ends_error (by decide)
    · split
      · simp only [Ends, List.length_cons]
        omega
      · exact ends_error (by decide)
  · exact ends_error (by decide)

theorem scanEscape_ends (cs : List Char) : Ends cs.length False (scanEscape cs) := by
  unfold scanEscape
  split
  · exact ends_error (by decide)
  · next a b c d rest =>
      split
      · exact ends_error (by decide)
      · split
        · refine (scanLow_ends _ rest).mono ?_ id
          simp only [List.length_cons]
          omega
        · split
          · exact ends_error (by decide)
          · simp only [Ends, List.length_cons]
            omega
  · exact ends_error (by decide)
  · split
    · exact ends_error (by decide)
    · simp only [Ends, List.length_cons]
      omega

theorem scanChar_ends (cs : List Char) : Ends cs.length False (scanChar cs) := by
  unfold scanChar
  split
  · exact ends_error (by decide)
  · exact Nat.lt_succ_self _
  · next rest => exact (scanEscape_ends rest).mono (Nat.le_succ _) id
  · split
    · exact ends_error (by decide)
    · exact Nat.lt_succ_self _

theorem scanString_ends (rounds : ℕ) (cs : List Char) :
    Ends cs.length (rounds ≤ cs.length) (scanString rounds cs) := by
  induction rounds generalizing cs with
  | zero => exact fun _ => Nat.zero_le _
  | succ rounds ih =>
      have hchar := scanChar_ends cs
      unfold scanString
      split
      · next e he =>
          rw [he] at hchar
          exact fun h => absurd (hchar h) id
      · next rest he =>
          rw [he] at hchar
          exact hchar
      · next c rest he =>
          rw [he] at hchar
          have hlt : rest.length < cs.length := hchar
          exact ((ih rest).mono (Nat.le_of_lt hlt) fun h => by omega).map _

theorem matchDigits_shorter {cs digits rest : List Char}
    (h : matchDigits cs = some (digits, rest)) : rest.length < cs.length := by
  unfold matchDigits at h
  split at h
  · cases h
  · split_ifs at h <;> cases h
    · exact Nat.lt_succ_self _
    · exact Nat.lt_succ_of_le (length_dropWhile_le _ _)

theorem length_matchFraction_le (cs : List Char) : (matchFraction cs).2.length ≤ cs.length := by
  unfold matchFraction
  split
  · next d rest =>
      have hle := length_dropWhile_le Char.isDigit rest
      split_ifs <;> simp only [List.length_cons] <;> omega
  · exact le_refl _

theorem length_matchExponent_le (cs : List Char) : (matchExponent cs).2.length ≤ cs.length := by
  unfold matchExponent
  split
  · next e s d rest =>
      have hle := length_dropWhile_le Char.isDigit rest
      have hle' := length_dropWhile_le Char.isDigit (d :: rest)
      split_ifs
      · simp only [List.length_cons]
        omega
      · simp only [List.length_cons] at hle' ⊢
        omega
      · exact le_refl _
  · split_ifs
    · exact Nat.zero_le _
    · exact le_refl _
  · exact le_refl _

theorem scanUnsigned_ends (negative : Bool) (cs : List Char) :
    Ends cs.length False (scanUnsigned negative cs) := by
  unfold scanUnsigned
  split
  · exact ends_error (by decide)
  · next digits rest hdigits =>
      have hlt := matchDigits_shorter hdigits
      have hfraction := length_matchFraction_le rest
      have hexponent := length_matchExponent_le (matchFraction rest).2
      have hrest : (matchExponent (matchFraction rest).2).2.length < cs.length := by omega
      dsimp only
      split
      · unfold intValue
        split
        · exact ends_error (by decide)
        · exact hrest
      · exact hrest

theorem scanNumber_ends (cs : List Char) : Ends cs.length False (scanNumber cs) := by
  unfold scanNumber
  split
  · simp only [Ends, List.length_cons]
    omega
  · simp only [Ends, List.length_cons]
    omega
  · simp only [Ends, List.length_cons]
    omega
  · next rest _ => exact (scanUnsigned_ends true rest).mono (Nat.le_succ _) id
  · exact scanUnsigned_ends false _

/-- Reading a value takes two rounds for each character at most. -/
structure Bounded (rounds : ℕ) : Prop where
  value : ∀ cs, Ends cs.length (rounds ≤ 2 * cs.length) (scanValue rounds cs)
  items : ∀ cs, Ends cs.length (rounds ≤ 2 * cs.length + 1) (scanItems rounds cs)
  entries : ∀ cs, Ends cs.length (rounds ≤ 2 * cs.length + 1) (scanEntries rounds cs)

theorem value_ends {rounds : ℕ} (ih : Bounded rounds) (cs : List Char) :
    Ends cs.length (rounds + 1 ≤ 2 * cs.length) (scanValue (rounds + 1) cs) := by
  unfold scanValue
  dsimp only
  split
  · next rest =>
      refine ((scanString_ends rounds rest).mono (Nat.le_succ _) ?_).map
        fun s => Json.str (String.ofList s)
      simp only [List.length_cons]
      omega
  · next rest =>
      have hle := length_dropWhile_le isBlank rest
      split
      · next rest' heq =>
          have hlength := congrArg List.length heq
          simp only [skipBlanks, List.length_cons] at hlength
          simp only [Ends, List.length_cons]
          omega
      · refine ((ih.items _).mono ?_ ?_).map _
        · simp only [skipBlanks, List.length_cons]
          omega
        · simp only [skipBlanks, List.length_cons]
          omega
  · next rest =>
      have hle := length_dropWhile_le isBlank rest
      split
      · next rest' heq =>
          have hlength := congrArg List.length heq
          simp only [skipBlanks, List.length_cons] at hlength
          simp only [Ends, List.length_cons]
          omega
      · next rest' heq =>
          have hlength := congrArg List.length heq
          simp only [skipBlanks, List.length_cons] at hlength
          refine ((ih.entries rest').mono ?_ ?_).map fun entries => Json.dict (dictFrom entries)
          · simp only [List.length_cons]
            omega
          · simp only [List.length_cons]
            omega
      · exact ends_error (by decide)
  · simp only [Ends, List.length_cons]
    omega
  · simp only [Ends, List.length_cons]
    omega
  · simp only [Ends, List.length_cons]
    omega
  · exact (scanNumber_ends _).mono (le_refl _) False.elim

theorem items_ends {rounds : ℕ} (ih : Bounded rounds) (cs : List Char) :
    Ends cs.length (rounds + 1 ≤ 2 * cs.length + 1) (scanItems (rounds + 1) cs) := by
  have hvalue := ih.value cs
  unfold scanItems
  split
  · next e he =>
      rw [he] at hvalue
      exact fun h => Nat.succ_le_succ (hvalue h)
  · next v rest he =>
      rw [he] at hvalue
      have hlt : rest.length < cs.length := hvalue
      have hle := length_dropWhile_le isBlank rest
      split
      · next rest' heq =>
          have hlength := congrArg List.length heq
          simp only [skipBlanks, List.length_cons] at hlength
          simp only [Ends]
          omega
      · next rest' heq =>
          have hlength := congrArg List.length heq
          have hle' := length_dropWhile_le isBlank rest'
          simp only [skipBlanks, List.length_cons] at hlength
          refine ((ih.items _).mono ?_ ?_).map _
          · simp only [skipBlanks]
            omega
          · simp only [skipBlanks]
            omega
      · exact ends_error (by decide)

theorem entries_ends {rounds : ℕ} (ih : Bounded rounds) (cs : List Char) :
    Ends cs.length (rounds + 1 ≤ 2 * cs.length + 1) (scanEntries (rounds + 1) cs) := by
  have hname := scanString_ends rounds cs
  unfold scanEntries
  split
  · next e he =>
      rw [he] at hname
      intro h
      have hle := hname h
      omega
  · next key rest he =>
      rw [he] at hname
      have hlt : rest.length < cs.length := hname
      have hle := length_dropWhile_le isBlank rest
      split
      · next rest₁ heq =>
          have hlength := congrArg List.length heq
          have hle₁ := length_dropWhile_le isBlank rest₁
          have hvalue := ih.value (skipBlanks rest₁)
          simp only [skipBlanks, List.length_cons] at hlength
          split
          · next e he₁ =>
              rw [he₁] at hvalue
              intro h
              have hbound := hvalue h
              simp only [skipBlanks] at hbound
              omega
          · next v rest₂ he₁ =>
              rw [he₁] at hvalue
              have hlt₁ : rest₂.length < (skipBlanks rest₁).length := hvalue
              have hle₂ := length_dropWhile_le isBlank rest₂
              simp only [skipBlanks] at hlt₁
              split
              · next rest₃ heq₃ =>
                  have hlength₃ := congrArg List.length heq₃
                  simp only [skipBlanks, List.length_cons] at hlength₃
                  simp only [Ends]
                  omega
              · next rest₃ heq₃ =>
                  have hlength₃ := congrArg List.length heq₃
                  have hle₃ := length_dropWhile_le isBlank rest₃
                  simp only [skipBlanks, List.length_cons] at hlength₃
                  split
                  · next rest₄ heq₄ =>
                      have hlength₄ := congrArg List.length heq₄
                      simp only [skipBlanks, List.length_cons] at hlength₄
                      refine ((ih.entries rest₄).mono ?_ ?_).map _
                      · omega
                      · omega
                  · exact ends_error (by decide)
              · exact ends_error (by decide)
      · exact ends_error (by decide)

theorem bounded (rounds : ℕ) : Bounded rounds := by
  induction rounds with
  | zero =>
      exact ⟨fun _ _ => Nat.zero_le _, fun _ _ => Nat.zero_le _, fun _ _ => Nat.zero_le _⟩
  | succ rounds ih => exact ⟨value_ends ih, items_ends ih, entries_ends ih⟩

/-- Every text is read to its end, or to an error of `json`. -/
theorem loads_ends (text : List Char) : loads text ≠ .error .tooLong := by
  have hvalue := (bounded (2 * text.length + 1)).value (skipBlanks text)
  have hle := length_dropWhile_le isBlank text
  unfold loads
  split
  · exact fun h => absurd (Except.error.inj h) (by decide)
  · split
    · next e he =>
        rw [he] at hvalue
        intro h
        have hbound := hvalue (Except.error.inj h)
        simp only [skipBlanks] at hbound
        omega
    · split
      · intro h
        cases h
      · exact fun h => absurd (Except.error.inj h) (by decide)

end TemisLab.Lib.JsonText
