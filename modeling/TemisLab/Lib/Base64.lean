/-
  Base64 in the URL-safe alphabet without padding (`base64.urlsafe_b64encode` with its trailing
  `=` stripped), on octets as natural numbers below 256, and the big-endian octets of a number
  (`int.to_bytes`).

  * `rstrip_padded`, `restored_encode`: the padding that is stripped can be restored.
  * `decode_padded`: octets are decoded as they were.
  * `ofBytes_toBytes`: a number that fits is read back; `pow_le_of_octetSize`: the octets of
    `octetSize` are the fewest.
-/
import Mathlib.Algebra.Ring.Nat
import Mathlib.Data.List.DropRight
import Mathlib.Data.Nat.Size

namespace TemisLab.Lib.Base64

/-- The character of a value below 64. -/
def symbol (i : ℕ) : Char :=
  if i < 26 then Char.ofNat (65 + i)
  else if i < 52 then Char.ofNat (97 + (i - 26))
  else if i < 62 then Char.ofNat (48 + (i - 52))
  else if i = 62 then '-' else '_'

/-- Three octets make four characters; a rest of one or two makes two or three. -/
def encode : List ℕ → List Char
  | a :: b :: c :: rest =>
      symbol (a / 4) :: symbol (a % 4 * 16 + b / 16) :: symbol (b % 16 * 4 + c / 64) ::
        symbol (c % 64) :: encode rest
  | [a, b] => [symbol (a / 4), symbol (a % 4 * 16 + b / 16), symbol (b % 16 * 4)]
  | [a] => [symbol (a / 4), symbol (a % 4 * 16)]
  | [] => []

/-- The `size` low octets of a number, most significant first. -/
def toBytes : ℕ → ℕ → List ℕ
  | 0, _ => []
  | size + 1, value => toBytes size (value / 256) ++ [value % 256]

/-- `urlsafe_b64encode` of the shortest octets of a number. -/
def encodeNat (value : ℕ) : String :=
  String.ofList (encode (toBytes ((Nat.size value + 7) / 8) value))

/-! ## With the padding -/

/-- `urlsafe_b64encode`. -/
def padded : List ℕ → List Char
  | a :: b :: c :: rest =>
      symbol (a / 4) :: symbol (a % 4 * 16 + b / 16) :: symbol (b % 16 * 4 + c / 64) ::
        symbol (c % 64) :: padded rest
  | [a, b] => [symbol (a / 4), symbol (a % 4 * 16 + b / 16), symbol (b % 16 * 4), '=']
  | [a] => [symbol (a / 4), symbol (a % 4 * 16), '=', '=']
  | [] => []

/-- `text.rstrip(b"=")`. -/
def rstrip (cs : List Char) : List Char := cs.rdropWhile (· == '=')

/-- `text + "=" * (-len(text) % 4)`. -/
def restored (cs : List Char) : List Char := cs ++ List.replicate ((4 - cs.length % 4) % 4) '='

/-- The URL-safe alphabet. -/
def alphabet : List Char :=
  "ABCDEFGHIJKLMNOPQRSTUVWXYZabcdefghijklmnopqrstuvwxyz0123456789-_".toList

/-- The value of a character of the alphabet. -/
def value (c : Char) : Option ℕ := alphabet.idxOf? c

/-- The decoder of padded texts: a padding ends the text, and stands for one or two octets less. -/
def decode : List Char → Option (List ℕ)
  | [] => some []
  | w :: x :: y :: z :: rest =>
      if z = '=' then
        if rest ≠ [] then none
        else if y = '=' then
          match value w, value x with
          | some i, some j => some [i * 4 + j / 16]
          | _, _ => none
        else
          match value w, value x, value y with
          | some i, some j, some k => some [i * 4 + j / 16, j % 16 * 16 + k / 4]
          | _, _, _ => none
      else
        match value w, value x, value y, value z, decode rest with
        | some i, some j, some k, some l, some octets =>
            some ([i * 4 + j / 16, j % 16 * 16 + k / 4, k % 4 * 64 + l] ++ octets)
        | _, _, _, _, _ => none
  | _ => none

/-- Numbers below 256. -/
def Octets (bs : List ℕ) : Prop := ∀ b ∈ bs, b < 256

theorem octets_cons {b : ℕ} {bs : List ℕ} : Octets (b :: bs) ↔ b < 256 ∧ Octets bs :=
  List.forall_mem_cons

theorem value_symbol {i : ℕ} (hi : i < 64) : value (symbol i) = some i := by
  have hall : ∀ i ∈ List.range 64, value (symbol i) = some i := by decide
  exact hall i (List.mem_range.mpr hi)

theorem symbol_mem {i : ℕ} (hi : i < 64) : symbol i ∈ alphabet := by
  have hall : ∀ i ∈ List.range 64, symbol i ∈ alphabet := by decide
  exact hall i (List.mem_range.mpr hi)

theorem padding_not_mem : '=' ∉ alphabet := by decide

theorem symbol_ne_padding {i : ℕ} (hi : i < 64) : symbol i ≠ '=' := by
  intro he
  exact padding_not_mem (he ▸ symbol_mem hi)

/-- What is encoded is in the alphabet. -/
theorem encode_mem {bs : List ℕ} (h : Octets bs) : ∀ c ∈ encode bs, c ∈ alphabet := by
  induction bs using encode.induct with
  | case1 a b c rest ih =>
      obtain ⟨ha, h⟩ := octets_cons.mp h
      obtain ⟨hb, h⟩ := octets_cons.mp h
      obtain ⟨hc, hrest⟩ := octets_cons.mp h
      intro d hd
      simp only [encode, List.mem_cons] at hd
      rcases hd with rfl | rfl | rfl | rfl | hd
      · exact symbol_mem (by omega)
      · exact symbol_mem (by omega)
      · exact symbol_mem (by omega)
      · exact symbol_mem (by omega)
      · exact ih hrest d hd
  | case2 a b =>
      obtain ⟨ha, h⟩ := octets_cons.mp h
      obtain ⟨hb, -⟩ := octets_cons.mp h
      intro d hd
      simp only [encode, List.mem_cons, List.not_mem_nil, or_false] at hd
      rcases hd with rfl | rfl | rfl
      · exact symbol_mem (by omega)
      · exact symbol_mem (by omega)
      · exact symbol_mem (by omega)
  | case3 a =>
      obtain ⟨ha, -⟩ := octets_cons.mp h
      intro d hd
      simp only [encode, List.mem_cons, List.not_mem_nil, or_false] at hd
      rcases hd with rfl | rfl
      · exact symbol_mem (by omega)
      · exact symbol_mem (by omega)
  | case4 =>
      intro d hd
      cases hd

theorem length_encode (bs : List ℕ) : (encode bs).length = (4 * bs.length + 2) / 3 := by
  induction bs using encode.induct with
  | case1 a b c rest ih =>
      simp only [encode, List.length_cons, ih]
      omega
  | case2 a b => simp [encode]
  | case3 a => simp [encode]
  | case4 => rfl

/-- A padding is all that `restored` adds. -/
theorem restored_encode (bs : List ℕ) : restored (encode bs) = padded bs := by
  induction bs using encode.induct with
  | case1 a b c rest ih =>
      have hlength : (4 - ((encode rest).length + 4) % 4) % 4 =
          (4 - (encode rest).length % 4) % 4 := by omega
      unfold restored at ih ⊢
      simp only [encode, padded, List.length_cons, List.cons_append, ← ih]
      rw [Nat.add_assoc, Nat.add_assoc, Nat.add_assoc, hlength]
  | case2 a b => rfl
  | case3 a => rfl
  | case4 => rfl

/-- And it is what `rstrip` takes away. -/
theorem rstrip_padded {bs : List ℕ} (h : Octets bs) : rstrip (padded bs) = encode bs := by
  rw [← restored_encode]
  unfold restored rstrip
  have hlast : (encode bs).rdropWhile (· == '=') = encode bs := by
    rw [List.rdropWhile_eq_self_iff]
    intro hne he
    rw [beq_iff_eq] at he
    exact padding_not_mem (he ▸ encode_mem h _ (List.getLast_mem hne))
  induction (4 - (encode bs).length % 4) % 4 with
  | zero => rw [List.replicate_zero, List.append_nil, hlast]
  | succ n ih =>
      rw [List.replicate_succ', ← List.append_assoc, List.rdropWhile_concat_pos _ _ _ (by simp), ih]

theorem decode_padded {bs : List ℕ} (h : Octets bs) : decode (padded bs) = some bs := by
  induction bs using padded.induct with
  | case1 a b c rest ih =>
      obtain ⟨ha, h⟩ := octets_cons.mp h
      obtain ⟨hb, h⟩ := octets_cons.mp h
      obtain ⟨hc, hrest⟩ := octets_cons.mp h
      have h1 : a / 4 * 4 + (a % 4 * 16 + b / 16) / 16 = a := by omega
      have h2 : (a % 4 * 16 + b / 16) % 16 * 16 + (b % 16 * 4 + c / 64) / 4 = b := by omega
      have h3 : (b % 16 * 4 + c / 64) % 4 * 64 + c % 64 = c := by omega
      have hi : value (symbol (a / 4)) = some (a / 4) := value_symbol (by omega)
      have hj : value (symbol (a % 4 * 16 + b / 16)) = some (a % 4 * 16 + b / 16) :=
        value_symbol (by omega)
      have hk : value (symbol (b % 16 * 4 + c / 64)) = some (b % 16 * 4 + c / 64) :=
        value_symbol (by omega)
      have hl : value (symbol (c % 64)) = some (c % 64) := value_symbol (by omega)
      rw [padded, decode, if_neg (symbol_ne_padding (by omega)), hi, hj, hk, hl, ih hrest]
      simp only [h1, h2, h3, List.cons_append, List.nil_append]
  | case2 a b =>
      obtain ⟨ha, h⟩ := octets_cons.mp h
      obtain ⟨hb, -⟩ := octets_cons.mp h
      have h1 : a / 4 * 4 + (a % 4 * 16 + b / 16) / 16 = a := by omega
      have h2 : (a % 4 * 16 + b / 16) % 16 * 16 + b % 16 * 4 / 4 = b := by omega
      have hi : value (symbol (a / 4)) = some (a / 4) := value_symbol (by omega)
      have hj : value (symbol (a % 4 * 16 + b / 16)) = some (a % 4 * 16 + b / 16) :=
        value_symbol (by omega)
      have hk : value (symbol (b % 16 * 4)) = some (b % 16 * 4) := value_symbol (by omega)
      rw [padded, decode, if_pos rfl, if_neg (not_not.mpr rfl),
        if_neg (symbol_ne_padding (by omega)), hi, hj, hk]
      simp only [h1, h2]
  | case3 a =>
      obtain ⟨ha, -⟩ := octets_cons.mp h
      have h1 : a / 4 * 4 + a % 4 * 16 / 16 = a := by omega
      have hi : value (symbol (a / 4)) = some (a / 4) := value_symbol (by omega)
      have hj : value (symbol (a % 4 * 16)) = some (a % 4 * 16) := value_symbol (by omega)
      rw [padded, decode, if_pos rfl, if_neg (not_not.mpr rfl), if_pos rfl, hi, hj]
      simp only [h1]
  | case4 => rw [padded, decode]

/-! ## The octets of a number -/

/-- `value.to_bytes(size, "big")`; `none` is an `OverflowError`. -/
def intToBytes (size value : ℕ) : Option (List ℕ) :=
  if value < 256 ^ size then some (toBytes size value) else none

/-- `int.from_bytes(octets, "big")`. -/
def ofBytes (bs : List ℕ) : ℕ := bs.foldl (fun n b => n * 256 + b) 0

/-- `(value.bit_length() + 7) // 8`. -/
def octetSize (value : ℕ) : ℕ := (Nat.size value + 7) / 8

theorem octets_toBytes (size value : ℕ) : Octets (toBytes size value) := by
  induction size generalizing value with
  | zero =>
      intro b hb
      cases hb
  | succ size ih =>
      intro b hb
      rcases List.mem_append.mp hb with hb | hb
      · exact ih (value / 256) b hb
      · rw [List.mem_singleton.mp hb]
        exact Nat.mod_lt value (by decide)

theorem ofBytes_toBytes {size value : ℕ} (h : value < 256 ^ size) :
    ofBytes (toBytes size value) = value := by
  induction size generalizing value with
  | zero => exact (Nat.lt_one_iff.mp h).symm
  | succ size ih =>
      have hhigh : value / 256 < 256 ^ size := by
        rw [Nat.pow_succ, Nat.mul_comm] at h
        exact Nat.div_lt_of_lt_mul h
      have hread := ih hhigh
      unfold ofBytes at hread ⊢
      rw [toBytes, List.foldl_append, hread]
      exact Nat.div_add_mod' value 256

/-- The first octet is the most significant. -/
theorem head_toBytes (size value : ℕ) :
    (toBytes (size + 1) value).head? = some (value / 256 ^ size % 256) := by
  induction size generalizing value with
  | zero => simp [toBytes]
  | succ size ih =>
      have hne : toBytes (size + 1) (value / 256) ≠ [] := by
        intro he
        have hhead := ih (value / 256)
        rw [he] at hhead
        cases hhead
      rw [toBytes, List.head?_append_of_ne_nil _ hne, ih, Nat.div_div_eq_div_mul, Nat.pow_succ,
        Nat.mul_comm]

theorem pow_eq (size : ℕ) : 256 ^ size = 2 ^ (8 * size) := by
  rw [Nat.pow_mul]

/-- The octets that are asked for hold the number. -/
theorem lt_pow_octetSize (value : ℕ) : value < 256 ^ octetSize value := by
  rw [pow_eq, ← Nat.size_le]
  unfold octetSize
  omega

/-- One octet less does not. -/
theorem pow_le_of_octetSize {value size : ℕ} (h : octetSize value = size + 1) :
    256 ^ size ≤ value := by
  rw [pow_eq, ← Nat.lt_size]
  unfold octetSize at h
  omega

/-- So the first of them is not zero. -/
theorem head_octets {value : ℕ} (h : 0 < value) :
    ∃ b rest, toBytes (octetSize value) value = b :: rest ∧ b ≠ 0 := by
  have hsize : octetSize value ≠ 0 := by
    intro he
    have hlt := lt_pow_octetSize value
    rw [he, Nat.pow_zero] at hlt
    omega
  obtain ⟨size, hsucc⟩ := Nat.exists_eq_succ_of_ne_zero hsize
  have hlt := lt_pow_octetSize value
  have hle := pow_le_of_octetSize hsucc
  rw [hsucc, Nat.pow_succ] at hlt
  rw [hsucc]
  have hhead := head_toBytes size value
  have hdigit : value / 256 ^ size < 256 := Nat.div_lt_of_lt_mul hlt
  have hpos : 0 < value / 256 ^ size := Nat.div_pos hle (Nat.pow_pos (by decide))
  rw [Nat.mod_eq_of_lt hdigit] at hhead
  cases hbytes : toBytes (size + 1) value with
  | nil =>
      rw [hbytes] at hhead
      cases hhead
  | cons b rest =>
      rw [hbytes] at hhead
      refine ⟨b, rest, rfl, ?_⟩
      rw [Option.some.inj hhead]
      omega

end TemisLab.Lib.Base64
