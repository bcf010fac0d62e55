/-
  UTF-8: the octets of a text, and Python's decoder of octets. An ill-formed sequence is an error
  at the octet that rules it out, which is then read anew; so an error covers the longest beginning
  of a sequence (`errors="replace"` puts one U+FFFD there).

  * `decode_encodeChar`: the octets of a character are decoded as it, whatever stands before.
  * `length_octet_le`: an octet gives one character at most, an open sequence counted as one.
-/
import Mathlib.Data.List.Basic
import Mathlib.Tactic.IntervalCases

namespace TemisLab.Lib.Utf8

/-- The octets of a character. -/
def encodeChar (c : Char) : List ℕ :=
  let n := c.toNat
  if n < 0x80 then [n]
  else if n < 0x800 then [0xC0 + n / 64, 0x80 + n % 64]
  else if n < 0x10000 then [0xE0 + n / 4096, 0x80 + n / 64 % 64, 0x80 + n % 64]
  else [0xF0 + n / 262144, 0x80 + n / 4096 % 64, 0x80 + n / 64 % 64, 0x80 + n % 64]

/-- `text.encode()`. -/
def encode (cs : List Char) : List ℕ := cs.flatMap encodeChar

/-- A sequence that has begun: how many octets are to come, between which bounds the next one is,
    and the bits so far. -/
structure Pending where
  need : ℕ
  low : ℕ
  high : ℕ
  bits : ℕ
  deriving DecidableEq, Repr

/-- An octet between two sequences: what it gives, and what it begins. `none` is an error. -/
def lead (b : ℕ) : List (Option Char) × Option Pending :=
  if b < 0x80 then ([some (Char.ofNat b)], none)
  else if 0xC2 ≤ b ∧ b ≤ 0xDF then ([], some ⟨1, 0x80, 0xBF, b - 0xC0⟩)
  else if b = 0xE0 then ([], some ⟨2, 0xA0, 0xBF, 0⟩)
  else if b = 0xED then ([], some ⟨2, 0x80, 0x9F, 0xD⟩)
  else if 0xE1 ≤ b ∧ b ≤ 0xEF then ([], some ⟨2, 0x80, 0xBF, b - 0xE0⟩)
  else if b = 0xF0 then ([], some ⟨3, 0x90, 0xBF, 0⟩)
  else if 0xF1 ≤ b ∧ b ≤ 0xF3 then ([], some ⟨3, 0x80, 0xBF, b - 0xF0⟩)
  else if b = 0xF4 then ([], some ⟨3, 0x80, 0x8F, 4⟩)
  else ([none], none)

/-- An octet in a sequence, or between two. -/
def octet (pending : Option Pending) (b : ℕ) : List (Option Char) × Option Pending :=
  match pending with
  | none => lead b
  | some p =>
      if p.low ≤ b ∧ b ≤ p.high then
        let bits := p.bits * 64 + (b - 0x80)
        if p.need ≤ 1 then ([some (Char.ofNat bits)], none)
        else ([], some ⟨p.need - 1, 0x80, 0xBF, bits⟩)
      else (none :: (lead b).1, (lead b).2)

/-- The characters of octets, with the errors between them. -/
def decodeFrom (pending : Option Pending) : List ℕ → List (Option Char)
  | [] => if pending.isSome then [none] else []
  | b :: bs => (octet pending b).1 ++ decodeFrom (octet pending b).2 bs

def decode (bs : List ℕ) : List (Option Char) := decodeFrom none bs

/-- `bytes.decode()`: `none` is a `UnicodeDecodeError`. -/
def decodeStrict (bs : List ℕ) : Option (List Char) := (decode bs).mapM id

/-- `bytes.decode(errors="replace")`. -/
def decodeReplace (bs : List ℕ) : List Char :=
  (decode bs).map fun c => c.getD (Char.ofNat 0xFFFD)

/-! ## Round trip -/

/-- What an open sequence gives when another character follows. -/
def cut (pending : Option Pending) : List (Option Char) := if pending.isSome then [none] else []

/-- The octets that continue a sequence are those from 80 to BF. -/
def Pending.Sane (p : Pending) : Prop := 0x80 ≤ p.low ∧ p.high ≤ 0xBF

def Open (pending : Option Pending) : Prop := ∀ p ∈ pending, p.Sane

theorem open_none : Open none := fun p hp => by cases hp

theorem open_lead (b : ℕ) : Open (lead b).2 := by
  unfold lead Open Pending.Sane
  repeat' split
  all_goals simp

theorem open_octet (pending : Option Pending) (b : ℕ) : Open (octet pending b).2 := by
  unfold octet
  split
  · exact open_lead b
  · split
    · dsimp only
      split
      · exact open_none
      · intro p hp
        cases hp
        exact ⟨le_refl _, le_refl _⟩
    · exact open_lead b

/-- An octet that continues no sequence ends an open one. -/
theorem octet_lead {pending : Option Pending} (h : Open pending) {b : ℕ}
    (hb : b < 0x80 ∨ 0xBF < b) : octet pending b = (cut pending ++ (lead b).1, (lead b).2) := by
  unfold octet cut
  cases pending with
  | none => rfl
  | some p =>
      have hp := h p rfl
      unfold Pending.Sane at hp
      have hno : ¬ (p.low ≤ b ∧ b ≤ p.high) := by omega
      simp only [if_neg hno, Option.isSome_some, if_true]
      rfl

/-- An octet gives something, or a sequence is open behind it. -/
theorem lead_shows (b : ℕ) : (lead b).1 ≠ [] ∨ (lead b).2 ≠ none := by
  unfold lead
  repeat' split
  all_goals simp

theorem octet_shows (pending : Option Pending) (b : ℕ) :
    (octet pending b).1 ≠ [] ∨ (octet pending b).2 ≠ none := by
  unfold octet
  split
  · exact lead_shows b
  · split
    · dsimp only
      split <;> simp
    · exact .inl (List.cons_ne_nil _ _)

theorem decodeFrom_lead {pending : Option Pending} (h : Open pending) {b : ℕ}
    (hb : b < 0x80 ∨ 0xBF < b) (bs : List ℕ) :
    decodeFrom pending (b :: bs) = cut pending ++ ((lead b).1 ++ decodeFrom (lead b).2 bs) := by
  simp only [decodeFrom, octet_lead h hb, List.append_assoc]

/-- The octet a sequence ends with. -/
theorem decodeFrom_last {low high bits b : ℕ} (hb : low ≤ b ∧ b ≤ high) (bs : List ℕ) :
    decodeFrom (some ⟨1, low, high, bits⟩) (b :: bs) =
      some (Char.ofNat (bits * 64 + (b - 0x80))) :: decodeFrom none bs := by
  simp [decodeFrom, octet, hb]

/-- One that another follows. -/
theorem decodeFrom_more {need low high bits b : ℕ} (hb : low ≤ b ∧ b ≤ high) (bs : List ℕ) :
    decodeFrom (some ⟨need + 2, low, high, bits⟩) (b :: bs) =
      decodeFrom (some ⟨need + 1, 0x80, 0xBF, bits * 64 + (b - 0x80)⟩) bs := by
  simp [decodeFrom, octet, hb]

/-- A scalar value is no surrogate. -/
theorem toNat_scalar (c : Char) : c.toNat < 0xD800 ∨ (0xDFFF < c.toNat ∧ c.toNat < 0x110000) := c.2

/-- What is begun by the first octet of three: after E0 and ED not every octet follows. -/
theorem lead_three {n : ℕ} (h₁ : 0x800 ≤ n) (h₂ : n < 0x10000) (hs : n < 0xD800 ∨ 0xDFFF < n) :
    ∃ low high, lead (0xE0 + n / 4096) = ([], some ⟨2, low, high, n / 4096⟩) ∧
      low ≤ 0x80 + n / 64 % 64 ∧ 0x80 + n / 64 % 64 ≤ high := by
  unfold lead
  rcases (by omega : n / 4096 = 0 ∨ n / 4096 = 13 ∨
      (n / 4096 ≠ 0 ∧ n / 4096 ≠ 13 ∧ n / 4096 < 16)) with h | h | ⟨h, h', h''⟩
  · refine ⟨0xA0, 0xBF, ?_, by omega, by omega⟩
    simp [h]
  · refine ⟨0x80, 0x9F, ?_, by omega, by omega⟩
    simp [h]
  · refine ⟨0x80, 0xBF, ?_, by omega, by omega⟩
    rw [if_neg (by omega), if_neg (by omega), if_neg (by omega), if_neg (by omega),
      if_pos (by omega)]
    rw [Nat.add_sub_cancel_left]

/-- What is begun by the first octet of four: after F0 and F4 not every octet follows. -/
theorem lead_four {n : ℕ} (h₁ : 0x10000 ≤ n) (h₂ : n < 0x110000) :
    ∃ low high, lead (0xF0 + n / 262144) = ([], some ⟨3, low, high, n / 262144⟩) ∧
      low ≤ 0x80 + n / 4096 % 64 ∧ 0x80 + n / 4096 % 64 ≤ high := by
  unfold lead
  rcases (by omega : n / 262144 = 0 ∨ n / 262144 = 4 ∨
      (0 < n / 262144 ∧ n / 262144 < 4)) with h | h | ⟨h, h'⟩
  · refine ⟨0x90, 0xBF, ?_, by omega, by omega⟩
    simp [h]
  · refine ⟨0x80, 0x8F, ?_, by omega, by omega⟩
    simp [h]
  · refine ⟨0x80, 0xBF, ?_, by omega, by omega⟩
    rw [if_neg (by omega), if_neg (by omega), if_neg (by omega), if_neg (by omega),
      if_neg (by omega), if_neg (by omega), if_pos (by omega)]
    rw [Nat.add_sub_cancel_left]

theorem decodeFrom_encodeChar {pending : Option Pending} (h : Open pending) (c : Char)
    (bs : List ℕ) :
    decodeFrom pending (encodeChar c ++ bs) = cut pending ++ some c :: decodeFrom none bs := by
  have hc := toNat_scalar c
  have hofNat : Char.ofNat c.toNat = c := Char.ofNat_toNat c
  generalize hn : c.toNat = n at hc hofNat
  unfold encodeChar
  simp only [hn]
  split
  · next h₁ =>
      have hlead : lead n = ([some c], none) := by simp [lead, h₁, hofNat]
      rw [List.cons_append, decodeFrom_lead h (by omega), hlead]
      rfl
  · split
    · next h₁ h₂ =>
        have hlead : lead (0xC0 + n / 64) = ([], some ⟨1, 0x80, 0xBF, n / 64⟩) := by
          unfold lead
          rw [if_neg (by omega), if_pos (by omega)]
          rw [Nat.add_sub_cancel_left]
        have hbits : n / 64 * 64 + (0x80 + n % 64 - 0x80) = n := by omega
        rw [List.cons_append, decodeFrom_lead h (by omega), hlead, List.cons_append,
          decodeFrom_last (by omega), hbits, hofNat]
        rfl
    · split
      · next h₁ h₂ h₃ =>
          obtain ⟨low, high, hlead, hbounds⟩ := lead_three (n := n) (by omega) h₃ (by omega)
          have hbits : (n / 4096 * 64 + (0x80 + n / 64 % 64 - 0x80)) * 64 +
              (0x80 + n % 64 - 0x80) = n := by omega
          rw [List.cons_append, decodeFrom_lead h (by omega), hlead, List.cons_append,
            decodeFrom_more hbounds, List.cons_append, decodeFrom_last (by omega), hbits, hofNat]
          rfl
      · next h₁ h₂ h₃ =>
          obtain ⟨low, high, hlead, hbounds⟩ := lead_four (n := n) (by omega) (by omega)
          have hbits : ((n / 262144 * 64 + (0x80 + n / 4096 % 64 - 0x80)) * 64 +
              (0x80 + n / 64 % 64 - 0x80)) * 64 + (0x80 + n % 64 - 0x80) = n := by omega
          rw [List.cons_append, decodeFrom_lead h (by omega), hlead, List.cons_append,
            decodeFrom_more hbounds, List.cons_append, decodeFrom_more (by omega),
            List.cons_append, decodeFrom_last (by omega), hbits, hofNat]
          rfl

/-- The octets of a character stand for it, and for nothing else. -/
theorem decode_encodeChar {pending : Option Pending} (h : Open pending) (as : List ℕ) (c : Char)
    (bs : List ℕ) :
    decodeFrom pending (as ++ (encodeChar c ++ bs)) =
      decodeFrom pending as ++ some c :: decodeFrom none bs := by
  induction as generalizing pending with
  | nil => exact decodeFrom_encodeChar h c bs
  | cons a as ih =>
      rw [List.cons_append, decodeFrom, decodeFrom, ih (open_octet pending a), List.append_assoc]

theorem encodeChar_ne_nil (c : Char) : encodeChar c ≠ [] := by
  unfold encodeChar
  dsimp only
  repeat' split
  all_goals simp

theorem encodeChar_lt {c : Char} {b : ℕ} (hb : b ∈ encodeChar c) : b < 256 := by
  have hc := toNat_scalar c
  unfold encodeChar at hb
  dsimp only at hb
  repeat' split at hb
  all_goals
    simp only [List.mem_cons, List.not_mem_nil, or_false] at hb
    omega

theorem decode_encode (cs : List Char) : decode (encode cs) = cs.map some := by
  unfold decode
  induction cs with
  | nil => rfl
  | cons c cs ih =>
      rw [encode, List.flatMap_cons, decodeFrom_encodeChar open_none, ← encode, ih]
      rfl

theorem decodeReplace_encode (cs : List Char) : decodeReplace (encode cs) = cs := by
  unfold decodeReplace
  rw [decode_encode, List.map_map]
  exact List.map_id cs

/-! ## Length -/

theorem decodeStrict_encode (cs : List Char) : decodeStrict (encode cs) = some cs := by
  unfold decodeStrict
  rw [decode_encode]
  induction cs with
  | nil => rfl
  | cons c cs ih => rw [List.map_cons, List.mapM_cons, ih]; rfl

/-- Each octet shows: at once, or in the sequence that is open behind it. -/
theorem decodeFrom_eq_nil {pending : Option Pending} {bs : List ℕ} :
    decodeFrom pending bs = [] ↔ pending = none ∧ bs = [] := by
  refine ⟨?_, by rintro ⟨rfl, rfl⟩; rfl⟩
  intro h
  induction bs generalizing pending with
  | nil =>
      cases pending with
      | none => exact ⟨rfl, rfl⟩
      | some p => cases h
  | cons b bs ih =>
      obtain ⟨hnow, hrest⟩ := List.append_eq_nil_iff.mp h
      rcases octet_shows pending b with hshow | hopen
      · exact absurd hnow hshow
      · exact absurd (ih hrest).1 hopen

/-- An octet gives what it closes and what it is; an open sequence counts as one. -/
theorem length_octet_le (pending : Option Pending) (b : ℕ) :
    (octet pending b).1.length + (cut (octet pending b).2).length ≤ (cut pending).length + 1 := by
  have hlead : (lead b).1.length + (cut (lead b).2).length ≤ 1 := by
    unfold lead cut
    repeat' split
    all_goals simp_all
  unfold octet
  split
  · simpa [cut] using hlead
  · split
    · dsimp only
      split <;> simp [cut]
    · simp only [List.length_cons, cut, Option.isSome_some, if_true] at hlead ⊢
      simp only [List.length_nil]
      omega

end TemisLab.Lib.Utf8
