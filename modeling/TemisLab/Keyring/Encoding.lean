/-
  `_b64url` (`keyring.py`) with the calls it makes, and what the integers of a JWKS are read as.

  * `b64urlOf_eq`: `to_bytes` does not overflow, so the answer is `b64url`.
  * `b64url_round_trip`: a positive integer is a Base64urlUInt and is read back.
  * `jwk_injective`: a JWK tells its key.
-/
import TemisLab.Keyring.Records

namespace TemisLab.Keyring

open TemisLab.Lib

/-- `_b64url`; `none` is the `OverflowError` of `to_bytes`. -/
def b64urlOf (value : ℕ) : Option String :=
  let size := Base64.octetSize value
  (Base64.intToBytes size value).map fun octets =>
    String.ofList (Base64.rstrip (Base64.padded octets))

/-- The octets of a text: the padding is restored, and base64url decoded. -/
def octetsOf (text : String) : Option (List ℕ) := Base64.decode (Base64.restored text.toList)

/-- The text is the Base64urlUInt of `n`: the base64url, without padding, of the big-endian octets
    of `n`, the first of which is not zero. -/
structure IsUInt (text : String) (n : ℕ) : Prop where
  alphabet : ∀ c ∈ text.toList, c ∈ Base64.alphabet
  decoded : ∃ b rest, octetsOf text = some (b :: rest) ∧ b ≠ 0 ∧ Base64.ofBytes (b :: rest) = n

theorem b64urlOf_eq (value : ℕ) : b64urlOf value = some (b64url value) := by
  have hfits := Base64.lt_pow_octetSize value
  unfold b64urlOf Base64.intToBytes
  dsimp only
  rw [if_pos hfits, Option.map_some, Base64.rstrip_padded (Base64.octets_toBytes _ _)]
  rfl

theorem toList_b64url (value : ℕ) : (b64url value).toList =
    Base64.encode (Base64.toBytes (Base64.octetSize value) value) := String.toList_ofList

/-- What is encoded is decoded. -/
theorem octetsOf_b64url (value : ℕ) :
    octetsOf (b64url value) = some (Base64.toBytes (Base64.octetSize value) value) := by
  unfold octetsOf
  rw [toList_b64url, Base64.restored_encode, Base64.decode_padded (Base64.octets_toBytes _ _)]

theorem b64url_injective : Function.Injective b64url := by
  intro m n h
  have hoctets := octetsOf_b64url m
  rw [h, octetsOf_b64url n, Option.some.injEq] at hoctets
  rw [← Base64.ofBytes_toBytes (Base64.lt_pow_octetSize m), ← hoctets,
    Base64.ofBytes_toBytes (Base64.lt_pow_octetSize n)]

/-- Two keys have different JWKs. -/
theorem jwk_injective (kid : String) : Function.Injective (Jwk.of kid) := by
  intro key key' h
  simp only [Jwk.of, Jwk.mk.injEq] at h
  obtain ⟨-, -, -, -, hn, he⟩ := h
  have hn' := b64url_injective hn
  have he' := b64url_injective he
  cases key
  cases key'
  cases hn'
  cases he'
  rfl

/-- For every positive integer: `_b64url` overflows nowhere, its text is the integer's
    Base64urlUInt, and no other integer has it. -/
theorem b64url_round_trip (n : ℕ) (hn : 0 < n) :
    ∃ text, b64urlOf n = some text ∧ IsUInt text n ∧ ∀ m, b64urlOf m = some text → m = n := by
  refine ⟨b64url n, b64urlOf_eq n, ⟨?_, ?_⟩, ?_⟩
  · intro c hc
    rw [toList_b64url] at hc
    exact Base64.encode_mem (Base64.octets_toBytes _ _) c hc
  · obtain ⟨b, rest, hbytes, hb⟩ := Base64.head_octets hn
    refine ⟨b, rest, ?_, hb, ?_⟩
    · rw [octetsOf_b64url, hbytes]
    · rw [← hbytes, Base64.ofBytes_toBytes (Base64.lt_pow_octetSize n)]
  · intro m hm
    rw [b64urlOf_eq, Option.some.injEq] at hm
    exact b64url_injective hm

/-- The public exponent. -/
theorem b64url_round_trip_exponent :
    b64urlOf 65537 = some "AQAB" ∧ ∃ text, b64urlOf 65537 = some text ∧ IsUInt text 65537 ∧
      ∀ m, b64urlOf m = some text → m = 65537 :=
  ⟨by decide +kernel, b64url_round_trip 65537 (by decide)⟩

end TemisLab.Keyring
