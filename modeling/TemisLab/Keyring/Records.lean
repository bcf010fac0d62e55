/-
  The key ring (`keyring.py`): its records and key files, and the operations as functions on
  them. `publish`, `activate` and `retire` each read the record list, check it, and save a new
  one; `active_kid`, `sign_claims`, `verification_key` and `jwks` only read.

  Times are seconds; the rounding of the clock's floats is not modelled. A generated key pair
  and its kid (a digest of the public key) are arguments of `publish`.
-/
import TemisLab.Lib.Base64
import TemisLab.Lib.Slots
import TemisLab.Sso.Tokens
import Mathlib.Tactic.Linarith

namespace TemisLab.Keyring

open TemisLab.Lib TemisLab.Sso

/-- The values of `KeyRecord.state`. -/
inductive KeyState where
  | published | active | retiring | retired
  deriving DecidableEq, Repr

structure KeyRecord where
  kid : String
  state : KeyState
  publishedAt : Time
  activatedAt : Option Time
  retiringAt : Option Time
  deriving DecidableEq, Repr

/-- The numbers of an RSA public key. -/
structure PublicKey where
  n : ℕ
  e : ℕ
  deriving DecidableEq, Repr

/-- A private key file's content: the public numbers and the private exponent. -/
structure KeyPair where
  publicKey : PublicKey
  d : ℕ
  deriving DecidableEq, Repr

/-- What the ring's directory holds: `keyring.json` and the PEM files by kid. -/
structure Ring where
  records : List KeyRecord
  privatePem : String → Option KeyPair
  publicPem : String → Option PublicKey

def Ring.empty : Ring := ⟨[], fun _ => none, fun _ => none⟩

/-- `ValueError`s of the operations, the `RuntimeError` of an absent signer, the
    `FileNotFoundError` of an absent file, and the error of a file that is not fully written. -/
inductive RingError where
  | notPublished | notRetiring | overlapNotElapsed | noActiveSigningKey | notVerifiable
  | missingFile | brokenFile
  deriving DecidableEq, Repr

/-- `MINIMUM_OVERLAP_SECONDS`. -/
def minimumOverlapSeconds : ℚ := 600 + 60 + 300

/-- A constructed `KeyRing`: the constructor refuses a shorter overlap. -/
structure KeyRing where
  overlapSeconds : ℚ
  minimum : minimumOverlapSeconds ≤ overlapSeconds

/-- The default overlap of the constructor. -/
def KeyRing.default : KeyRing := ⟨960, by norm_num [minimumOverlapSeconds]⟩

/-! ## The record list -/

/-- `next((record for record in records if record["kid"] == kid), None)`. -/
def find (records : List KeyRecord) (kid : String) : Option KeyRecord :=
  records.find? fun r => r.kid = kid

/-- An assignment to the first record of a kid. -/
def setFirst (kid : String) (f : KeyRecord → KeyRecord) : List KeyRecord → List KeyRecord
  | [] => []
  | r :: rs => if r.kid = kid then f r :: rs else r :: setFirst kid f rs

/-- The record `publish` appends. -/
def newRecord (kid : String) (now : Time) : KeyRecord := ⟨kid, .published, now, none, none⟩

/-- An active record hands over to the next key. -/
def KeyRecord.handOver (now : Time) (r : KeyRecord) : KeyRecord :=
  if r.state = .active then { r with state := .retiring, retiringAt := some now } else r

def KeyRecord.activated (now : Time) (r : KeyRecord) : KeyRecord :=
  { r with state := .active, activatedAt := some now }

def KeyRecord.retired (r : KeyRecord) : KeyRecord := { r with state := .retired }

/-- `activate`, from the list it reads to the list it saves. -/
def activateRecords (records : List KeyRecord) (kid : String) (now : Time) :
    Except RingError (List KeyRecord) :=
  match find records kid with
  | none => .error .notPublished
  | some target =>
      if target.state ≠ .published then .error .notPublished
      else .ok (setFirst kid (KeyRecord.activated now) (records.map (KeyRecord.handOver now)))

/-- `retire`, from the list it reads to the list it saves. -/
def retireRecords (overlap : ℚ) (records : List KeyRecord) (kid : String) (now : Time) :
    Except RingError (List KeyRecord) :=
  match find records kid with
  | none => .error .notRetiring
  | some target =>
      if target.state ≠ .retiring then .error .notRetiring
      else
        match target.retiringAt with
        | none => .error .overlapNotElapsed
        | some retiringAt =>
            if now - retiringAt < overlap then .error .overlapNotElapsed
            else .ok (setFirst kid KeyRecord.retired records)

/-- The first active record. -/
def activeRecord (records : List KeyRecord) : Option KeyRecord :=
  records.find? fun r => r.state = .active

/-- The records `jwks` lists. -/
def listed (records : List KeyRecord) : List KeyRecord :=
  records.filter fun r => r.state ≠ .retired

/-! ## The operations -/

/-- A call of an operation that changes the ring. -/
inductive RingOp where
  | publish (kid : String) (pair : KeyPair)
  | activate (kid : String)
  | retire (kid : String)
  deriving DecidableEq, Repr

/-- What an operation does to the record list. -/
def RingOp.records (overlap : ℚ) (records : List KeyRecord) (now : Time) :
    RingOp → Except RingError (List KeyRecord)
  | .publish kid _ => .ok (records ++ [newRecord kid now])
  | .activate kid => activateRecords records kid now
  | .retire kid => retireRecords overlap records kid now

/-- `publish`. -/
def publish (ring : Ring) (kid : String) (pair : KeyPair) (now : Time) : Ring where
  records := ring.records ++ [newRecord kid now]
  privatePem := Function.update ring.privatePem kid (some pair)
  publicPem := Function.update ring.publicPem kid (some pair.publicKey)

/-- A private key after a publication is the new one or an old one. -/
theorem privatePem_publish {ring : Ring} {kid kid' : String} {pair pair' : KeyPair} {now : Time}
    (h : (publish ring kid pair now).privatePem kid' = some pair') :
    (kid' ≠ kid ∧ ring.privatePem kid' = some pair') ∨ (kid' = kid ∧ pair' = pair) := slot_set h

/-- A public key after a publication is the new one or an old one. -/
theorem publicPem_publish {ring : Ring} {kid kid' : String} {pair : KeyPair} {key : PublicKey}
    {now : Time} (h : (publish ring kid pair now).publicPem kid' = some key) :
    (kid' ≠ kid ∧ ring.publicPem kid' = some key) ∨ (kid' = kid ∧ key = pair.publicKey) :=
  slot_set h

/-- An operation that runs alone; a refused one leaves the ring. -/
def RingOp.apply (keyRing : KeyRing) (ring : Ring) (now : Time) : RingOp → Except RingError Ring
  | .publish kid pair => .ok (Keyring.publish ring kid pair now)
  | .activate kid =>
      (activateRecords ring.records kid now).map fun records => { ring with records }
  | .retire kid =>
      (retireRecords keyRing.overlapSeconds ring.records kid now).map
        fun records => { ring with records }

/-- `active_kid`. -/
def activeKid (ring : Ring) : Except RingError String :=
  match activeRecord ring.records with
  | none => .error .noActiveSigningKey
  | some active => .ok active.kid

/-- `sign_claims`: the kid of the header and the key that signs. -/
def signClaims (ring : Ring) : Except RingError (String × KeyPair) :=
  match activeRecord ring.records with
  | none => .error .noActiveSigningKey
  | some active =>
      match ring.privatePem active.kid with
      | none => .error .missingFile
      | some pair => .ok (active.kid, pair)

/-- `verification_key`. -/
def verificationKey (ring : Ring) (kid : String) : Except RingError PublicKey :=
  match ring.records.find? fun r => r.kid = kid && r.state ≠ .retired with
  | none => .error .notVerifiable
  | some _ =>
      match ring.publicPem kid with
      | none => .error .missingFile
      | some key => .ok key

/-- `_b64url`. -/
def b64url (value : ℕ) : String := Base64.encodeNat value

structure Jwk where
  kty : String := "RSA"
  use : String := "sig"
  alg : String := "RS256"
  kid : String
  n : String
  e : String
  deriving DecidableEq, Repr

def Jwk.of (kid : String) (key : PublicKey) : Jwk := { kid, n := b64url key.n, e := b64url key.e }

/-- `jwks`. -/
def jwks (ring : Ring) : Except RingError (List Jwk) :=
  (listed ring.records).mapM fun record =>
    match ring.publicPem record.kid with
    | none => .error .missingFile
    | some key => .ok (Jwk.of record.kid key)

/-- The kids `verify_access` finds a key for. -/
def verifies (ring : Ring) (kid : String) : Bool := (verificationKey ring kid).isOk

/-! ## The record of a kid -/

/-- A reading of a list of files that are all there. -/
theorem mapM_ok {α β ε : Type} {f : α → Except ε β} {g : α → β} {l : List α}
    (h : ∀ a ∈ l, f a = .ok (g a)) : l.mapM f = .ok (l.map g) := by
  induction l with
  | nil => rfl
  | cons a l ih =>
      rw [List.mapM_cons, h a List.mem_cons_self,
        ih fun b hb => h b (List.mem_cons_of_mem a hb)]
      rfl

@[simp] theorem KeyRecord.handOver_kid (now : Time) (r : KeyRecord) :
    (r.handOver now).kid = r.kid := by
  unfold KeyRecord.handOver
  split <;> rfl

/-- Only an active record hands over. -/
theorem KeyRecord.handOver_of_ne {r : KeyRecord} (h : r.state ≠ .active) (now : Time) :
    r.handOver now = r := by
  unfold KeyRecord.handOver
  rw [if_neg h]

@[simp] theorem KeyRecord.activated_kid (now : Time) (r : KeyRecord) :
    (r.activated now).kid = r.kid := rfl

@[simp] theorem KeyRecord.retired_kid (r : KeyRecord) : r.retired.kid = r.kid := rfl

theorem kid_of_find {records : List KeyRecord} {kid : String} {r : KeyRecord}
    (h : find records kid = some r) : r ∈ records ∧ r.kid = kid :=
  ⟨List.mem_of_find?_eq_some h, by simpa using List.find?_some h⟩

theorem find_eq_none {records : List KeyRecord} {kid : String} :
    find records kid = none ↔ ∀ r ∈ records, r.kid ≠ kid := by
  simp [find, List.find?_eq_none]

/-- Where kids are unique, each record is found by its kid. -/
theorem find_of_mem {records : List KeyRecord} (hn : (records.map KeyRecord.kid).Nodup)
    {r : KeyRecord} (h : r ∈ records) : find records r.kid = some r := by
  cases hf : find records r.kid with
  | none => exact absurd rfl (find_eq_none.mp hf r h)
  | some r' =>
      obtain ⟨hmem, hkid⟩ := kid_of_find hf
      rw [List.inj_on_of_nodup_map hn hmem h hkid]

theorem find_setFirst (kid k : String) (f : KeyRecord → KeyRecord)
    (hf : ∀ r, (f r).kid = r.kid) (records : List KeyRecord) :
    find (setFirst kid f records) k =
      if k = kid then (find records k).map f else find records k := by
  unfold find
  induction records with
  | nil => simp [setFirst]
  | cons r rs ih =>
      unfold setFirst
      by_cases hr : r.kid = kid
      · rw [if_pos hr]
        by_cases hk : k = kid
        · simp [hf, hr, hk]
        · have hne : ¬ r.kid = k := fun he => hk (he.symm.trans hr)
          simp [hf, hk, hne]
      · rw [if_neg hr]
        by_cases hk : r.kid = k
        · have hne : ¬ k = kid := fun he => hr (hk.trans he)
          simp [hk, hne]
        · simp only [List.find?_cons, hk, decide_false]
          exact ih

theorem find_map (f : KeyRecord → KeyRecord) (hf : ∀ r, (f r).kid = r.kid)
    (records : List KeyRecord) (k : String) :
    find (records.map f) k = (find records k).map f := by
  have hp : ((fun r : KeyRecord => decide (r.kid = k)) ∘ f) = fun r => decide (r.kid = k) := by
    funext r
    simp [hf]
  unfold find
  rw [List.find?_map, hp]

theorem find_append (records : List KeyRecord) (r : KeyRecord) (k : String) :
    find (records ++ [r]) k =
      (find records k).or (if r.kid = k then some r else none) := by
  unfold find
  rw [List.find?_append]
  by_cases hk : r.kid = k <;> simp [hk]

theorem kids_setFirst (kid : String) (f : KeyRecord → KeyRecord) (hf : ∀ r, (f r).kid = r.kid)
    (records : List KeyRecord) :
    (setFirst kid f records).map KeyRecord.kid = records.map KeyRecord.kid := by
  induction records with
  | nil => rfl
  | cons r rs ih =>
      unfold setFirst
      split
      · simp [hf]
      · simp [ih]

theorem activeRecord_eq_some {records : List KeyRecord} {r : KeyRecord}
    (h : activeRecord records = some r) : r ∈ records ∧ r.state = .active :=
  ⟨List.mem_of_find?_eq_some h, by simpa using List.find?_some h⟩

/-- `activate` found a published record; it hands over and activates. -/
theorem activateRecords_eq_ok {records records' : List KeyRecord} {kid : String} {now : Time}
    (h : activateRecords records kid now = .ok records') :
    (∃ target, find records kid = some target ∧ target.state = .published) ∧
      records'.map KeyRecord.kid = records.map KeyRecord.kid ∧
      ∀ k, find records' k = (find records k).map fun r =>
        if k = kid then (r.handOver now).activated now else r.handOver now := by
  unfold activateRecords at h
  split at h
  · cases h
  · next target ht =>
      split at h
      · cases h
      · next hs =>
          cases h
          refine ⟨⟨target, ht, not_not.mp hs⟩, ?_, ?_⟩
          · rw [kids_setFirst kid _ (KeyRecord.activated_kid now), List.map_map]
            exact List.map_congr_left fun r _ => KeyRecord.handOver_kid now r
          · intro k
            rw [find_setFirst kid k _ (KeyRecord.activated_kid now),
              find_map _ (KeyRecord.handOver_kid now)]
            by_cases hk : k = kid <;> simp [hk, Function.comp_def]

/-- `retire` found a retiring record whose overlap has elapsed. -/
theorem retireRecords_eq_ok {overlap : ℚ} {records records' : List KeyRecord} {kid : String}
    {now : Time} (h : retireRecords overlap records kid now = .ok records') :
    (∃ target τ, find records kid = some target ∧ target.state = .retiring ∧
      target.retiringAt = some τ ∧ τ + overlap ≤ now) ∧
      records'.map KeyRecord.kid = records.map KeyRecord.kid ∧
      ∀ k, find records' k = (find records k).map fun r => if k = kid then r.retired else r := by
  unfold retireRecords at h
  split at h
  · cases h
  · next target ht =>
      split at h
      · cases h
      · next hs =>
          split at h
          · cases h
          · next τ hτ =>
              split at h
              · cases h
              · next hlt =>
                  cases h
                  refine ⟨⟨target, τ, ht, not_not.mp hs, hτ, by linarith⟩, ?_, ?_⟩
                  · exact kids_setFirst kid _ KeyRecord.retired_kid records
                  · intro k
                    rw [find_setFirst kid k _ KeyRecord.retired_kid]
                    by_cases hk : k = kid
                    · simp [hk]
                    · simp [hk]

/-- An operation that succeeds appends a record with its files, or changes records only. -/
theorem RingOp.apply_eq_ok {keyRing : KeyRing} {ring ring' : Ring} {op : RingOp} {now : Time}
    (h : op.apply keyRing ring now = .ok ring') :
    (∃ kid pair, op = .publish kid pair ∧ ring' = Keyring.publish ring kid pair now) ∨
      ∃ records, ring' = { ring with records } ∧
        records.map KeyRecord.kid = ring.records.map KeyRecord.kid := by
  cases op with
  | publish kid pair =>
      cases h
      exact Or.inl ⟨kid, pair, rfl, rfl⟩
  | activate kid =>
      simp only [RingOp.apply] at h
      cases hr : activateRecords ring.records kid now with
      | error e =>
          rw [hr] at h
          cases h
      | ok records =>
          rw [hr] at h
          cases h
          exact Or.inr ⟨records, rfl, (activateRecords_eq_ok hr).2.1⟩
  | retire kid =>
      simp only [RingOp.apply] at h
      cases hr : retireRecords keyRing.overlapSeconds ring.records kid now with
      | error e =>
          rw [hr] at h
          cases h
      | ok records =>
          rw [hr] at h
          cases h
          exact Or.inr ⟨records, rfl, (retireRecords_eq_ok hr).2.1⟩

/-- It acts on the record list as `RingOp.records` says. -/
theorem RingOp.apply_of_records {keyRing : KeyRing} {ring : Ring} {op : RingOp} {now : Time}
    {records : List KeyRecord}
    (h : op.records keyRing.overlapSeconds ring.records now = .ok records) :
    ∃ ring', op.apply keyRing ring now = .ok ring' ∧ ring'.records = records := by
  cases op with
  | publish kid pair =>
      cases h
      exact ⟨_, rfl, rfl⟩
  | activate kid =>
      simp only [RingOp.records] at h
      exact ⟨{ ring with records }, by simp only [RingOp.apply, h, Except.map], rfl⟩
  | retire kid =>
      simp only [RingOp.records] at h
      exact ⟨{ ring with records }, by simp only [RingOp.apply, h, Except.map], rfl⟩

end TemisLab.Keyring
