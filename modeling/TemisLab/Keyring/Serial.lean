/-
  The serial ring: the operations of a history, one after another on an empty ring, and what a
  reader answers from it. Each key file comes from a `publish` of the history and each record
  has both of its own (`supplied`), so a serial ring never misses one (`answer_of_supplied`). A
  `Snapshot` is the serial ring after the first entries of a history, at a moment of a reader's
  call; `Collects` is a reader part of the way through the key files of one.
-/
import TemisLab.Keyring.Files
import Mathlib.Data.List.Induction

namespace TemisLab.Keyring

open TemisLab.Lib TemisLab.Sso

/-- The operations of the history, one after another. -/
def replay (rings : ℕ → KeyRing) (log : List Entry) : Except RingError Ring :=
  log.foldlM (fun ring e => e.op.apply (rings e.process) ring e.time) .empty

theorem replay_append (rings : ℕ → KeyRing) (log : List Entry) (e : Entry) :
    replay rings (log ++ [e]) =
      (replay rings log).bind fun ring => e.op.apply (rings e.process) ring e.time := by
  simp only [replay, List.foldlM_append, List.foldlM_cons, List.foldlM_nil, bind_pure]
  rfl

/-- A property of the empty ring that each operation keeps. -/
theorem replay_induction {rings : ℕ → KeyRing} {P : List Entry → Ring → Prop}
    (h0 : P [] .empty)
    (hstep : ∀ log ring e ring', P log ring →
      e.op.apply (rings e.process) ring e.time = .ok ring' → P (log ++ [e]) ring')
    {log : List Entry} {ring : Ring} (h : replay rings log = .ok ring) : P log ring := by
  induction log using List.reverseRecOn generalizing ring with
  | nil =>
      cases h
      exact h0
  | append_singleton log e ih =>
      rw [replay_append] at h
      cases hr : replay rings log with
      | error err =>
          rw [hr] at h
          cases h
      | ok before =>
          rw [hr] at h
          exact hstep log before e ring (ih hr) h

/-- Each key file of a serial ring comes from a `publish` of its history, and each record has
    both files. -/
structure Supplied (log : List Entry) (ring : Ring) : Prop where
  published : ∀ kid pair, ring.privatePem kid = some pair → ∃ e ∈ log, e.op = .publish kid pair
  files : ∀ r ∈ ring.records, ∃ pair, ring.privatePem r.kid = some pair ∧
    ring.publicPem r.kid = some pair.publicKey

theorem supplied_of_kids {log : List Entry} {ring : Ring} (h : Supplied log ring) (e : Entry)
    {records : List KeyRecord}
    (hkids : records.map KeyRecord.kid = ring.records.map KeyRecord.kid) :
    Supplied (log ++ [e]) { ring with records } := by
  refine ⟨?_, ?_⟩
  · intro kid pair hp
    obtain ⟨e', he', hop⟩ := h.published kid pair hp
    exact ⟨e', List.mem_append_left _ he', hop⟩
  · intro r hr
    have hk : r.kid ∈ ring.records.map KeyRecord.kid := by
      rw [← hkids]
      exact List.mem_map_of_mem hr
    obtain ⟨r₀, hr₀, hkid⟩ := List.mem_map.mp hk
    show ∃ pair, ring.privatePem r.kid = some pair ∧ ring.publicPem r.kid = some pair.publicKey
    rw [← hkid]
    exact h.files r₀ hr₀

theorem supplied_publish {log : List Entry} {ring : Ring} (h : Supplied log ring) {e : Entry}
    {kid : String} {pair : KeyPair} (hop : e.op = .publish kid pair) :
    Supplied (log ++ [e]) (publish ring kid pair e.time) := by
  refine ⟨?_, ?_⟩
  · intro k p hp
    rcases privatePem_publish hp with ⟨-, hp⟩ | ⟨rfl, rfl⟩
    · obtain ⟨e', he', hop'⟩ := h.published k p hp
      exact ⟨e', List.mem_append_left _ he', hop'⟩
    · exact ⟨e, List.mem_append_right _ List.mem_cons_self, hop⟩
  · intro r hr
    by_cases hk : r.kid = kid
    · exact ⟨pair, by simp [publish, hk], by simp [publish, hk]⟩
    · have hr' : r ∈ ring.records := by
        rcases List.mem_append.mp hr with hr | hr
        · exact hr
        · rw [List.mem_singleton.mp hr] at hk
          exact absurd rfl hk
      simp only [publish, Function.update_of_ne hk]
      exact h.files r hr'

theorem supplied {rings : ℕ → KeyRing} {log : List Entry} {ring : Ring}
    (h : replay rings log = .ok ring) : Supplied log ring := by
  refine replay_induction (P := Supplied) ⟨by simp [Ring.empty], by simp [Ring.empty]⟩ ?_ h
  intro log ring e ring' hs ha
  rcases RingOp.apply_eq_ok ha with ⟨kid, pair, hop, rfl⟩ | ⟨records, rfl, hkids⟩
  · exact supplied_publish hs hop
  · exact supplied_of_kids hs e hkids

/-- The serial ring of a history misses no file. -/
theorem answer_of_supplied {log : List Entry} {ring : Ring} (h : Supplied log ring)
    (reader : Reader) :
    reader.answer ring ≠ .error .missingFile ∧ reader.answer ring ≠ .error .brokenFile := by
  cases reader with
  | activeKid =>
      simp only [Reader.answer, activeKid]
      split <;> simp [Except.map]
  | signClaims =>
      simp only [Reader.answer, signClaims]
      split
      · simp [Except.map]
      · next active ha =>
          obtain ⟨pair, hpriv, -⟩ := h.files active (activeRecord_eq_some ha).1
          simp [hpriv, Except.map]
  | verificationKey kid =>
      simp only [Reader.answer, verificationKey]
      split
      · simp [Except.map]
      · next r hr =>
          have hp := List.find?_some hr
          simp only [Bool.and_eq_true, decide_eq_true_eq] at hp
          obtain ⟨pair, -, hpub⟩ := h.files r (List.mem_of_find?_eq_some hr)
          rw [hp.1] at hpub
          simp [hpub, Except.map]
  | jwks =>
      have hjwks : jwks ring = .ok ((listed ring.records).map fun r =>
          Jwk.of r.kid ((ring.publicPem r.kid).getD ⟨0, 0⟩)) := by
        refine mapM_ok ?_
        intro r hr
        obtain ⟨pair, -, hpub⟩ := h.files r (List.mem_filter.mp hr).1
        rw [hpub]
        rfl
      simp [Reader.answer, hjwks, Except.map]

/-! ## What a reader reads -/

/-- The serial ring of the history's first `seen` entries, at a moment of the call. -/
def Snapshot (rings : ℕ → KeyRing) (log : List Entry) (since seen : ℕ) (ring : Ring) : Prop :=
  since ≤ seen ∧ seen ≤ log.length ∧ replay rings (log.take seen) = .ok ring

theorem Snapshot.append {rings : ℕ → KeyRing} {log : List Entry} {since seen : ℕ} {ring : Ring}
    (h : Snapshot rings log since seen ring) (new : List Entry) :
    Snapshot rings (log ++ new) since seen ring := by
  obtain ⟨hle, hlen, hreplay⟩ := h
  refine ⟨hle, by simp only [List.length_append]; omega, ?_⟩
  rw [List.take_append_of_le_length hlen]
  exact hreplay

/-- The reader answered as the serial ring did at a moment of its call. -/
def Served.Faithful (rings : ℕ → KeyRing) (log : List Entry) (a : Served) : Prop :=
  ∃ seen ring, Snapshot rings log a.since seen ring ∧ seen ≤ a.till ∧
    a.till ≤ log.length ∧ a.answer = a.reader.answer ring

/-- The key files a reader reads, of a record list it has read. -/
def Wants (ring : Ring) : Reader → List String → Prop
  | .verificationKey kid, kids =>
      kids = [kid] ∧ ∃ r, (ring.records.find? fun r => r.kid = kid && r.state ≠ .retired) = some r
  | .jwks, kids => kids = (listed ring.records).map KeyRecord.kid
  | _, _ => False

/-- A reader that has read the key files `keys` and has those of `todo` to read. -/
def Collects (ring : Ring) (reader : Reader) (keys : List (String × PublicKey))
    (todo : List String) : Prop :=
  (∀ p ∈ keys, ring.publicPem p.1 = some p.2) ∧ Wants ring reader (keys.map Prod.fst ++ todo)

theorem mem_of_wants {ring : Ring} {reader : Reader} {kids : List String}
    (h : Wants ring reader kids) {kid : String} (hk : kid ∈ kids) :
    ∃ r ∈ ring.records, r.kid = kid := by
  cases reader with
  | activeKid => cases h
  | signClaims => cases h
  | verificationKey k =>
      obtain ⟨rfl, r, hr⟩ := h
      have hp := List.find?_some hr
      simp only [Bool.and_eq_true, decide_eq_true_eq] at hp
      rw [List.mem_singleton.mp hk]
      exact ⟨r, List.mem_of_find?_eq_some hr, hp.1⟩
  | jwks =>
      rw [show kids = _ from h] at hk
      obtain ⟨r, hr, rfl⟩ := List.mem_map.mp hk
      exact ⟨r, (List.mem_filter.mp hr).1, rfl⟩

/-- The keys that were read make the serial ring's answer. -/
theorem fromKeys_eq {ring : Ring} {reader : Reader} {keys : List (String × PublicKey)}
    (h : Collects ring reader keys []) :
    (.ok (reader.fromKeys keys) : Except RingError Answer) = reader.answer ring := by
  obtain ⟨hkeys, hwants⟩ := h
  rw [List.append_nil] at hwants
  cases reader with
  | activeKid => cases hwants
  | signClaims => cases hwants
  | verificationKey kid =>
      obtain ⟨hkids, r, hr⟩ := hwants
      obtain ⟨⟨k, key⟩, rfl⟩ : ∃ p, keys = [p] := by
        rw [← List.length_eq_one_iff, ← List.length_map (f := Prod.fst), hkids]
        rfl
      simp only [List.map_cons, List.map_nil, List.cons.injEq, and_true] at hkids
      subst hkids
      have hkey := hkeys _ List.mem_cons_self
      simp only [Reader.answer, verificationKey, hr, hkey, Except.map, Reader.fromKeys]
  | jwks =>
      have hjwks : jwks ring = .ok (keys.map fun p => Jwk.of p.1 p.2) := by
        have hlist : keys.map Prod.fst = (listed ring.records).map KeyRecord.kid := hwants
        have hmap : (keys.map fun p => Jwk.of p.1 p.2) =
            (listed ring.records).map fun r =>
              Jwk.of r.kid ((ring.publicPem r.kid).getD ⟨0, 0⟩) := by
          have hcomp := congrArg
            (List.map fun kid => Jwk.of kid ((ring.publicPem kid).getD ⟨0, 0⟩)) hlist
          rw [List.map_map, List.map_map] at hcomp
          refine Eq.trans (List.map_congr_left ?_) hcomp
          intro p hp
          simp only [Function.comp_apply, hkeys p hp, Option.getD_some]
        rw [hmap]
        refine mapM_ok ?_
        intro r hr
        have hk : r.kid ∈ keys.map Prod.fst := by
          rw [hlist]
          exact List.mem_map_of_mem hr
        obtain ⟨p, hp, hpk⟩ := List.mem_map.mp hk
        rw [← hpk, hkeys p hp]
        rfl
      simp only [Reader.answer, hjwks, Except.map]
      cases keys <;> rfl

/-- A PEM file that has been read is the next of the answer. -/
theorem Collects.snoc {ring : Ring} {reader : Reader} {keys : List (String × PublicKey)}
    {kid : String} {rest : List String} (h : Collects ring reader keys (kid :: rest))
    {key : PublicKey} (hk : ring.publicPem kid = some key) :
    Collects ring reader (keys ++ [(kid, key)]) rest := by
  refine ⟨?_, ?_⟩
  · intro p hp
    rcases List.mem_append.mp hp with hp | hp
    · exact h.1 p hp
    · rw [List.mem_singleton.mp hp]
      exact hk
  · simpa using h.2

end TemisLab.Keyring
