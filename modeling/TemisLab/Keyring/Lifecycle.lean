/-
  Rotation over time. Calls of `publish`, `activate`, `retire` and `sign_claims` run one after
  the other, refused or not, under a clock that does not go back; `signed` is the history of
  the tokens signed, each with its key.

  * `Outlives`: a token's key is listed and verifies through its life, the clock skew and the
    cache of its verifiers; a retired key is gone for good; a key that left the state `active`
    does not sign again.
  * `retired_at_the_instant`: not up to the last instant. A key whose successor is activated in
    the instant it signs can be retired exactly 960 seconds later, as `retire` allows.
  * `rotation_outlives`: in every run with fresh kids it holds of each earlier time.
-/
import TemisLab.Lib.Trace
import TemisLab.Keyring.Records

namespace TemisLab.Keyring

open TemisLab.Lib TemisLab.Sso

/-- A token `sign_claims` made: the kid of its header, its key, and when. -/
structure Signed where
  kid : String
  key : KeyPair
  time : Time
  deriving DecidableEq, Repr

structure Life where
  ring : Ring
  clock : Time
  signed : List Signed

/-- An empty directory. -/
def Life.start (clock : Time) : Life := ⟨.empty, clock, []⟩

inductive Call where
  | op (op : RingOp)
  | sign
  deriving DecidableEq, Repr

/-- A call at a reading of the clock; an earlier reading than the last is the last. -/
def step (keyRing : KeyRing) (s : Life) (l : Time × Call) : Life :=
  let now := max s.clock l.1
  match l.2 with
  | .op op =>
      match op.apply keyRing s.ring now with
      | .error _ => { s with clock := now }
      | .ok ring => { s with ring, clock := now }
  | .sign =>
      match signClaims s.ring with
      | .error _ => { s with clock := now }
      | .ok (kid, key) => { s with clock := now, signed := ⟨kid, key, now⟩ :: s.signed }

/-- A generated kid is not one of the ring's. -/
def FreshKid (s : Life) : Time × Call → Prop
  | (_, .op (.publish kid _)) => find s.ring.records kid = none
  | _ => True

instance (s : Life) (l : Time × Call) : Decidable (FreshKid s l) := by
  unfold FreshKid
  split <;> infer_instance

/-! ## The claims of a run -/

/-- The key verifies tokens of the kid, and `jwks` lists it. -/
def Available (ring : Ring) (kid : String) (key : PublicKey) : Prop :=
  verificationKey ring kid = .ok key ∧ ∃ keys, jwks ring = .ok keys ∧ Jwk.of kid key ∈ keys

/-- The kid has disappeared from the ring's answers. -/
def Gone (ring : Ring) (kid : String) : Prop :=
  verificationKey ring kid = .error .notVerifiable ∧
    ∀ keys, jwks ring = .ok keys → ∀ j ∈ keys, j.kid ≠ kid

/-- The key has been active and is not any more. -/
def Spent (ring : Ring) (kid : String) : Prop :=
  ∃ r, find ring.records kid = some r ∧ (r.state = .retiring ∨ r.state = .retired)

/-- What the ring promises in the run of `ls`, where `within t u` bounds the time a key is kept:
    `t` is a time no earlier than the last call, `u` the end of the overlap. -/
structure Outlives (within : Time → Time → Prop) (keyRing : KeyRing) (clock : Time)
    (ls : List (Time × Call)) : Prop where
  available : ∀ pre post, ls = pre ++ post →
    let s := run (step keyRing) (.start clock) pre
    ∀ g ∈ s.signed, ∀ t, s.clock ≤ t → within t (g.time + minimumOverlapSeconds) →
      Available s.ring g.kid g.key.publicKey
  accepted : ∀ pre post, ls = pre ++ post →
    let s := run (step keyRing) (.start clock) pre
    ∀ g ∈ s.signed, ∀ token : AccessToken, token.kid = g.kid →
      token.claims.exp ≤ g.time + 600 → ∀ aud t, s.clock ≤ t →
      verifyAccess (verifies s.ring) aud t token = verifyAccess (fun _ => true) aud t token
  retired : ∀ pre now kid mid post, ls = pre ++ (now, .op (.retire kid)) :: (mid ++ post) →
    let before := run (step keyRing) (.start clock) pre
    (∃ ring, RingOp.apply keyRing before.ring (max before.clock now) (.retire kid) = .ok ring) →
    Gone (run (step keyRing) before ((now, .op (.retire kid)) :: mid)).ring kid
  spent : ∀ pre mid post, ls = pre ++ (mid ++ post) →
    let before := run (step keyRing) (.start clock) pre
    ∀ kid, Spent before.ring kid →
      ∃ new, (run (step keyRing) before mid).signed = new ++ before.signed ∧
        ∀ g ∈ new, g.kid ≠ kid

/-! ## The invariant -/

/-- A record that still verifies what it signed at `time`, or has done so long enough. -/
def KeyRecord.Serves (overlap : ℚ) (clock time : Time) (r : KeyRecord) : Prop :=
  r.state = .active ∨ ∃ τ, r.retiringAt = some τ ∧ time ≤ τ ∧
    (r.state = .retiring ∨ (r.state = .retired ∧ τ + overlap ≤ clock))

structure Sound (keyRing : KeyRing) (s : Life) : Prop where
  kids : (s.ring.records.map KeyRecord.kid).Nodup
  files : ∀ k r, find s.ring.records k = some r → ∃ pair,
    s.ring.privatePem k = some pair ∧ s.ring.publicPem k = some pair.publicKey
  signed : ∀ g ∈ s.signed, g.time ≤ s.clock ∧ s.ring.privatePem g.kid = some g.key ∧
    ∃ r, find s.ring.records g.kid = some r ∧ r.Serves keyRing.overlapSeconds s.clock g.time

theorem sound_life (keyRing : KeyRing) (clock : Time) : Sound keyRing (.start clock) :=
  ⟨List.nodup_nil, by simp [Life.start, Ring.empty, find], by simp [Life.start]⟩

theorem Serves.mono {overlap : ℚ} {clock clock' time : Time} {r : KeyRecord}
    (h : r.Serves overlap clock time) (hle : clock ≤ clock') : r.Serves overlap clock' time := by
  rcases h with h | ⟨τ, hτ, htime, h | ⟨h, hend⟩⟩
  · exact Or.inl h
  · exact Or.inr ⟨τ, hτ, htime, Or.inl h⟩
  · exact Or.inr ⟨τ, hτ, htime, Or.inr ⟨h, by linarith⟩⟩

theorem Serves.handOver {overlap : ℚ} {clock time now : Time} {r : KeyRecord}
    (h : r.Serves overlap clock time) (hle : time ≤ now) :
    (r.handOver now).Serves overlap clock time := by
  unfold KeyRecord.handOver
  split
  · exact Or.inr ⟨now, rfl, hle, Or.inl rfl⟩
  · exact h

/-- Time passes. -/
theorem Sound.wait {keyRing : KeyRing} {s : Life} (h : Sound keyRing s) (now : Time) :
    Sound keyRing { s with clock := max s.clock now } := by
  refine ⟨h.kids, h.files, ?_⟩
  intro g hg
  obtain ⟨htime, hkey, r, hr, hserves⟩ := h.signed g hg
  have hle : s.clock ≤ max s.clock now := le_max_left _ _
  exact ⟨le_trans htime hle, hkey, r, hr, Serves.mono hserves hle⟩

theorem Sound.publish {keyRing : KeyRing} {s : Life} (h : Sound keyRing s) {kid : String}
    {pair : KeyPair} (hfresh : find s.ring.records kid = none) :
    Sound keyRing { s with ring := Keyring.publish s.ring kid pair s.clock } := by
  have hne : ∀ k r, find s.ring.records k = some r → k ≠ kid := by
    intro k r hr he
    rw [he, hfresh] at hr
    cases hr
  refine ⟨?_, ?_, ?_⟩
  · simp only [Keyring.publish, List.map_append, List.map_cons, List.map_nil, List.nodup_append]
    refine ⟨h.kids, List.nodup_singleton _, ?_⟩
    intro k hk k' hk' he
    obtain ⟨r, hr, hkr⟩ := List.mem_map.mp hk
    rw [List.mem_singleton.mp hk'] at he
    exact find_eq_none.mp hfresh r hr (hkr.trans he)
  · intro k r hr
    simp only [Keyring.publish, find_append] at hr
    by_cases hk : k = kid
    · subst hk
      exact ⟨pair, by simp [Keyring.publish], by simp [Keyring.publish]⟩
    · have hk' : ¬ (newRecord kid s.clock).kid = k := fun he => hk he.symm
      rw [if_neg hk', Option.or_none] at hr
      simp only [Keyring.publish, Function.update_of_ne hk]
      exact h.files k r hr
  · intro g hg
    obtain ⟨htime, hkey, r, hr, hserves⟩ := h.signed g hg
    refine ⟨htime, ?_, r, ?_, hserves⟩
    · simp only [Keyring.publish, Function.update_of_ne (hne _ _ hr)]
      exact hkey
    · simp only [Keyring.publish, find_append, hr, Option.some_or]

theorem Sound.activate {keyRing : KeyRing} {s : Life} (h : Sound keyRing s) {kid : String}
    {records : List KeyRecord} (ha : activateRecords s.ring.records kid s.clock = .ok records) :
    Sound keyRing { s with ring := { s.ring with records } } := by
  obtain ⟨⟨target, ht, hpub⟩, hkids, hfind⟩ := activateRecords_eq_ok ha
  refine ⟨?_, ?_, ?_⟩
  · simp only [hkids]
    exact h.kids
  · intro k r hr
    simp only [hfind] at hr
    obtain ⟨r₀, hr₀, -⟩ := Option.map_eq_some_iff.mp hr
    exact h.files k r₀ hr₀
  · intro g hg
    obtain ⟨htime, hkey, r, hr, hserves⟩ := h.signed g hg
    have hne : g.kid ≠ kid := by
      intro he
      rw [he, ht] at hr
      cases hr
      rcases hserves with h1 | ⟨τ, -, -, h1 | ⟨h1, -⟩⟩
      · rw [hpub] at h1
        cases h1
      · rw [hpub] at h1
        cases h1
      · rw [hpub] at h1
        cases h1
    refine ⟨htime, hkey, r.handOver s.clock, ?_, Serves.handOver hserves htime⟩
    simp only [hfind, hr, Option.map_some, if_neg hne]

theorem Sound.retire {keyRing : KeyRing} {s : Life} (h : Sound keyRing s) {kid : String}
    {records : List KeyRecord}
    (ha : retireRecords keyRing.overlapSeconds s.ring.records kid s.clock = .ok records) :
    Sound keyRing { s with ring := { s.ring with records } } := by
  obtain ⟨⟨target, τ, ht, hretiring, hτ, hend⟩, hkids, hfind⟩ := retireRecords_eq_ok ha
  refine ⟨?_, ?_, ?_⟩
  · simp only [hkids]
    exact h.kids
  · intro k r hr
    simp only [hfind] at hr
    obtain ⟨r₀, hr₀, -⟩ := Option.map_eq_some_iff.mp hr
    exact h.files k r₀ hr₀
  · intro g hg
    obtain ⟨htime, hkey, r, hr, hserves⟩ := h.signed g hg
    by_cases hk : g.kid = kid
    · rw [hk, ht] at hr
      cases hr
      refine ⟨htime, hkey, target.retired, ?_, ?_⟩
      · simp only [hfind, hk, ht, Option.map_some, ite_true]
      · rcases hserves with h1 | ⟨τ', hτ', hle, -⟩
        · rw [hretiring] at h1
          cases h1
        · rw [hτ] at hτ'
          cases hτ'
          exact Or.inr ⟨τ, hτ, hle, Or.inr ⟨rfl, hend⟩⟩
    · refine ⟨htime, hkey, r, ?_, hserves⟩
      simp only [hfind, hr, Option.map_some, if_neg hk]

theorem signClaims_eq_ok {ring : Ring} {kid : String} {key : KeyPair}
    (h : signClaims ring = .ok (kid, key)) :
    ∃ r ∈ ring.records, r.state = .active ∧ r.kid = kid ∧ ring.privatePem kid = some key := by
  unfold signClaims at h
  split at h
  · cases h
  · next r hr =>
      split at h
      · cases h
      · next pair hp =>
          cases h
          obtain ⟨hmem, hactive⟩ := activeRecord_eq_some hr
          exact ⟨r, hmem, hactive, rfl, hp⟩

theorem Sound.sign {keyRing : KeyRing} {s : Life} (h : Sound keyRing s) {kid : String}
    {key : KeyPair}
    (hs : signClaims s.ring = .ok (kid, key)) :
    Sound keyRing { s with signed := ⟨kid, key, s.clock⟩ :: s.signed } := by
  refine ⟨h.kids, h.files, ?_⟩
  intro g hg
  rcases List.mem_cons.mp hg with rfl | hg
  · obtain ⟨r, hr, hactive, rfl, hkey⟩ := signClaims_eq_ok hs
    exact ⟨le_refl _, hkey, r, find_of_mem h.kids hr, Or.inl hactive⟩
  · exact h.signed g hg

/-- What a call does: nothing but wait, sign, or one change of the ring. -/
inductive Did (keyRing : KeyRing) (s : Life) (l : Time × Call) : Life → Prop where
  | waited : Did keyRing s l s
  | signed (kid : String) (key : KeyPair) (hs : signClaims s.ring = .ok (kid, key)) :
      Did keyRing s l { s with signed := ⟨kid, key, s.clock⟩ :: s.signed }
  | published (kid : String) (pair : KeyPair) (hl : l.2 = .op (.publish kid pair)) :
      Did keyRing s l { s with ring := publish s.ring kid pair s.clock }
  | activated (kid : String) (records : List KeyRecord)
      (ha : activateRecords s.ring.records kid s.clock = .ok records) :
      Did keyRing s l { s with ring := { s.ring with records } }
  | retired (kid : String) (records : List KeyRecord)
      (ha : retireRecords keyRing.overlapSeconds s.ring.records kid s.clock = .ok records) :
      Did keyRing s l { s with ring := { s.ring with records } }

/-- The inversion of `step`, after the clock has moved. -/
theorem step_did (keyRing : KeyRing) (s : Life) (l : Time × Call) :
    Did keyRing { s with clock := max s.clock l.1 } l (step keyRing s l) := by
  obtain ⟨now, call⟩ := l
  simp only [step]
  cases call with
  | op op =>
      cases op with
      | publish kid pair => exact .published kid pair rfl
      | activate kid =>
          cases ha : activateRecords s.ring.records kid (max s.clock now) with
          | error e =>
              simp only [RingOp.apply, ha, Except.map]
              exact .waited
          | ok records =>
              simp only [RingOp.apply, ha, Except.map]
              exact .activated kid records ha
      | retire kid =>
          cases ha : retireRecords keyRing.overlapSeconds s.ring.records kid (max s.clock now) with
          | error e =>
              simp only [RingOp.apply, ha, Except.map]
              exact .waited
          | ok records =>
              simp only [RingOp.apply, ha, Except.map]
              exact .retired kid records ha
  | sign =>
      cases hs : signClaims s.ring with
      | error e => exact .waited
      | ok p => exact .signed p.1 p.2 hs

theorem sound_step (keyRing : KeyRing) (s : Life) (l : Time × Call) (h : Sound keyRing s)
    (hl : FreshKid s l) : Sound keyRing (step keyRing s l) := by
  have hd := step_did keyRing s l
  have hw := h.wait l.1
  generalize step keyRing s l = s' at hd ⊢
  cases hd with
  | waited => exact hw
  | signed kid key hs => exact hw.sign hs
  | published kid pair he =>
      obtain ⟨now, call⟩ := l
      simp only at he
      subst he
      exact hw.publish hl
  | activated kid records ha => exact hw.activate ha
  | retired kid records ha => exact hw.retire ha

theorem sound_run {keyRing : KeyRing} {clock : Time} {ls : List (Time × Call)}
    (h : Along (step keyRing) FreshKid (.start clock) ls) :
    Sound keyRing (run (step keyRing) (.start clock) ls) :=
  run_invariant (step keyRing) (Sound keyRing) (sound_step keyRing) (sound_life keyRing clock) h

/-! ## What the readers answer -/

/-- Where kids are unique, `verification_key` decides by the state of the kid's record. -/
theorem verificationKey_eq {ring : Ring} (hn : (ring.records.map KeyRecord.kid).Nodup)
    (kid : String) :
    verificationKey ring kid =
      match find ring.records kid with
      | none => .error .notVerifiable
      | some r =>
          if r.state = .retired then .error .notVerifiable
          else (ring.publicPem kid).elim (.error .missingFile) .ok := by
  have hsearch : (ring.records.find? fun r => r.kid = kid && r.state ≠ .retired) =
      (find ring.records kid).filter fun r => r.state ≠ .retired := by
    cases hf : find ring.records kid with
    | none =>
        rw [Option.filter_none, List.find?_eq_none]
        intro r hr
        simp [find_eq_none.mp hf r hr]
    | some r =>
        obtain ⟨hmem, hkid⟩ := kid_of_find hf
        by_cases hs : r.state = .retired
        · rw [Option.filter_some, if_neg (by simp [hs]), List.find?_eq_none]
          intro r' hr' hp
          simp only [Bool.and_eq_true, decide_eq_true_eq] at hp
          have heq := List.inj_on_of_nodup_map hn hr' hmem (hp.1.trans hkid.symm)
          rw [heq] at hp
          exact hp.2 hs
        · rw [Option.filter_some, if_pos (by simp [hs])]
          cases hf' : ring.records.find? fun r => r.kid = kid && r.state ≠ .retired with
          | none =>
              rw [List.find?_eq_none] at hf'
              exact absurd (by simp [hkid, hs]) (hf' r hmem)
          | some r' =>
              have hp := List.find?_some hf'
              simp only [Bool.and_eq_true, decide_eq_true_eq] at hp
              rw [List.inj_on_of_nodup_map hn (List.mem_of_find?_eq_some hf') hmem
                (hp.1.trans hkid.symm)]
  unfold verificationKey
  rw [hsearch]
  cases find ring.records kid with
  | none => rfl
  | some r =>
      by_cases hs : r.state = .retired
      · rw [Option.filter_some, if_neg (by simp [hs])]
        simp [hs]
      · rw [Option.filter_some, if_pos (by simp [hs])]
        simp only [if_neg hs]
        cases ring.publicPem kid <;> rfl

theorem mem_of_mapM_ok {α β ε : Type} {f : α → Except ε β} {l : List α} {bs : List β}
    (h : l.mapM f = .ok bs) {b : β} (hb : b ∈ bs) : ∃ a ∈ l, f a = .ok b := by
  induction l generalizing bs with
  | nil =>
      cases h
      cases hb
  | cons a l ih =>
      rw [List.mapM_cons] at h
      cases hf : f a with
      | error e =>
          rw [hf] at h
          cases h
      | ok b' =>
          cases hl : l.mapM f with
          | error e =>
              rw [hf, hl] at h
              cases h
          | ok bs' =>
              rw [hf, hl] at h
              cases h
              rcases List.mem_cons.mp hb with rfl | hb
              · exact ⟨a, List.mem_cons_self, hf⟩
              · obtain ⟨a', ha', hfa'⟩ := ih hl hb
                exact ⟨a', List.mem_cons_of_mem a ha', hfa'⟩

/-- The keys `jwks` lists, in a sound ring. -/
theorem Sound.jwks_eq {keyRing : KeyRing} {s : Life} (h : Sound keyRing s) :
    jwks s.ring = .ok ((listed s.ring.records).map fun r =>
      Jwk.of r.kid ((s.ring.publicPem r.kid).getD ⟨0, 0⟩)) := by
  refine mapM_ok ?_
  intro r hr
  obtain ⟨pair, -, hp⟩ := h.files r.kid r (find_of_mem h.kids (List.mem_filter.mp hr).1)
  rw [hp]
  rfl

/-- A record that is not retired makes its key available. -/
theorem Sound.available {keyRing : KeyRing} {s : Life} (h : Sound keyRing s) {kid : String}
    {r : KeyRecord} {key : KeyPair} (hr : find s.ring.records kid = some r)
    (hs : r.state ≠ .retired) (hk : s.ring.privatePem kid = some key) :
    Available s.ring kid key.publicKey := by
  obtain ⟨pair, hpriv, hpub⟩ := h.files kid r hr
  rw [hk] at hpriv
  cases hpriv
  refine ⟨?_, _, h.jwks_eq, ?_⟩
  · rw [verificationKey_eq h.kids, hr]
    simp [hs, hpub]
  · obtain ⟨hmem, rfl⟩ := kid_of_find hr
    refine List.mem_map.mpr ⟨r, List.mem_filter.mpr ⟨hmem, by simp [hs]⟩, ?_⟩
    rw [hpub]
    rfl

theorem Sound.gone {keyRing : KeyRing} {s : Life} (h : Sound keyRing s) {kid : String}
    {r : KeyRecord} (hr : find s.ring.records kid = some r) (hs : r.state = .retired) :
    Gone s.ring kid := by
  refine ⟨?_, ?_⟩
  · rw [verificationKey_eq h.kids, hr]
    simp [hs]
  · intro keys hkeys j hj he
    obtain ⟨r', hr', hj'⟩ := mem_of_mapM_ok hkeys hj
    obtain ⟨hmem, hstate⟩ := List.mem_filter.mp hr'
    have hkid : r'.kid = kid := by
      split at hj'
      · cases hj'
      · cases hj'
        exact he
    have hfind := find_of_mem h.kids hmem
    rw [hkid, hr] at hfind
    cases hfind
    simp [hs] at hstate

/-! ## States only move on -/

/-- A spent record stays spent, and a retired one retired. -/
theorem find_step (keyRing : KeyRing) {s : Life} (l : Time × Call) {kid : String}
    {r : KeyRecord} (hr : find s.ring.records kid = some r) (hspent : r.state = .retiring ∨
      r.state = .retired) :
    ∃ r', find (step keyRing s l).ring.records kid = some r' ∧
      (r'.state = .retiring ∨ r'.state = .retired) ∧
      (r.state = .retired → r'.state = .retired) := by
  have hd := step_did keyRing s l
  generalize step keyRing s l = s' at hd ⊢
  have hactive : r.state ≠ .active := by
    intro ha
    rcases hspent with h | h
    · rw [ha] at h
      cases h
    · rw [ha] at h
      cases h
  cases hd with
  | waited => exact ⟨r, hr, hspent, id⟩
  | signed k key hs => exact ⟨r, hr, hspent, id⟩
  | published k pair he =>
      refine ⟨r, ?_, hspent, id⟩
      simp only [publish, find_append, hr, Option.some_or]
  | activated k records ha =>
      obtain ⟨⟨target, ht, hpub⟩, -, hfind⟩ := activateRecords_eq_ok ha
      have hne : kid ≠ k := by
        intro he
        simp only [← he, hr, Option.some.injEq] at ht
        subst ht
        rcases hspent with h | h
        · rw [hpub] at h
          cases h
        · rw [hpub] at h
          cases h
      refine ⟨r, ?_, hspent, id⟩
      simp only [hfind, hr, Option.map_some, if_neg hne, KeyRecord.handOver_of_ne hactive]
  | retired k records ha =>
      obtain ⟨-, -, hfind⟩ := retireRecords_eq_ok ha
      by_cases hk : kid = k
      · subst hk
        refine ⟨r.retired, ?_, Or.inr rfl, fun _ => rfl⟩
        simp only [hfind, hr, Option.map_some, ite_true]
      · refine ⟨r, ?_, hspent, id⟩
        simp only [hfind, hr, Option.map_some, if_neg hk]

/-- A spent key signs nothing. -/
theorem signed_step {keyRing : KeyRing} {s : Life} {l : Time × Call} (h : Sound keyRing s)
    {kid : String} (hspent : Spent s.ring kid) :
    ∃ new, (step keyRing s l).signed = new ++ s.signed ∧ ∀ g ∈ new, g.kid ≠ kid := by
  have hd := step_did keyRing s l
  generalize step keyRing s l = s' at hd ⊢
  obtain ⟨r, hr, hstate⟩ := hspent
  cases hd with
  | signed k key hs =>
      refine ⟨[⟨k, key, max s.clock l.1⟩], rfl, ?_⟩
      intro g hg he
      rw [List.mem_singleton.mp hg] at he
      simp only at he
      obtain ⟨r', hr', hactive, hk, -⟩ := signClaims_eq_ok hs
      have hfind := find_of_mem h.kids hr'
      rw [hk, he, hr] at hfind
      cases hfind
      rcases hstate with h1 | h1
      · rw [hactive] at h1
        cases h1
      · rw [hactive] at h1
        cases h1
  | _ => exact ⟨[], rfl, by simp⟩

/-! ## Runs -/

/-- Retirement is for good. -/
theorem retired_run (keyRing : KeyRing) {s : Life} (ls : List (Time × Call)) {kid : String}
    (hr : ∃ r, find s.ring.records kid = some r ∧ r.state = .retired) :
    ∃ r, find (run (step keyRing) s ls).ring.records kid = some r ∧ r.state = .retired := by
  refine run_always (step keyRing)
    (fun t => ∃ r, find t.ring.records kid = some r ∧ r.state = .retired) ?_ hr ls
  intro t l ht
  obtain ⟨r, hr, hs⟩ := ht
  obtain ⟨r', hr', -, hs'⟩ := find_step keyRing l hr (Or.inr hs)
  exact ⟨r', hr', hs' hs⟩

/-- A spent key signs nothing for the rest of the run. -/
theorem spent_run {keyRing : KeyRing} {s : Life} {ls : List (Time × Call)} {kid : String}
    (h : Sound keyRing s) (hspent : Spent s.ring kid)
    (hl : Along (step keyRing) FreshKid s ls) :
    ∃ new, (run (step keyRing) s ls).signed = new ++ s.signed ∧ ∀ g ∈ new, g.kid ≠ kid := by
  have hinv := run_invariant (step keyRing) (fun t => Sound keyRing t ∧ Spent t.ring kid ∧
    ∃ new, t.signed = new ++ s.signed ∧ ∀ g ∈ new, g.kid ≠ kid) ?_ ⟨h, hspent, [], rfl, by simp⟩
    hl
  · exact hinv.2.2
  · intro t l ht hq
    obtain ⟨hsound, hsp, new, hnew, hne⟩ := ht
    obtain ⟨new', hnew', hne'⟩ := signed_step (l := l) hsound hsp
    obtain ⟨r, hr, hstate⟩ := hsp
    obtain ⟨r', hr', hstate', -⟩ := find_step keyRing l hr hstate
    refine ⟨sound_step keyRing t l hsound hq, ⟨r', hr', hstate'⟩, new' ++ new, ?_, ?_⟩
    · rw [hnew', hnew, List.append_assoc]
    · intro g hg
      rcases List.mem_append.mp hg with hg | hg
      · exact hne' g hg
      · exact hne g hg

/-- A key that has not been kept long enough is not retired. -/
theorem Sound.kept {keyRing : KeyRing} {s : Life} (h : Sound keyRing s) {g : Signed}
    (hg : g ∈ s.signed) {t : Time} (ht : s.clock ≤ t) (hlt : t < g.time + minimumOverlapSeconds) :
    Available s.ring g.kid g.key.publicKey := by
  obtain ⟨-, hkey, r, hr, hserves⟩ := h.signed g hg
  have hmin := keyRing.minimum
  refine h.available hr ?_ hkey
  rcases hserves with hs | ⟨τ, -, hle, hs | ⟨-, hend⟩⟩
  · rw [hs]
    simp
  · rw [hs]
    simp
  · exfalso
    linarith

/-- Rotation outlives every token, in every run with fresh kids. -/
theorem rotation_outlives (keyRing : KeyRing) (clock : Time) (ls : List (Time × Call))
    (hfresh : Along (step keyRing) FreshKid (.start clock) ls) :
    Outlives (· < ·) keyRing clock ls := by
  have hsound : ∀ pre post, ls = pre ++ post →
      Sound keyRing (run (step keyRing) (.start clock) pre) := by
    intro pre post hls
    rw [hls, along_append] at hfresh
    exact sound_run hfresh.1
  refine ⟨?_, ?_, ?_, ?_⟩
  · intro pre post hls s g hg t ht hlt
    exact (hsound pre post hls).kept hg ht hlt
  · intro pre post hls s g hg token hkid hexp aud t ht
    by_cases hlt : t < token.claims.exp
    · have hlife : t < g.time + minimumOverlapSeconds := by
        unfold minimumOverlapSeconds
        linarith
      have hkey := ((hsound pre post hls).kept hg ht hlife).1
      have hverifies : verifies s.ring token.kid = true := by
        rw [verifies, hkid, hkey]
        rfl
      unfold verifyAccess
      rw [hverifies]
    · -- the token has expired, whatever the ring holds
      unfold verifyAccess
      simp [hlt]
  · intro pre now kid mid post hls before hok
    obtain ⟨ring, hring⟩ := hok
    have hls' : ls = (pre ++ (now, .op (.retire kid)) :: mid) ++ post := by
      rw [hls]
      simp
    have hs := hsound _ post hls'
    rw [run_append] at hs
    have hretired : ∃ r, find (step keyRing before (now, .op (.retire kid))).ring.records kid =
        some r ∧ r.state = .retired := by
      obtain ⟨records, hrec, rfl⟩ : ∃ records, retireRecords keyRing.overlapSeconds
          before.ring.records kid (max before.clock now) = .ok records ∧
            ring = { before.ring with records } := by
        cases hr : retireRecords keyRing.overlapSeconds before.ring.records kid
            (max before.clock now) with
        | error e =>
            simp only [RingOp.apply, hr, Except.map] at hring
            cases hring
        | ok records =>
            simp only [RingOp.apply, hr, Except.map] at hring
            cases hring
            exact ⟨records, rfl, rfl⟩
      obtain ⟨⟨target, τ, ht, -⟩, -, hfind⟩ := retireRecords_eq_ok hrec
      refine ⟨target.retired, ?_, rfl⟩
      simp only [step, hring, hfind, ht, Option.map_some, ite_true]
    obtain ⟨r, hr, hstate⟩ := retired_run keyRing mid hretired
    exact hs.gone hr hstate
  · intro pre mid post hls before kid hspent
    have hl := hfresh
    rw [hls, along_append, along_append] at hl
    exact spent_run (hsound pre (mid ++ post) hls) hspent hl.2.1

/-! ## The last instant -/

/-- A generated key pair. -/
def samplePair (n : ℕ) : KeyPair := ⟨⟨n, 65537⟩, n⟩

/-- `a` signs at time 10, in the instant `b` replaces it. -/
def replaced : List (Time × Call) :=
  [(0, .op (.publish "a" (samplePair 3233))), (0, .op (.activate "a")),
   (5, .op (.publish "b" (samplePair 2773))), (10, .sign), (10, .op (.activate "b"))]

/-- At 970 the key `a` may be retired, and the token of time 10 is 960 seconds old. -/
theorem retired_at_the_instant :
    ¬ ∀ keyRing clock ls, Along (step keyRing) FreshKid (.start clock) ls →
      Outlives (· ≤ ·) keyRing clock ls := by
  intro h
  have hav :=
    (h KeyRing.default 0 (replaced ++ [(970, .op (.retire "a"))]) (by decide +kernel)).available
    _ [] (List.append_nil _).symm ⟨"a", samplePair 3233, 10⟩ (by decide +kernel) 970
    (by decide +kernel) (by norm_num [minimumOverlapSeconds])
  have hkey := hav.1
  have hgone : verifies (run (step KeyRing.default) (.start 0)
      (replaced ++ [(970, .op (.retire "a"))])).ring "a" = false := by decide +kernel
  rw [verifies, hkey] at hgone
  cases hgone

/-- One second earlier `a` is refused and still verifies. -/
theorem kept_before_the_instant :
    Outlives (· < ·) KeyRing.default 0 (replaced ++ [(969, .op (.retire "a"))]) :=
  rotation_outlives KeyRing.default 0 _ (by decide +kernel)

end TemisLab.Keyring
