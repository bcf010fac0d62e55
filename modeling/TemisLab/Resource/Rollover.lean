/-
  Key rotation as a verifier sees it. The ring's calls and the steps of the calls of
  `authenticate` interleave under one clock; `fetch_jwks` answers with `jwks()` at the moment it
  completes, however long it took.

  * `Seamless`: a token refused with "unknown signing key" in its ten minutes has a key that was
    published less than `jwks_ttl` before the token was presented.
  * `slow_fetch`: it fails. A call may await its key set until the key is retired.
  * `rotation_seamless`: it holds but for the calls that end `overlap_seconds` after the token
    was signed, or later. The negative cache and the limit on forced refreshes do not matter:
    before it comes to them, a call has found a key set of less than `jwks_ttl` ago without the
    key (`Excused`).
-/
import TemisLab.Keyring.Lifecycle
import TemisLab.Resource.Attestation

namespace TemisLab.Resource.Rollover

open TemisLab.Lib TemisLab.Sso TemisLab.Keyring

variable {Token : Type}

/-- A listed key as `json.loads` gives it. -/
def jwkDict (j : Jwk) : Dict :=
  [("kty", .str j.kty), ("use", .str j.use), ("alg", .str j.alg), ("kid", .str j.kid),
    ("n", .str j.n), ("e", .str j.e)]

/-- `fetch_jwks` on the ring of the moment. -/
def fetched (ring : Ring) : Fetched :=
  match jwks ring with
  | .error _ => .failed
  | .ok keys => .document (.dict [("keys", .list (keys.map fun j => .dict (jwkDict j)))])

/-- The kid of a token's header, if it has one. -/
def kidOf (J : Jwt Token) (token : Token) : Option String :=
  (J.getUnverifiedHeader token).bind fun header => Dict.str header "kid"

theorem kidOf_of_header {J : Jwt Token} {token : Token} {header : Dict} {kid : String}
    (hheader : J.getUnverifiedHeader token = some header)
    (hkid : Dict.str header "kid" = some kid) : kidOf J token = some kid := by
  rw [kidOf, hheader]
  exact hkid

/-- A token that `authenticate` is called with, when, and what the ring had signed by then. -/
structure Presented (Token : Type) where
  token : Token
  time : Time
  signed : List Signed

/-- A call that was refused with "unknown signing key", and when. -/
structure Unknown (Token : Type) where
  presented : Presented Token
  time : Time

/-- The ring, one verifier with its calls, what each call was given, and the refusals. -/
structure Site (Token : Type) where
  life : Life
  host : Host ℕ (Service Token) (Task Token)
  presented : ℕ → Option (Presented Token)
  unknown : List (Unknown Token)

/-- A call of the ring, or an event of the verifier; a step reads the wall clock and the answer
    of `status_check`. -/
inductive Event (Token : Type) where
  | ring (call : Call)
  | call (p : ℕ) (token : Token)
  | go (p : ℕ) (wall : Time) (active : Option Bool)
  | kill (p : ℕ)

def Site.start (cfg : Settings) (J : Jwt Token) (clock : Time) : Site Token :=
  ⟨.start clock, (verifier cfg J).start (.start Token clock), fun _ => none, []⟩

/-- The clock of both moves on. -/
def Site.tick (x : Site Token) (now : Time) : Site Token :=
  { x with
    life := { x.life with clock := max x.life.clock now }
    host := { x.host with shared := x.host.shared.tick now } }

def isUnknown (e : Ended Token) : Bool :=
  match e.outcome with
  | .refused .unknownSigningKey => true
  | _ => false

/-- A call has ended with "unknown signing key". -/
def endsUnknown (before after : List (Ended Token)) : Bool :=
  before.length < after.length && after.head?.any isUnknown

/-- The refusal of a call, if its step was one. -/
def refusal (x : Site Token) (p : ℕ) (ended : List (Ended Token)) : List (Unknown Token) :=
  if endsUnknown x.host.shared.ended ended then
    (x.presented p).toList.map fun pr => ⟨pr, x.life.clock⟩
  else []

/-- An event once the clock has moved. -/
def act (cfg : Settings) (J : Jwt Token) (keyRing : KeyRing) (x : Site Token) :
    Event Token → Site Token
  | .ring call => { x with life := Keyring.step keyRing x.life (x.life.clock, call) }
  | .call p token =>
      { x with
        host := (verifier cfg J).signal x.host (.call p token)
        presented :=
          if (x.host.task p).free then
            Function.update x.presented p (some ⟨token, x.life.clock, x.life.signed⟩)
          else x.presented }
  | .go p wall active =>
      let host := (verifier cfg J).signal x.host
        (.go p ⟨x.life.clock, wall, fetched x.life.ring, active⟩)
      { x with host, unknown := refusal x p host.shared.ended ++ x.unknown }
  | .kill p => { x with host := (verifier cfg J).signal x.host (.kill p) }

def step (cfg : Settings) (J : Jwt Token) (keyRing : KeyRing) (x : Site Token)
    (l : Time × Event Token) : Site Token := act cfg J keyRing (x.tick l.1) l.2

/-- A generated kid is not one of the ring's, and PyJWT reads the key back from its JWK. -/
def Generated (J : Jwt Token) (x : Site Token) : Time × Event Token → Prop
  | (_, .ring (.op (.publish kid pair))) => find x.life.ring.records kid = none ∧
      J.fromJwk (jwkDict (Jwk.of kid pair.publicKey)) = some (some pair.publicKey)
  | _ => True

instance (J : Jwt Token) (x : Site Token) (l : Time × Event Token) :
    Decidable (Generated J x l) := by
  unfold Generated
  split <;> infer_instance

/-! ## The claims of a run -/

/-- A token of a kid that signed at `g.time`, presented in the next ten minutes and refused as
    unknown: its key was published less than `jwks_ttl` before. -/
def Seamless (cfg : Settings) (J : Jwt Token) (keyRing : KeyRing) (clock : Time)
    (ls : List (Time × Event Token)) : Prop :=
  let x := run (step cfg J keyRing) (.start cfg J clock) ls
  ∀ r ∈ x.unknown, ∀ g ∈ r.presented.signed, kidOf J r.presented.token = some g.kid →
    r.presented.time ≤ g.time + 600 →
      ∃ record, find x.life.ring.records g.kid = some record ∧
        r.presented.time < record.publishedAt + cfg.jwksTtl

/-- What a refusal says of the key of a token that was signed before it was presented. -/
structure Explained (cfg : Settings) (keyRing : KeyRing) (r : Unknown Token) (g : Signed)
    (record : KeyRecord) : Prop where
  /-- The key was published lately, or the call went on for longer than the overlap. -/
  window : r.presented.time < record.publishedAt + cfg.jwksTtl ∨
    (record.state = .retired ∧ g.time + keyRing.overlapSeconds ≤ r.time)
  /-- A key that waited for `jwks_ttl` before its activation is not unknown in the overlap. -/
  settled : ∀ activated, record.activatedAt = some activated →
    record.publishedAt + cfg.jwksTtl ≤ activated → g.time + keyRing.overlapSeconds ≤ r.time

/-- Each refusal in the run of `ls` is explained. -/
def Overlapping (cfg : Settings) (J : Jwt Token) (keyRing : KeyRing) (clock : Time)
    (ls : List (Time × Event Token)) : Prop :=
  let x := run (step cfg J keyRing) (.start cfg J clock) ls
  ∀ r ∈ x.unknown, ∀ g ∈ r.presented.signed, kidOf J r.presented.token = some g.kid →
    ∃ record, find x.life.ring.records g.kid = some record ∧ Explained cfg keyRing r g record

/-- A token of the plain PyJWT under the kid. -/
def sampleToken (kid : String) : PlainToken :=
  plainToken ⟨kid, bundleClaims "user-1" 1 ["user"] Sso.audience 310⟩

/-- The key of `plainJwt`. -/
def plainPair : KeyPair := ⟨plainKey, 1⟩

/-- `a` signs at 310 and hands over; the token is presented, and its call awaits the key set until
    `a` is retired at 1270. -/
def awaited : List (Time × Event PlainToken) :=
  [(0, .ring (.op (.publish "a" plainPair))), (0, .ring (.op (.activate "a"))),
   (310, .ring .sign), (310, .ring (.op (.publish "b" plainPair))),
   (310, .ring (.op (.activate "b"))), (310, .call 1 (sampleToken "a")), (310, .go 1 310 none),
   (310, .go 1 310 none), (1270, .ring (.op (.retire "a"))), (1270, .go 1 1270 none),
   (1270, .go 1 1270 none), (1270, .go 1 1270 none)]

/-- The token is refused as unknown, though its key was published 310 seconds before it was
    presented. -/
theorem slow_fetch : ¬ ∀ cfg keyRing clock (ls : List (Time × Event PlainToken)), 0 ≤ clock →
    Along (step cfg plainJwt keyRing) (Generated plainJwt) (.start cfg plainJwt clock) ls →
      Seamless cfg plainJwt keyRing clock ls := by
  intro h
  have hs := h labSettings KeyRing.default 0 awaited (le_refl _) (by decide +kernel)
  have hall : ∀ r ∈ (run (step labSettings plainJwt KeyRing.default)
      (.start labSettings plainJwt 0) awaited).unknown, ∀ g ∈ r.presented.signed,
        kidOf plainJwt r.presented.token = some g.kid → r.presented.time ≤ g.time + 600 →
          ((find (run (step labSettings plainJwt KeyRing.default)
            (.start labSettings plainJwt 0) awaited).life.ring.records g.kid).any
              fun record => r.presented.time < record.publishedAt + 300) = true := by
    intro r hr g hg hk ht
    obtain ⟨record, hrecord, hlt⟩ := hs r hr g hg hk ht
    rw [hrecord]
    exact decide_eq_true hlt
  revert hall
  decide +kernel

/-! ## Records over time -/

/-- When the record of a kid was activated: before its first signature, and in the past. -/
structure Stamped (s : Life) : Prop where
  records : ∀ k r, find s.ring.records k = some r → r.state ≠ .published →
    ∃ a, r.activatedAt = some a ∧ a ≤ s.clock
  signed : ∀ g ∈ s.signed, ∀ r, find s.ring.records g.kid = some r →
    r.state ≠ .published ∧ ∃ a, r.activatedAt = some a ∧ a ≤ g.time

theorem stamped_start (clock : Time) : Stamped (.start clock) :=
  ⟨by simp [Life.start, Ring.empty, find], by simp [Life.start]⟩

theorem Stamped.wait {s : Life} (h : Stamped s) (now : Time) :
    Stamped { s with clock := max s.clock now } := by
  refine ⟨?_, h.signed⟩
  intro k r hr hs
  obtain ⟨a, ha, hle⟩ := h.records k r hr hs
  exact ⟨a, ha, le_trans hle (le_max_left _ _)⟩

/-- How the record of a kid moves in a call. -/
structure Moved (r r' : KeyRecord) : Prop where
  publishedAt : r'.publishedAt = r.publishedAt
  retired : r.state = .retired → r'.state = .retired
  activatedAt : r.state ≠ .published → r'.activatedAt = r.activatedAt
  spent : r.state ≠ .published → r'.state ≠ .published

theorem Moved.refl (r : KeyRecord) : Moved r r := ⟨rfl, id, fun _ => rfl, id⟩

theorem moved_handOver (r : KeyRecord) (now : Time) : Moved r (r.handOver now) := by
  unfold KeyRecord.handOver
  split
  · next hs =>
      refine ⟨rfl, ?_, fun _ => rfl, fun _ => by simp⟩
      intro hr
      rw [hs] at hr
      cases hr
  · exact .refl r

theorem moved_retired (r : KeyRecord) : Moved r r.retired :=
  ⟨rfl, fun _ => rfl, fun _ => rfl, fun _ => by simp [KeyRecord.retired]⟩

/-- Every record is still there, and has moved at most. -/
theorem find_moved (keyRing : KeyRing) (s : Life) (l : Time × Call) {k : String} {r : KeyRecord}
    (hr : find s.ring.records k = some r) :
    ∃ r', find (Keyring.step keyRing s l).ring.records k = some r' ∧ Moved r r' := by
  have hd := step_did keyRing s l
  generalize Keyring.step keyRing s l = s' at hd ⊢
  cases hd with
  | waited => exact ⟨r, hr, .refl r⟩
  | signed kid key hs => exact ⟨r, hr, .refl r⟩
  | published kid pair he =>
      refine ⟨r, ?_, .refl r⟩
      simp only [publish, find_append, hr, Option.some_or]
  | activated kid records ha =>
      obtain ⟨⟨target, ht, hpub⟩, -, hfind⟩ := activateRecords_eq_ok ha
      have hk := hfind k
      simp only [hr, Option.map_some] at hk
      refine ⟨_, hk, ?_⟩
      split
      · next hk =>
          subst hk
          simp only at ht
          rw [hr] at ht
          cases ht
          have hne : r.state ≠ .active := by simp [hpub]
          rw [KeyRecord.handOver_of_ne hne]
          refine ⟨rfl, ?_, fun hs => absurd hpub hs, fun hs => absurd hpub hs⟩
          intro hs
          rw [hpub] at hs
          cases hs
      · exact moved_handOver r _
  | retired kid records ha =>
      obtain ⟨-, -, hfind⟩ := retireRecords_eq_ok ha
      have hk := hfind k
      simp only [hr, Option.map_some] at hk
      refine ⟨_, hk, ?_⟩
      split
      · exact moved_retired r
      · exact .refl r

/-- The clock of the ring after a call. -/
theorem clock_step (keyRing : KeyRing) (s : Life) (l : Time × Call) :
    (Keyring.step keyRing s l).clock = max s.clock l.1 := by
  have hd := step_did keyRing s l
  generalize Keyring.step keyRing s l = s' at hd ⊢
  cases hd <;> rfl

theorem Stamped.step {keyRing : KeyRing} {s : Life} (h : Stamped s) (hs : Keyring.Sound keyRing s)
    (l : Time × Call) : Stamped (Keyring.step keyRing s l) := by
  have hw := h.wait l.1
  have hmoved := fun {k r} => find_moved keyRing s l (k := k) (r := r)
  have hd := step_did keyRing s l
  generalize Keyring.step keyRing s l = s' at hd hmoved ⊢
  have hsigned : s'.signed = s.signed → ∀ g ∈ s'.signed, ∀ r,
      find s'.ring.records g.kid = some r →
        r.state ≠ .published ∧ ∃ a, r.activatedAt = some a ∧ a ≤ g.time := by
    intro he g hg r hr
    rw [he] at hg
    obtain ⟨-, -, r₀, hr₀, -⟩ := hs.signed g hg
    obtain ⟨hspent, a, ha, hle⟩ := h.signed g hg r₀ hr₀
    obtain ⟨r', hr', hm⟩ := hmoved hr₀
    rw [hr'] at hr
    cases hr
    exact ⟨hm.spent hspent, a, (hm.activatedAt hspent).trans ha, hle⟩
  cases hd with
  | waited => exact hw
  | signed kid key hsign =>
      refine ⟨hw.records, ?_⟩
      intro g hg r hr
      rcases List.mem_cons.mp hg with rfl | hg
      · obtain ⟨r', hr', hactive, hkid, -⟩ := signClaims_eq_ok hsign
        have hfind := find_of_mem hs.kids hr'
        simp only at hr
        rw [hkid, hr] at hfind
        cases hfind
        have hspent : r.state ≠ .published := by simp [hactive]
        exact ⟨hspent, hw.records kid r hr hspent⟩
      · exact hw.signed g hg r hr
  | published kid pair he =>
      refine ⟨?_, hsigned rfl⟩
      intro k r hr hstate
      simp only [publish, find_append] at hr
      cases hk : find s.ring.records k with
      | some r₀ =>
          rw [hk] at hr
          cases hr
          exact hw.records k r hk hstate
      | none =>
          rw [hk, Option.none_or] at hr
          split at hr
          · cases hr
            exact absurd rfl hstate
          · cases hr
  | activated kid records ha =>
      refine ⟨?_, hsigned rfl⟩
      obtain ⟨-, -, hfind⟩ := activateRecords_eq_ok ha
      intro k r hr hstate
      simp only [hfind] at hr
      obtain ⟨r₀, hr₀, rfl⟩ := Option.map_eq_some_iff.mp hr
      split
      · exact ⟨_, rfl, le_refl _⟩
      · next hne =>
          rw [if_neg hne] at hstate
          have hspent : r₀.state ≠ .published := by
            intro hp
            rw [KeyRecord.handOver_of_ne (by simp [hp])] at hstate
            exact hstate hp
          obtain ⟨a, ha, hle⟩ := hw.records k r₀ hr₀ hspent
          exact ⟨a, ((moved_handOver r₀ _).activatedAt hspent).trans ha, hle⟩
  | retired kid records ha =>
      refine ⟨?_, hsigned rfl⟩
      obtain ⟨⟨target, τ, ht, hret, -⟩, -, hfind⟩ := retireRecords_eq_ok ha
      intro k r hr hstate
      simp only [hfind] at hr
      obtain ⟨r₀, hr₀, rfl⟩ := Option.map_eq_some_iff.mp hr
      split
      · next hk =>
          subst hk
          simp only at ht
          rw [hr₀] at ht
          cases ht
          exact hw.records k target hr₀ (by simp [hret])
      · next hne =>
          rw [if_neg hne] at hstate
          exact hw.records k r₀ hr₀ hstate

/-! ## Key sets -/

/-- PyJWT reads the listed keys of the ring. -/
def Readable (J : Jwt Token) (ring : Ring) : Prop :=
  ∀ r ∈ ring.records, ∀ key, ring.publicPem r.kid = some key →
    J.fromJwk (jwkDict (Jwk.of r.kid key)) = some (some key)

/-- The loop of `_refresh` keeps each key it has, and adds each listed one. -/
theorem readKeys_dicts {J : Jwt Token} {jwks : List Jwk} (hrs : ∀ j ∈ jwks, j.alg = "RS256")
    (hread : ∀ j ∈ jwks, ∃ key, J.fromJwk (jwkDict j) = some (some key)) (keys : KeySet) :
    ∃ keys', readKeys J keys (jwks.map fun j => .dict (jwkDict j)) = some keys' ∧
      ∀ kid, keys.lookup kid ≠ none ∨ kid ∈ jwks.map Jwk.kid → keys'.lookup kid ≠ none := by
  induction jwks generalizing keys with
  | nil =>
      refine ⟨keys, rfl, ?_⟩
      rintro kid (h | h)
      · exact h
      · cases h
  | cons j jwks ih =>
      obtain ⟨key, hkey⟩ := hread j List.mem_cons_self
      have halg : Dict.str (jwkDict j) "alg" = some "RS256" := by
        rw [← hrs j List.mem_cons_self]
        rfl
      have hkid : Dict.str (jwkDict j) "kid" = some j.kid := rfl
      obtain ⟨keys', hkeys, hall⟩ := ih (fun j' h => hrs j' (List.mem_cons_of_mem j h))
        (fun j' h => hread j' (List.mem_cons_of_mem j h)) ((j.kid, key) :: keys)
      refine ⟨keys', ?_, ?_⟩
      · rw [List.map_cons, readKeys, if_pos halg, hkid]
        simp only [hkey]
        exact hkeys
      · intro kid h
        refine hall kid ?_
        by_cases he : kid = j.kid
        · left
          simp [he]
        · have hne : (kid == j.kid) = false := beq_eq_false_iff_ne.mpr he
          rw [List.lookup_cons, hne]
          rw [List.map_cons, List.mem_cons] at h
          exact h.imp_right fun h => h.resolve_left he

/-- What `fetch_jwks` answers: a key set with every key of the ring that is not retired, or, from
    a ring without one, a document that `_refresh` rejects. -/
theorem safeRefresh_fetched {J : Jwt Token} {keyRing : KeyRing} {life : Life}
    (hs : Keyring.Sound keyRing life) (hr : Readable J life.ring) :
    (∃ document keys, safeRefresh J (fetched life.ring) = .ok (document, keys) ∧
      ∀ k r, find life.ring.records k = some r → r.state ≠ .retired → keys.lookup k ≠ none) ∨
      safeRefresh J (fetched life.ring) = .error .noSigningKeys := by
  have hjwks := hs.jwks_eq
  generalize hj : (listed life.ring.records).map (fun r =>
    Jwk.of r.kid ((life.ring.publicPem r.kid).getD ⟨0, 0⟩)) = keyList at hjwks
  have hrs : ∀ j ∈ keyList, j.alg = "RS256" := by
    intro j h
    rw [← hj] at h
    obtain ⟨r, -, rfl⟩ := List.mem_map.mp h
    rfl
  have hread : ∀ j ∈ keyList, ∃ key, J.fromJwk (jwkDict j) = some (some key) := by
    intro j h
    rw [← hj] at h
    obtain ⟨r, hl, rfl⟩ := List.mem_map.mp h
    have hmem := (List.mem_filter.mp hl).1
    obtain ⟨pair, -, hp⟩ := hs.files r.kid r (find_of_mem hs.kids hmem)
    refine ⟨pair.publicKey, ?_⟩
    rw [hp]
    exact hr r hmem pair.publicKey hp
  obtain ⟨keys, hkeys, hall⟩ := readKeys_dicts hrs hread []
  rw [fetched, hjwks]
  simp only [safeRefresh, List.lookup_cons, beq_self_eq_true, hkeys]
  cases keys with
  | nil => exact Or.inr rfl
  | cons kv keys =>
      refine Or.inl ⟨_, _, rfl, ?_⟩
      intro k r hk hstate
      refine hall k (Or.inr ?_)
      obtain ⟨hmem, hkid⟩ := kid_of_find hk
      rw [← hj, List.map_map]
      exact List.mem_map.mpr ⟨r, List.mem_filter.mpr ⟨hmem, by simp [hstate]⟩, hkid⟩

/-! ## The way to a refusal -/

variable {cfg : Settings} {J : Jwt Token}

/-- Where a call that is not over may await: for a key set, under a kid of which `stale` holds,
    or for a forced refresh, when the kid was `missed`. -/
def OnTheWay (stale : String → Prop) (missed : Prop) : Task Token → Prop
  | .entered _ => False
  | .lockStale _ kid => stale kid
  | .fetchStale _ kid => stale kid
  | .lockUnknown _ _ _ => missed
  | .fetchUnknown _ _ => missed
  | _ => True

/-- The key set and its deadlines after a step: as before, or those of an accepted document. -/
inductive KeysStep (cfg : Settings) (J : Jwt Token) (answer : Fetched) (s s' : Service Token) :
    Prop where
  | same (keys : s'.cache.keys = s.cache.keys) (until_ : s'.cache.jwksUntil = s.cache.jwksUntil)
      (error : s'.cache.refreshErrorUntil = s.cache.refreshErrorUntil)
  | accepted (document : Json) (keys : KeySet) (h : safeRefresh J answer = .ok (document, keys))
      (keys_ : s'.cache.keys = keys) (until_ : s'.cache.jwksUntil = s.clock + cfg.jwksTtl)
      (error : s'.cache.refreshErrorUntil = 0)

/-- A step of a call: it is refused as unknown, or goes to force a refresh, only when `missed`. -/
structure Leads (cfg : Settings) (J : Jwt Token) (answer : Fetched) (stale : String → Prop)
    (missed : Prop) (s : Service Token) (r : Service Token × Task Token) : Prop where
  clock : r.1.clock = s.clock
  keys : KeysStep cfg J answer s r.1
  ended : endsUnknown s.ended r.1.ended = true → missed
  task : OnTheWay stale missed r.2

variable {answer : Fetched} {stale : String → Prop} {missed : Prop} {s : Service Token}

theorem endsUnknown_self (ended : List (Ended Token)) : endsUnknown ended ended = false := by
  simp [endsUnknown]

theorem endsUnknown_cons (ended : List (Ended Token)) (e : Ended Token) :
    endsUnknown ended (e :: ended) = isUnknown e := by
  simp [endsUnknown]

theorem leads_refuse (a : Attempt Token) (reason : Refusal)
    (h : reason = .unknownSigningKey → missed) :
    Leads cfg J answer stale missed s (s.refuse a reason) := by
  refine ⟨rfl, .same rfl rfl rfl, ?_, trivial⟩
  intro he
  have hu : endsUnknown s.ended (⟨a, s.clock, s.confirmed.length, .refused reason⟩ :: s.ended) =
      true := he
  rw [endsUnknown_cons] at hu
  refine h ?_
  cases reason <;> first | rfl | cases hu

theorem leads_conclude (a : Attempt Token) (v : Verified) :
    Leads cfg J answer stale missed s (s.conclude J a v) := by
  unfold Service.conclude
  split
  · exact leads_refuse a _ (by simp)
  · refine ⟨rfl, .same rfl rfl rfl, ?_, trivial⟩
    intro he
    unfold Service.finish at he
    simp only [endsUnknown_cons] at he
    cases he

theorem leads_verify (a : Attempt Token) (kid : String) (key : PublicKey) (wall : Time) :
    Leads cfg J answer stale missed s (s.verify cfg J a kid key wall) := by
  unfold Service.verify
  split
  · exact leads_refuse a _ (by simp)
  · split
    · exact leads_refuse a _ (by simp)
    · simp only
      split
      · exact leads_conclude a _
      · refine ⟨rfl, .same rfl rfl rfl, ?_, trivial⟩
        intro he
        rw [endsUnknown_self] at he
        cases he

/-- A task that awaits with the service as it is. -/
theorem leads_stay {t : Task Token} (ht : OnTheWay stale missed t) :
    Leads cfg J answer stale missed s (s, t) := by
  refine ⟨rfl, .same rfl rfl rfl, ?_, ht⟩
  intro he
  rw [endsUnknown_self] at he
  cases he

theorem leads_select (a : Attempt Token) (kid : String) (wall : Time)
    (h : s.cache.keys.lookup kid = none → missed) :
    Leads cfg J answer stale missed s (s.select cfg J a kid wall) := by
  unfold Service.select
  split
  · exact leads_verify a kid _ wall
  · next hnone =>
      split
      · exact leads_refuse a _ fun _ => h hnone
      · exact leads_stay (h hnone)

theorem leads_forget (a : Attempt Token) (kid : String) (h : missed) :
    Leads cfg J answer stale missed s (s.forget cfg a kid) := by
  refine ⟨rfl, .same rfl rfl rfl, fun _ => h, trivial⟩

/-- A step that accepts a document and goes on. -/
theorem Leads.accept {document : Json} {keys : KeySet} {r : Service Token × Task Token}
    (hsafe : safeRefresh J answer = .ok (document, keys))
    (h : Leads cfg J answer stale missed (s.accept cfg document keys) r) :
    Leads cfg J answer stale missed s r := by
  refine ⟨h.clock, ?_, h.ended, h.task⟩
  cases h.keys with
  | same hkeys huntil herror => exact .accepted document keys hsafe hkeys huntil herror
  | accepted document' keys' hsafe' hkeys huntil herror =>
      exact .accepted document' keys' hsafe' hkeys huntil herror

/-- Assignments to the two other deadlines do not count. -/
theorem Leads.same {negativeKids : String → Option Time} {unknownRefreshAfter : Time}
    {r : Service Token × Task Token}
    (h : Leads cfg J answer stale missed
      { s with cache := { s.cache with negativeKids, unknownRefreshAfter } } r) :
    Leads cfg J answer stale missed s r := by
  refine ⟨h.clock, ?_, h.ended, h.task⟩
  cases h.keys with
  | same hkeys huntil herror => exact .same hkeys huntil herror
  | accepted document keys hsafe hkeys huntil herror =>
      exact .accepted document keys hsafe hkeys huntil herror

/-- A document that `_refresh` does not take is refused as such. -/
theorem safeRefresh_ne_unknown (J : Jwt Token) (f : Fetched) :
    safeRefresh J f ≠ .error .unknownSigningKey := by
  unfold safeRefresh
  repeat' split
  all_goals simp

/-- What a call needs to have missed before it goes on to be refused as unknown: a fresh key set,
    or the one it has just fetched, without its kid. -/
def Misses (J : Jwt Token) (answer : Fetched) (s : Service Token) : Task Token → Prop
  | .entered token => ∃ kid, kidOf J token = some kid ∧ s.clock < s.cache.jwksUntil ∧
      s.cache.keys.lookup kid = none
  | .lockStale _ kid => s.clock < s.cache.jwksUntil ∧ s.cache.keys.lookup kid = none
  | .fetchStale _ kid => ∃ document keys, safeRefresh J answer = .ok (document, keys) ∧
      keys.lookup kid = none
  | .lockUnknown _ _ _ => True
  | .fetchUnknown _ _ => True
  | _ => False

/-- The kid under which a call may await a key set. -/
def Stale (J : Jwt Token) (t : Task Token) (kid : String) : Prop :=
  match t with
  | .entered token => kidOf J token = some kid
  | .lockStale _ kid' => kid' = kid
  | _ => False

/-- The inversion of a step, where `fetch_jwks` does not fail. -/
theorem leads_advance (cfg : Settings) (i : Input) (t : Task Token) (hclock : 0 ≤ s.clock)
    (herror : s.cache.refreshErrorUntil ≤ 0)
    (hfetch : safeRefresh J i.fetched ≠ .error .jwksUnavailable) :
    Leads cfg J i.fetched (Stale J t) (Misses J i.fetched s t) s (s.advance cfg J i t) := by
  have hcool : ¬ s.clock < s.cache.refreshErrorUntil := not_lt.mpr (le_trans herror hclock)
  have ha := advance_cases cfg J i s t
  generalize s.advance cfg J i t = r at ha ⊢
  cases ha with
  | idle => exact leads_stay trivial
  | malformed token reason hreason =>
      exact leads_refuse _ _ (by rcases hreason with rfl | rfl <;> simp)
  | expired token header kid hheader halg hkid huntil =>
      exact leads_stay (kidOf_of_header hheader hkid)
  | fresh token header kid hheader halg hkid huntil =>
      exact leads_select _ kid i.wall fun hnone =>
        ⟨kid, kidOf_of_header hheader hkid, huntil, hnone⟩
  | refreshed a kid huntil => exact leads_select a kid i.wall fun hnone => ⟨huntil, hnone⟩
  | expires a kid huntil herror => exact leads_stay rfl
  | accepted a kid document keys hsafe =>
      exact (leads_select a kid i.wall fun hnone => ⟨document, keys, hsafe, hnone⟩).accept hsafe
  | rejected a kid reason hsafe hreason =>
      refine leads_refuse a reason ?_
      rintro rfl
      exact absurd hsafe (safeRefresh_ne_unknown J i.fetched)
  | negative a kid missed hnegative => exact leads_refuse a _ fun _ => trivial
  | appeared a kid missed key hkey => exact leads_verify a kid key i.wall
  | forces a kid missed hmissing hunknown =>
      refine Leads.same (leads_stay ?_)
      exact trivial
  | spared a kid missed hmissing => exact leads_forget a kid trivial
  | loaded a kid document keys key hsafe hkey => exact (leads_verify a kid key i.wall).accept hsafe
  | missing a kid document keys hsafe hmissing => exact (leads_forget a kid trivial).accept hsafe
  | rejectedUnknown a kid reason hsafe hreason => exact leads_refuse a _ fun _ => trivial
  | denied a v reason hreason =>
      exact leads_refuse a _ (by rcases hreason with rfl | rfl <;> simp)
  | confirmed a v hactive =>
      have hc : Leads cfg J i.fetched (Stale J (.statusCheck a v))
          (Misses J i.fetched s (.statusCheck a v)) (s.confirm cfg v)
          ((s.confirm cfg v).conclude J a v) := leads_conclude a v
      refine ⟨hc.clock, ?_, hc.ended, hc.task⟩
      cases hc.keys with
      | same hkeys huntil herror => exact .same hkeys huntil herror
      | accepted document keys hsafe hkeys huntil herror =>
          exact .accepted document keys hsafe hkeys huntil herror
  | bridged a kid hbridges herror => exact absurd herror hcool
  | cooling a kid hbridges herror => exact absurd herror hcool
  | coolingUnknown a kid missed herror => exact absurd herror hcool
  | outlasted a kid hsafe | cooled a kid hsafe | cooledUnknown a kid hsafe =>
      exact absurd hsafe hfetch

/-! ## The invariant -/

variable {keyRing : KeyRing}

/-- A later ring: time has passed, and records have moved. -/
structure Later (life life' : Life) : Prop where
  clock : life.clock ≤ life'.clock
  signed : life.signed ⊆ life'.signed
  records : ∀ k r, find life.ring.records k = some r →
    ∃ r', find life'.ring.records k = some r' ∧ Moved r r'

theorem later_wait (life : Life) (now : Time) :
    Later life { life with clock := max life.clock now } :=
  ⟨le_max_left _ _, List.Subset.refl _, fun _ r hr => ⟨r, hr, .refl r⟩⟩

theorem later_step (keyRing : KeyRing) (life : Life) (l : Time × Call) :
    Later life (Keyring.step keyRing life l) := by
  refine ⟨?_, ?_, fun k r hr => find_moved keyRing life l hr⟩
  · rw [clock_step]
    exact le_max_left _ _
  · have hd := step_did keyRing life l
    generalize Keyring.step keyRing life l = life' at hd ⊢
    cases hd with
    | signed kid key hs => exact List.subset_cons_self _ _
    | _ => exact List.Subset.refl _

/-- The token was presented in the past, and after the signatures listed with it. -/
structure Given (life : Life) (pr : Presented Token) : Prop where
  time : pr.time ≤ life.clock
  signed : ∀ g ∈ pr.signed, g ∈ life.signed ∧ g.time ≤ pr.time

/-- The refusal of a token at `u` is explained, whichever signature it may be. -/
def Excused (cfg : Settings) (J : Jwt Token) (keyRing : KeyRing) (life : Life)
    (pr : Presented Token) (u : Time) : Prop :=
  ∀ g ∈ pr.signed, kidOf J pr.token = some g.kid → ∃ record,
    find life.ring.records g.kid = some record ∧ record.state ≠ .published ∧
      Explained cfg keyRing ⟨pr, u⟩ g record

theorem Given.later {life life' : Life} {pr : Presented Token} (h : Given life pr)
    (hl : Later life life') : Given life' pr :=
  ⟨le_trans h.time hl.clock, fun g hg => ⟨hl.signed (h.signed g hg).1, (h.signed g hg).2⟩⟩

theorem Excused.later {life life' : Life} {pr : Presented Token} {u u' : Time}
    (h : Excused cfg J keyRing life pr u) (hl : Later life life') (hu : u ≤ u') :
    Excused cfg J keyRing life' pr u' := by
  intro g hg hk
  obtain ⟨r, hr, hspent, hwindow, hsettled⟩ := h g hg hk
  obtain ⟨r', hr', hm⟩ := hl.records _ r hr
  refine ⟨r', hr', hm.spent hspent, ?_, ?_⟩
  · rw [hm.publishedAt]
    exact hwindow.imp_right fun hw => ⟨hm.retired hw.1, le_trans hw.2 hu⟩
  · intro a ha hle
    rw [hm.activatedAt hspent] at ha
    rw [hm.publishedAt] at hle
    exact le_trans (hsettled a ha hle) hu

/-- A token whose kid a fresh key set has missed. -/
theorem excused_of_miss {life : Life} {pr : Presented Token} {kid : String}
    (hs : Keyring.Sound keyRing life) (hstamped : Stamped life) (hg : Given life pr)
    (hk : kidOf J pr.token = some kid)
    (hmiss : ∀ r, find life.ring.records kid = some r → r.state ≠ .retired →
      pr.time < r.publishedAt + cfg.jwksTtl) :
    Excused cfg J keyRing life pr life.clock := by
  intro g hmem hkid
  rw [hk] at hkid
  cases hkid
  obtain ⟨hsigned, htime⟩ := hg.signed g hmem
  obtain ⟨-, -, r, hr, hserves⟩ := hs.signed g hsigned
  obtain ⟨hspent, a, ha, hle⟩ := hstamped.signed g hsigned r hr
  have hwindow : pr.time < r.publishedAt + cfg.jwksTtl ∨
      (r.state = .retired ∧ g.time + keyRing.overlapSeconds ≤ life.clock) := by
    by_cases hret : r.state = .retired
    · right
      rcases hserves with hact | ⟨τ, -, hτ, hret' | ⟨-, hend⟩⟩
      · rw [hret] at hact
        cases hact
      · rw [hret] at hret'
        cases hret'
      · exact ⟨hret, by linarith⟩
    · exact Or.inl (hmiss r hr hret)
  refine ⟨r, hr, hspent, hwindow, ?_⟩
  intro a' ha' hsettled
  rw [ha] at ha'
  cases ha'
  rcases hwindow with hlt | ⟨-, hend⟩
  · exfalso
    linarith
  · exact hend

/-- What a call is on, by the token it was given. -/
def Owns (cfg : Settings) (J : Jwt Token) (keyRing : KeyRing) (life : Life)
    (given : Option (Presented Token)) : Task Token → Prop
  | .entered token => ∃ pr, given = some pr ∧ pr.token = token ∧ Given life pr
  | .lockStale _ kid => ∃ pr, given = some pr ∧ kidOf J pr.token = some kid ∧ Given life pr
  | .fetchStale _ kid => ∃ pr, given = some pr ∧ kidOf J pr.token = some kid ∧ Given life pr
  | .lockUnknown _ _ _ => ∃ pr, given = some pr ∧ Excused cfg J keyRing life pr life.clock
  | .fetchUnknown _ _ => ∃ pr, given = some pr ∧ Excused cfg J keyRing life pr life.clock
  | _ => True

theorem Owns.later {life life' : Life} {given : Option (Presented Token)} {t : Task Token}
    (h : Owns cfg J keyRing life given t) (hl : Later life life') :
    Owns cfg J keyRing life' given t := by
  cases t with
  | entered token =>
      obtain ⟨pr, hp, ht, hg⟩ := h
      exact ⟨pr, hp, ht, hg.later hl⟩
  | lockStale a kid =>
      obtain ⟨pr, hp, hk, hg⟩ := h
      exact ⟨pr, hp, hk, hg.later hl⟩
  | fetchStale a kid =>
      obtain ⟨pr, hp, hk, hg⟩ := h
      exact ⟨pr, hp, hk, hg.later hl⟩
  | lockUnknown a kid n =>
      obtain ⟨pr, hp, he⟩ := h
      exact ⟨pr, hp, he.later hl hl.clock⟩
  | fetchUnknown a kid =>
      obtain ⟨pr, hp, he⟩ := h
      exact ⟨pr, hp, he.later hl hl.clock⟩
  | _ => trivial

/-- The key set mirrors the ring: a key it lacks was published after it, or is retired. -/
structure Mirrors (cfg : Settings) (life : Life) (cache : Cache) : Prop where
  error : cache.refreshErrorUntil ≤ 0
  until_ : cache.jwksUntil ≤ 0 ∨ cache.jwksUntil ≤ life.clock + cfg.jwksTtl
  keys : ∀ k r, find life.ring.records k = some r → cache.keys.lookup k = none →
    cache.jwksUntil ≤ 0 ∨ cache.jwksUntil ≤ r.publishedAt + cfg.jwksTtl ∨ r.state = .retired

structure Steady (cfg : Settings) (J : Jwt Token) (keyRing : KeyRing) (x : Site Token) : Prop where
  sound : Keyring.Sound keyRing x.life
  stamped : Stamped x.life
  readable : Readable J x.life.ring
  clock : 0 ≤ x.life.clock ∧ x.host.shared.clock = x.life.clock
  mirrors : Mirrors cfg x.life x.host.shared.cache
  tasks : ∀ p, Owns cfg J keyRing x.life (x.presented p) (x.host.task p)
  unknown : ∀ r ∈ x.unknown, Excused cfg J keyRing x.life r.presented r.time

theorem steady_start (cfg : Settings) (J : Jwt Token) (keyRing : KeyRing) {clock : Time}
    (h : 0 ≤ clock) : Steady cfg J keyRing (.start cfg J clock) := by
  refine ⟨sound_life keyRing clock, stamped_start clock, ?_, ⟨h, rfl⟩,
    ⟨le_refl _, Or.inl (le_refl _), ?_⟩, fun _ => trivial, ?_⟩
  · intro r hr
    cases hr
  · intro k r hr
    cases hr
  · intro r hr
    cases hr

theorem Mirrors.wait {life : Life} {cache : Cache} (h : Mirrors cfg life cache) (now : Time) :
    Mirrors cfg { life with clock := max life.clock now } cache := by
  refine ⟨h.error, h.until_.imp_right fun hu => le_trans hu ?_, h.keys⟩
  have hle : life.clock ≤ max life.clock now := le_max_left _ _
  simp only
  linarith

theorem Steady.tick {x : Site Token} (h : Steady cfg J keyRing x) (now : Time) :
    Steady cfg J keyRing (x.tick now) := by
  have hl := later_wait x.life now
  refine ⟨h.sound.wait now, h.stamped.wait now, h.readable, ⟨le_trans h.clock.1 hl.clock, ?_⟩,
    h.mirrors.wait now, fun p => (h.tasks p).later hl, ?_⟩
  · show max x.host.shared.clock now = max x.life.clock now
    rw [h.clock.2]
  · exact fun r hr => (h.unknown r hr).later hl (le_refl _)

/-- What a call of the ring needs. -/
theorem freshKid_of_generated {x : Site Token} {now : Time} {call : Call}
    (h : Generated J x (now, .ring call)) (t : Time) : FreshKid x.life (t, call) := by
  cases call with
  | op op =>
      cases op with
      | publish kid pair => exact h.1
      | _ => trivial
  | sign => trivial

theorem readable_step {x : Site Token} {now : Time} {call : Call} (hr : Readable J x.life.ring)
    (h : Generated J x (now, .ring call)) :
    Readable J (Keyring.step keyRing x.life (x.life.clock, call)).ring := by
  have hd := step_did keyRing x.life (x.life.clock, call)
  generalize Keyring.step keyRing x.life (x.life.clock, call) = life' at hd ⊢
  have hkids : ∀ records : List KeyRecord,
      records.map KeyRecord.kid = x.life.ring.records.map KeyRecord.kid →
        Readable J { x.life.ring with records } := by
    intro records hkids r hmem key hkey
    have hk : r.kid ∈ records.map KeyRecord.kid := List.mem_map.mpr ⟨r, hmem, rfl⟩
    rw [hkids] at hk
    obtain ⟨r', hr', he⟩ := List.mem_map.mp hk
    rw [← he] at hkey ⊢
    exact hr r' hr' key hkey
  cases hd with
  | waited => exact hr
  | signed kid key hs => exact hr
  | published kid pair he =>
      simp only at he
      subst he
      intro r hmem key hkey
      rcases publicPem_publish hkey with ⟨hk, hkey⟩ | ⟨hk, rfl⟩
      · rcases List.mem_append.mp hmem with hmem | hmem
        · exact hr r hmem key hkey
        · rw [List.mem_singleton.mp hmem] at hk
          exact absurd rfl hk
      · rw [hk]
        exact h.2
  | activated kid records ha => exact hkids records (activateRecords_eq_ok ha).2.1
  | retired kid records ha => exact hkids records (retireRecords_eq_ok ha).2.1

/-- A record of the ring after a call was there before, or is published by it. -/
theorem find_back (keyRing : KeyRing) (s : Life) (l : Time × Call) {k : String} {r' : KeyRecord}
    (hr' : find (Keyring.step keyRing s l).ring.records k = some r') :
    (∃ r, find s.ring.records k = some r ∧ Moved r r') ∨ r'.publishedAt = max s.clock l.1 := by
  cases hr : find s.ring.records k with
  | some r =>
      obtain ⟨r'', hr'', hm⟩ := find_moved keyRing s l hr
      rw [hr'] at hr''
      cases hr''
      exact Or.inl ⟨r, rfl, hm⟩
  | none =>
      right
      have hd := step_did keyRing s l
      generalize Keyring.step keyRing s l = s' at hd hr'
      cases hd with
      | waited =>
          simp only [hr] at hr'
          cases hr'
      | signed kid key hs =>
          simp only [hr] at hr'
          cases hr'
      | published kid pair he =>
          simp only [publish, find_append, hr, Option.none_or] at hr'
          split at hr'
          · cases hr'
            rfl
          · cases hr'
      | activated kid records ha =>
          simp only [(activateRecords_eq_ok ha).2.2 k, hr, Option.map_none] at hr'
          cases hr'
      | retired kid records ha =>
          simp only [(retireRecords_eq_ok ha).2.2 k, hr, Option.map_none] at hr'
          cases hr'

theorem Steady.ring {x : Site Token} (h : Steady cfg J keyRing x) (now : Time) {call : Call}
    (hl : Generated J x (now, .ring call)) :
    Steady cfg J keyRing (act cfg J keyRing x (.ring call)) := by
  have hlater := later_step keyRing x.life (x.life.clock, call)
  have hclock : (Keyring.step keyRing x.life (x.life.clock, call)).clock = x.life.clock := by
    rw [clock_step, max_self]
  refine ⟨sound_step keyRing x.life _ h.sound (freshKid_of_generated hl _),
    h.stamped.step h.sound _, readable_step h.readable hl, ?_, ⟨h.mirrors.error, ?_, ?_⟩,
    fun p => (h.tasks p).later hlater, fun r hr => (h.unknown r hr).later hlater (le_refl _)⟩
  · show 0 ≤ (Keyring.step keyRing x.life (x.life.clock, call)).clock ∧
      x.host.shared.clock = (Keyring.step keyRing x.life (x.life.clock, call)).clock
    rw [hclock]
    exact h.clock
  · show _ ∨ _ ≤ (Keyring.step keyRing x.life (x.life.clock, call)).clock + _
    rw [hclock]
    exact h.mirrors.until_
  · intro k r' hr' hnone
    rcases find_back keyRing x.life _ hr' with ⟨r, hr, hm⟩ | hpub
    · rw [hm.publishedAt]
      exact (h.mirrors.keys k r hr hnone).imp_right fun hk => hk.imp_right hm.retired
    · rw [hpub, max_self]
      exact h.mirrors.until_.imp_right Or.inl

theorem Steady.call {x : Site Token} (h : Steady cfg J keyRing x) (p : ℕ) (token : Token) :
    Steady cfg J keyRing (act cfg J keyRing x (.call p token)) := by
  simp only [act, Program.signal]
  have hfree : (verifier cfg J).free (x.host.task p) = (x.host.task p).free := rfl
  rw [hfree]
  split
  · refine ⟨h.sound, h.stamped, h.readable, h.clock, h.mirrors, ?_, h.unknown⟩
    intro q
    by_cases hq : q = p
    · subst hq
      simp only [Function.update_self]
      refine ⟨_, rfl, rfl, le_refl _, ?_⟩
      intro g hg
      exact ⟨hg, (h.sound.signed g hg).1⟩
    · simp only [Function.update_of_ne hq]
      exact h.tasks q
  · exact ⟨h.sound, h.stamped, h.readable, h.clock, h.mirrors, h.tasks, h.unknown⟩

theorem Steady.kill {x : Site Token} (h : Steady cfg J keyRing x) (p : ℕ) :
    Steady cfg J keyRing (act cfg J keyRing x (.kill p)) := by
  refine ⟨h.sound, h.stamped, h.readable, h.clock, h.mirrors, ?_, h.unknown⟩
  intro q
  simp only [act, Program.signal]
  by_cases hq : q = p
  · subst hq
    simp only [Function.update_self]
    trivial
  · simp only [Function.update_of_ne hq]
    exact h.tasks q

/-- A call that misses its kid has its refusal explained. -/
theorem Steady.excused {x : Site Token} (h : Steady cfg J keyRing x) {p : ℕ} {s : Service Token}
    (hclock : s.clock = x.life.clock) (hcache : s.cache = x.host.shared.cache)
    (hm : Misses J (fetched x.life.ring) s (x.host.task p)) :
    ∃ pr, x.presented p = some pr ∧ Excused cfg J keyRing x.life pr x.life.clock := by
  have howns := h.tasks p
  have hpresent : ∀ {pr : Presented Token} {kid : String}, Given x.life pr →
      kidOf J pr.token = some kid → s.clock < s.cache.jwksUntil →
        s.cache.keys.lookup kid = none → Excused cfg J keyRing x.life pr x.life.clock := by
    intro pr kid hg hk hfresh hnone
    refine excused_of_miss h.sound h.stamped hg hk ?_
    intro r hr hret
    rw [hclock, hcache] at hfresh
    rw [hcache] at hnone
    rcases h.mirrors.keys kid r hr hnone with h0 | hlt | hr'
    · exact absurd (lt_of_lt_of_le hfresh h0) (not_lt.mpr h.clock.1)
    · exact lt_of_le_of_lt hg.time (lt_of_lt_of_le hfresh hlt)
    · exact absurd hr' hret
  generalize x.host.task p = t at hm howns
  cases t with
  | entered token =>
      obtain ⟨pr, hp, rfl, hg⟩ := howns
      obtain ⟨kid, hk, hfresh, hnone⟩ := hm
      exact ⟨pr, hp, hpresent hg hk hfresh hnone⟩
  | lockStale a kid =>
      obtain ⟨pr, hp, hk, hg⟩ := howns
      exact ⟨pr, hp, hpresent hg hk hm.1 hm.2⟩
  | fetchStale a kid =>
      obtain ⟨pr, hp, hk, hg⟩ := howns
      obtain ⟨document, keys, hsafe, hnone⟩ := hm
      refine ⟨pr, hp, excused_of_miss h.sound h.stamped hg hk ?_⟩
      intro r hr hret
      rcases safeRefresh_fetched h.sound h.readable with ⟨document', keys', hsafe', hall⟩ | herr
      · rw [hsafe] at hsafe'
        cases hsafe'
        exact absurd hnone (hall kid r hr hret)
      · rw [hsafe] at herr
        cases herr
  | lockUnknown a kid n => exact howns
  | fetchUnknown a kid => exact howns
  | _ => exact hm.elim

/-- The mirror after a step of a call. -/
theorem mirrors_step {life : Life} {s s' : Service Token} (hs : Keyring.Sound keyRing life)
    (hr : Readable J life.ring) (h : Mirrors cfg life s.cache) (hclock : s.clock = life.clock)
    (hkeys : KeysStep cfg J (fetched life.ring) s s') : Mirrors cfg life s'.cache := by
  cases hkeys with
  | same keys until_ error =>
      refine ⟨by rw [error]; exact h.error, by rw [until_]; exact h.until_, ?_⟩
      rw [keys, until_]
      exact h.keys
  | accepted document keys hsafe keys_ until_ error =>
      rw [hclock] at until_
      refine ⟨le_of_eq error, Or.inr (le_of_eq until_), ?_⟩
      intro k r hk hnone
      right
      right
      by_contra hret
      rw [keys_] at hnone
      rcases safeRefresh_fetched hs hr with ⟨document', keys', hsafe', hall⟩ | herr
      · rw [hsafe] at hsafe'
        cases hsafe'
        exact hall k r hk hret hnone
      · rw [hsafe] at herr
        cases herr

/-- Where a call goes on from: what it owns then. -/
theorem Steady.onward {x : Site Token} (h : Steady cfg J keyRing x) {p : ℕ} {missed : Prop}
    (hm : missed → ∃ pr, x.presented p = some pr ∧ Excused cfg J keyRing x.life pr x.life.clock)
    {t : Task Token} (ht : OnTheWay (Stale J (x.host.task p)) missed t) :
    Owns cfg J keyRing x.life (x.presented p) t := by
  have howns := h.tasks p
  have hstale : ∀ kid, Stale J (x.host.task p) kid → ∃ pr, x.presented p = some pr ∧
      kidOf J pr.token = some kid ∧ Given x.life pr := by
    intro kid hs
    generalize x.host.task p = u at hs howns
    cases u with
    | entered token =>
        obtain ⟨pr, hp, rfl, hg⟩ := howns
        exact ⟨pr, hp, hs, hg⟩
    | lockStale a kid' =>
        obtain ⟨pr, hp, hk, hg⟩ := howns
        rw [show kid' = kid from hs] at hk
        exact ⟨pr, hp, hk, hg⟩
    | _ => exact hs.elim
  cases t with
  | entered token => exact ht.elim
  | lockStale a kid => exact hstale kid ht
  | fetchStale a kid => exact hstale kid ht
  | lockUnknown a kid n => exact hm ht
  | fetchUnknown a kid => exact hm ht
  | _ => trivial

/-- A refusal is of the token the call was given, now. -/
theorem mem_refusal {x : Site Token} {p : ℕ} {ended : List (Ended Token)} {r : Unknown Token}
    (h : r ∈ refusal x p ended) : endsUnknown x.host.shared.ended ended = true ∧
      ∃ pr, x.presented p = some pr ∧ r = ⟨pr, x.life.clock⟩ := by
  unfold refusal at h
  split at h
  · next hend =>
      obtain ⟨pr, hp, rfl⟩ := List.mem_map.mp h
      exact ⟨hend, pr, Option.mem_toList.mp hp, rfl⟩
  · cases h

theorem Steady.go {x : Site Token} (h : Steady cfg J keyRing x) (p : ℕ) (wall : Time)
    (active : Option Bool) : Steady cfg J keyRing (act cfg J keyRing x (.go p wall active)) := by
  simp only [act, Program.signal]
  split
  · refine ⟨h.sound, h.stamped, h.readable, h.clock, h.mirrors, h.tasks, ?_⟩
    simp only [refusal, endsUnknown_self]
    exact h.unknown
  · have hclock : (x.host.shared.tick x.life.clock).clock = x.life.clock := by
      show max x.host.shared.clock x.life.clock = x.life.clock
      rw [h.clock.2, max_self]
    have hlead := leads_advance (J := J) (s := x.host.shared.tick x.life.clock) cfg
      ⟨x.life.clock, wall, fetched x.life.ring, active⟩ (x.host.task p)
      (by rw [hclock]; exact h.clock.1) h.mirrors.error ?_
    · have hmiss : Misses J (fetched x.life.ring) (x.host.shared.tick x.life.clock)
          (x.host.task p) → ∃ pr, x.presented p = some pr ∧
            Excused cfg J keyRing x.life pr x.life.clock := h.excused hclock rfl
      refine ⟨h.sound, h.stamped, h.readable, ⟨h.clock.1, hlead.clock.trans hclock⟩, ?_, ?_, ?_⟩
      · exact mirrors_step (s := x.host.shared.tick x.life.clock) h.sound h.readable h.mirrors
          hclock hlead.keys
      · intro q
        by_cases hq : q = p
        · subst hq
          simp only [Function.update_self]
          exact h.onward hmiss hlead.task
        · simp only [Function.update_of_ne hq]
          exact h.tasks q
      · intro r hr
        rcases List.mem_append.mp hr with hr | hr
        · obtain ⟨hend, pr, hp, rfl⟩ := mem_refusal hr
          obtain ⟨pr', hp', hexc⟩ := hmiss (hlead.ended hend)
          rw [hp] at hp'
          cases hp'
          exact hexc
        · exact h.unknown r hr
    · rcases safeRefresh_fetched h.sound h.readable with ⟨document, keys, hsafe, -⟩ | herr
      · simp [hsafe]
      · simp [herr]

theorem steady_step {x : Site Token} {l : Time × Event Token} (h : Steady cfg J keyRing x)
    (hl : Generated J x l) : Steady cfg J keyRing (step cfg J keyRing x l) := by
  obtain ⟨now, e⟩ := l
  have ht := h.tick now
  cases e with
  | ring call =>
      refine ht.ring now ?_
      cases call with
      | op op =>
          cases op with
          | publish kid pair => exact hl
          | _ => trivial
      | sign => trivial
  | call p token => exact ht.call p token
  | go p wall active => exact ht.go p wall active
  | kill p => exact ht.kill p

/-- No refusal as unknown surprises: in every run, a key was published too lately, or its token
    had outlived the overlap. -/
theorem rotation_seamless (cfg : Settings) (J : Jwt Token) (keyRing : KeyRing) (clock : Time)
    (ls : List (Time × Event Token)) (hclock : 0 ≤ clock)
    (hgen : Along (step cfg J keyRing) (Generated J) (.start cfg J clock) ls) :
    Overlapping cfg J keyRing clock ls := by
  have h := run_invariant (step cfg J keyRing) (Steady cfg J keyRing)
    (fun _ _ h hl => steady_step h hl) (steady_start cfg J keyRing hclock) hgen
  intro r hr g hg hk
  obtain ⟨record, hrecord, -, hexplained⟩ := h.unknown r hr g hg hk
  exact ⟨record, hrecord, hexplained⟩

/-- A forged kid drives the refresh limit and the negative cache, and a token of the key that was
    published meanwhile is refused. -/
theorem late_publication : Overlapping labSettings plainJwt KeyRing.default 0
    [(0, .ring (.op (.publish "a" plainPair))), (0, .ring (.op (.activate "a"))),
     (1, .call 1 (sampleToken "forged")), (1, .go 1 1 none), (1, .go 1 1 none),
     (1, .go 1 1 none), (1, .go 1 1 none), (1, .go 1 1 none),
     (2, .ring (.op (.publish "b" plainPair))), (3, .ring (.op (.activate "b"))),
     (4, .ring .sign), (5, .call 2 (sampleToken "b")), (5, .go 2 5 none), (5, .go 2 5 none)] :=
  rotation_seamless labSettings plainJwt KeyRing.default 0 _ (le_refl _) (by decide +kernel)

end TemisLab.Resource.Rollover
