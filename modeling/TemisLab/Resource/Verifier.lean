/-
  `JwksVerifier` (`resource_api/auth.py`): concurrent calls of `authenticate` that share one
  cache and the refresh lock. A step of a call runs from one await to the next and takes no
  time; `fetch_jwks` and `status_check` answer, raise or never end. A waiting for the lock is an
  await also when the lock is free, and a cancelled call is killed.

  What `_safe_refresh` refuses is told by the kind of the answer (`safeRefresh_unavailable`,
  `safeRefresh_notJwks`).

  PyJWT and Python's `repr` are parameters. The history keeps the documents accepted, the true
  answers of `status_check` and how each call ended, with what it went by.
-/
import TemisLab.Lib.Json
import TemisLab.Lib.Lock
import TemisLab.Lib.PyText
import TemisLab.Lib.Slots
import TemisLab.Keyring.Records
import Mathlib.Data.Finset.Dedup
import Mathlib.Data.Finset.Empty

namespace TemisLab.Resource

open TemisLab.Lib TemisLab.Sso TemisLab.Keyring

/-- What `authenticate` uses of PyJWT, and `repr`. `none` is a `PyJWTError`; `fromJwk` may also
    give a key that is not an `RSAPublicKey`. `decode` takes the wall clock. -/
structure Jwt (Token : Type) where
  getUnverifiedHeader : Token → Option Dict
  decode : PublicKey → (issuer audience : String) → Time → Token → Option Dict
  fromJwk : Dict → Option (Option PublicKey)
  repr : Json → String

/-- `str(value)`. -/
def Jwt.str {Token : Type} (J : Jwt Token) : Json → String
  | .str s => s
  | v => J.repr v

/-- The constructor's arguments. -/
structure Settings where
  issuer : String
  audience : String
  authorizedParty : String
  jwksTtl : Time
  jwksStaleTtl : Time
  statusTtl : Time
  refreshCooldown : Time
  /-- A time to live is not negative. -/
  stale_nonneg : 0 ≤ jwksStaleTtl

structure Principal where
  subject : String
  scopes : Finset String
  roles : Finset String
  authzVersion : ℤ
  deriving DecidableEq

/-- `TokenRejected` and `DependencyUnavailable` by their messages. -/
inductive Refusal where
  /-- "malformed bearer token" -/
  | malformedToken
  /-- "RS256 token with kid required" -/
  | rs256Required
  /-- `DependencyUnavailable`: "JWKS unavailable" -/
  | jwksUnavailable
  /-- A `TokenRejected` that `fetch_jwks` raised. -/
  | fetchRejected
  /-- "invalid JWKS document" -/
  | invalidJwks
  /-- "JWKS has no RS256 signing keys" -/
  | noSigningKeys
  /-- "unknown signing key" -/
  | unknownSigningKey
  /-- "token validation failed" -/
  | validationFailed
  /-- "token binding is invalid" -/
  | bindingInvalid
  /-- `DependencyUnavailable`: "authorization status unavailable" -/
  | statusUnavailable
  /-- "subject is inactive or stale" -/
  | inactiveOrStale
  /-- The `KeyError` of claims without a scope, which `jwt.decode` is told to require. -/
  | missingScope
  deriving DecidableEq, Repr

/-- The outcome of `fetch_jwks`: a value, a `TokenRejected` or another exception. -/
inductive Fetched where
  | document (d : Json)
  | rejected
  | failed

/-- A `dict` of keys; an assignment shadows the earlier one. -/
abbrev KeySet := List (String × PublicKey)

/-- The mutable fields. -/
structure Cache where
  keys : KeySet
  jwksUntil : Time
  jwksStaleUntil : Time
  status : String → Option (Time × ℤ)
  negativeKids : String → Option Time
  unknownRefreshAfter : Time
  refreshErrorUntil : Time

def Cache.empty : Cache := ⟨[], 0, 0, fun _ => none, fun _ => none, 0, 0⟩

/-! ## The history -/

/-- A document `_refresh` accepted. -/
structure Accepted where
  time : Time
  document : Json

/-- A `status_check` that answered true. -/
structure Confirmed where
  time : Time
  subject : String
  version : ℤ
  deriving DecidableEq, Repr

/-- A call, with when it began and how much had been accepted and confirmed by then. -/
structure Attempt (Token : Type) where
  token : Token
  began : Time
  docs : ℕ
  confirms : ℕ

/-- A key read from `_keys`: when, and after how many accepted documents. -/
structure Reading where
  key : PublicKey
  docs : ℕ
  time : Time

/-- A token that passed `jwt.decode` and the binding checks, and the time and the step at which
    the status cache was consulted for it. -/
structure Verified where
  kid : String
  reading : Reading
  claims : Dict
  subject : String
  version : ℤ
  consulted : Time
  turn : ℕ

inductive Outcome where
  | refused (reason : Refusal)
  | returned (principal : Principal) (v : Verified)

/-- The subject of the `Principal`, if there is one. -/
def Outcome.subject : Outcome → Option String
  | .refused _ => none
  | .returned principal _ => some principal.subject

/-- How a call ended, when, and how much had been confirmed by then. -/
structure Ended (Token : Type) where
  attempt : Attempt Token
  time : Time
  confirms : ℕ
  outcome : Outcome

/-- The cache, and the history: the last reading of the clock, the steps taken, the documents
    accepted, the true answers, and the calls that ended. -/
structure Service (Token : Type) where
  cache : Cache
  clock : Time
  turns : ℕ
  accepted : List Accepted
  confirmed : List Confirmed
  ended : List (Ended Token)

def Service.start (Token : Type) (clock : Time) : Service Token := ⟨.empty, clock, 0, [], [], []⟩

/-- Where a call awaits. `missed` is the number of documents that had been accepted when the
    kid was not found. -/
inductive Task (Token : Type) where
  | idle
  | entered (token : Token)
  | lockStale (a : Attempt Token) (kid : String)
  | fetchStale (a : Attempt Token) (kid : String)
  | lockUnknown (a : Attempt Token) (kid : String) (missed : ℕ)
  | fetchUnknown (a : Attempt Token) (kid : String)
  | statusCheck (a : Attempt Token) (v : Verified)

/-- What a step reads: the monotonic and the wall clock, and what the awaited service answers,
    where it awaits one. `none` is an exception of `status_check`. -/
structure Input where
  now : Time
  wall : Time
  fetched : Fetched
  active : Option Bool

variable {Token : Type}

/-! ## Refreshing -/

/-- The loop of `_refresh`; `none` is an exception of `from_jwk`. -/
def readKeys (J : Jwt Token) (keys : KeySet) : List Json → Option KeySet
  | [] => some keys
  | .dict d :: rest =>
      if Dict.str d "alg" = some "RS256" then
        match Dict.str d "kid" with
        | none => readKeys J keys rest
        | some kid =>
            match J.fromJwk d with
            | none => none
            | some none => readKeys J keys rest
            | some (some key) => readKeys J ((kid, key) :: keys) rest
      else readKeys J keys rest
  | _ :: rest => readKeys J keys rest

/-- `_safe_refresh`: an acceptable document with its key set. -/
def safeRefresh (J : Jwt Token) : Fetched → Except Refusal (Json × KeySet)
  | .failed => .error .jwksUnavailable
  | .rejected => .error .fetchRejected
  | .document (.dict d) =>
      match d.lookup "keys" with
      | some (.list values) =>
          match readKeys J [] values with
          | none => .error .jwksUnavailable
          | some [] => .error .noSigningKeys
          | some keys => .ok (.dict d, keys)
      | _ => .error .invalidJwks
  | .document _ => .error .jwksUnavailable

/-- The list under `keys`. -/
def keyList (d : Dict) : Option (List Json) :=
  match d.lookup "keys" with
  | some (.list values) => some values
  | _ => none

/-- A listed RS256 key with a kid that `from_jwk` raises on. -/
def BadKey (J : Jwt Token) : Json → Prop
  | .dict d => Dict.str d "alg" = some "RS256" ∧ (Dict.str d "kid").isSome = true ∧
      J.fromJwk d = none
  | _ => False

/-- One that `from_jwk` makes an RSA key of. -/
def UsableKey (J : Jwt Token) : Json → Prop
  | .dict d => Dict.str d "alg" = some "RS256" ∧ (Dict.str d "kid").isSome = true ∧
      (J.fromJwk d).join.isSome = true
  | _ => False

instance (J : Jwt Token) (value : Json) : Decidable (BadKey J value) :=
  match value with
  | .dict _ => inferInstanceAs (Decidable (_ ∧ _ ∧ _))
  | .null | .bool _ | .int _ | .float _ | .str _ | .list _ => isFalse id

instance (J : Jwt Token) (value : Json) : Decidable (UsableKey J value) :=
  match value with
  | .dict _ => inferInstanceAs (Decidable (_ ∧ _ ∧ _))
  | .null | .bool _ | .int _ | .float _ | .str _ | .list _ => isFalse id

/-- What `fetch_jwks` answers cannot be read as a key set: it raises, or answers with no object, or
    with a list of keys that has a bad one. -/
def Unreadable (J : Jwt Token) : Fetched → Prop
  | .failed => True
  | .rejected => False
  | .document (.dict d) => ∃ values ∈ keyList d, ∃ value ∈ values, BadKey J value
  | .document _ => True

/-- It is an object that is no JWKS document: without a list of keys, or with a list that can be
    read and has no key to use. -/
def NotJwks (J : Jwt Token) : Fetched → Prop
  | .document (.dict d) =>
      ∀ values ∈ keyList d, ∀ value ∈ values, ¬ BadKey J value ∧ ¬ UsableKey J value
  | _ => False

instance (J : Jwt Token) (f : Fetched) : Decidable (NotJwks J f) :=
  match f with
  | .document (.dict d) => inferInstanceAs (Decidable (∀ values ∈ keyList d, ∀ value ∈ values,
      ¬ BadKey J value ∧ ¬ UsableKey J value))
  | .failed | .rejected | .document .null | .document (.bool _) | .document (.int _)
  | .document (.float _) | .document (.str _) | .document (.list _) => isFalse id

/-- What one listed key adds to the key set. -/
theorem readKeys_cons (J : Jwt Token) (keys : KeySet) (value : Json) (values : List Json) :
    (BadKey J value ∧ ¬ UsableKey J value ∧ readKeys J keys (value :: values) = none) ∨
      (UsableKey J value ∧ ¬ BadKey J value ∧ ∃ entry,
        readKeys J keys (value :: values) = readKeys J (entry :: keys) values) ∨
      (¬ BadKey J value ∧ ¬ UsableKey J value ∧
        readKeys J keys (value :: values) = readKeys J keys values) := by
  cases value with
  | dict d =>
      unfold BadKey UsableKey
      dsimp only
      rw [readKeys]
      by_cases halg : Dict.str d "alg" = some "RS256"
      · cases hkid : Dict.str d "kid" with
        | none => simp [halg]
        | some kid =>
            rcases hkey : J.fromJwk d with _ | _ | key
            · simp [halg]
            · simp [halg]
            · exact Or.inr (Or.inl ⟨by simp [halg], by simp, (kid, key), by simp [halg]⟩)
      · simp [halg]
  | _ => exact Or.inr (Or.inr ⟨id, id, rfl⟩)

theorem readKeys_eq_nil {J : Jwt Token} {keys : KeySet} {values : List Json} :
    readKeys J keys values = some [] ↔
      keys = [] ∧ ∀ value ∈ values, ¬ BadKey J value ∧ ¬ UsableKey J value := by
  induction values generalizing keys with
  | nil => simp [readKeys]
  | cons value values ih =>
      rw [List.forall_mem_cons]
      rcases readKeys_cons J keys value values with
        ⟨hbad, -, hread⟩ | ⟨husable, -, entry, hread⟩ | ⟨hgood, hnone, hread⟩
      · simp [hread, hbad]
      · simp [hread, husable, ih]
      · simp [hread, hgood, hnone, ih]

/-- What `_safe_refresh` makes of an object. -/
theorem safeRefresh_dict (J : Jwt Token) (d : Dict) :
    safeRefresh J (.document (.dict d)) =
      (keyList d).elim (.error .invalidJwks) fun values =>
        (readKeys J [] values).elim (.error .jwksUnavailable) fun keys =>
          if keys = [] then .error .noSigningKeys else .ok (.dict d, keys) := by
  unfold safeRefresh keyList
  dsimp only
  cases d.lookup "keys" with
  | none => rfl
  | some listed =>
      cases listed with
      | list values =>
          dsimp only [Option.elim_some]
          cases readKeys J [] values with
          | none => rfl
          | some keys => cases keys <;> simp
      | _ => rfl

/-- It rejects what is no JWKS document, and nothing else. -/
theorem safeRefresh_notJwks {J : Jwt Token} {f : Fetched} :
    safeRefresh J f = .error .invalidJwks ∨ safeRefresh J f = .error .noSigningKeys ↔
      NotJwks J f := by
  cases f with
  | failed => simp [safeRefresh, NotJwks]
  | rejected => simp [safeRefresh, NotJwks]
  | document value =>
      cases value with
      | dict d =>
          rw [safeRefresh_dict]
          unfold NotJwks
          dsimp only
          cases keyList d with
          | none => simp
          | some values =>
              have hnil : readKeys J [] values = some [] ↔
                  ∀ value ∈ values, ¬ BadKey J value ∧ ¬ UsableKey J value := by
                rw [readKeys_eq_nil]
                exact and_iff_right rfl
              cases hread : readKeys J [] values with
              | none => simpa [hread] using hnil
              | some keys =>
                  rw [hread] at hnil
                  by_cases hkeys : keys = [] <;> simpa [hread, hkeys] using hnil
      | _ => simp [safeRefresh, NotJwks]

/-- `_refresh` accepts a document. -/
def Service.accept (cfg : Settings) (s : Service Token) (document : Json) (keys : KeySet) :
    Service Token :=
  { s with
    cache := { s.cache with
      keys
      jwksUntil := s.clock + cfg.jwksTtl
      jwksStaleUntil := s.clock + cfg.jwksTtl + cfg.jwksStaleTtl
      refreshErrorUntil := 0 }
    accepted := s.accepted ++ [⟨s.clock, document⟩] }

/-- `_refresh_error_until` is set after an outage. -/
def Service.coolDown (cfg : Settings) (s : Service Token) : Service Token :=
  { s with cache.refreshErrorUntil := s.clock + cfg.refreshCooldown }

/-- `min(self.jwks_ttl, 30.0)` from now. -/
def Service.pause (cfg : Settings) (s : Service Token) : Time := s.clock + min cfg.jwksTtl 30

/-- `status_check` answered true. -/
def Service.confirm (cfg : Settings) (s : Service Token) (v : Verified) : Service Token :=
  { s with
    cache.status :=
      Function.update s.cache.status v.subject (some (s.clock + cfg.statusTtl, v.version))
    confirmed := s.confirmed ++ [⟨s.clock, v.subject, v.version⟩] }

/-- A status entry after a confirmation is the new one or an old one. -/
theorem status_confirm {cfg : Settings} {s : Service Token} {v : Verified} {subject : String}
    {deadline : Time} {version : ℤ}
    (h : (s.confirm cfg v).cache.status subject = some (deadline, version)) :
    (subject ≠ v.subject ∧ s.cache.status subject = some (deadline, version)) ∨
      (subject = v.subject ∧ deadline = s.clock + cfg.statusTtl ∧ version = v.version) := by
  rcases slot_set h with h | ⟨hs, he⟩
  · exact Or.inl h
  · obtain ⟨rfl, rfl⟩ := Prod.mk.inj he
    exact Or.inr ⟨hs, rfl, rfl⟩

/-! ## A call, from its last await backwards -/

def Service.finish (s : Service Token) (a : Attempt Token) (outcome : Outcome) :
    Service Token × Task Token :=
  ({ s with ended := ⟨a, s.clock, s.confirmed.length, outcome⟩ :: s.ended }, .idle)

def Service.refuse (s : Service Token) (a : Attempt Token) (reason : Refusal) :
    Service Token × Task Token := s.finish a (.refused reason)

/-- The role claim as a set of texts. -/
def roleSet (J : Jwt Token) (claims : Dict) : Finset String :=
  match claims.lookup "https://temis.lab/roles" with
  | some (.list roles) => (roles.map J.str).toFinset
  | _ => ∅

/-- The `Principal` of verified claims. -/
def Service.conclude (J : Jwt Token) (s : Service Token) (a : Attempt Token) (v : Verified) :
    Service Token × Task Token :=
  match v.claims.lookup "scope" with
  | none => s.refuse a .missingScope
  | some scope =>
      s.finish a (.returned
        { subject := v.subject
          scopes := (PyText.split (J.str scope)).toFinset
          roles := roleSet J v.claims
          authzVersion := v.version } v)

/-- `self._status.get(subject)` spares the check. -/
def Cache.vouches (c : Cache) (now : Time) (subject : String) (version : ℤ) : Bool :=
  match c.status subject with
  | none => false
  | some (deadline, v) => now < deadline && v = version

/-- The binding checks: the subject and the version. -/
def binding (cfg : Settings) (claims : Dict) : Option (String × ℤ) :=
  if Dict.str claims "aud" = some cfg.audience ∧
      Dict.str claims "azp" = some cfg.authorizedParty then
    match Dict.str claims "sub", Dict.int claims "authz_version" with
    | some subject, some version => some (subject, version)
    | _, _ => none
  else none

/-- From `jwt.decode` to the status check. -/
def Service.verify (cfg : Settings) (J : Jwt Token) (s : Service Token) (a : Attempt Token)
    (kid : String) (key : PublicKey) (wall : Time) : Service Token × Task Token :=
  match J.decode key cfg.issuer cfg.audience wall a.token with
  | none => s.refuse a .validationFailed
  | some claims =>
      match binding cfg claims with
      | none => s.refuse a .bindingInvalid
      | some (subject, version) =>
          let v : Verified :=
            ⟨kid, ⟨key, s.accepted.length, s.clock⟩, claims, subject, version, s.clock, s.turns⟩
          if s.cache.vouches s.clock subject version then s.conclude J a v
          else (s, .statusCheck a v)

/-- `key = self._keys.get(kid)` without the lock. -/
def Service.select (cfg : Settings) (J : Jwt Token) (s : Service Token) (a : Attempt Token)
    (kid : String) (wall : Time) : Service Token × Task Token :=
  match s.cache.keys.lookup kid with
  | some key => s.verify cfg J a kid key wall
  | none =>
      if s.clock < (s.cache.negativeKids kid).getD 0 then s.refuse a .unknownSigningKey
      else (s, .lockUnknown a kid s.accepted.length)

/-- No key after the forced refresh, or none to be made. -/
def Service.forget (cfg : Settings) (s : Service Token) (a : Attempt Token) (kid : String) :
    Service Token × Task Token :=
  let negative := Function.update s.cache.negativeKids kid (some (s.pause cfg))
  Service.refuse { s with cache.negativeKids := negative } a .unknownSigningKey

/-- The stale keys may bridge an outage. -/
def Cache.bridges (c : Cache) (now : Time) (kid : String) : Bool :=
  (c.keys.lookup kid).isSome && now < c.jwksStaleUntil

/-- The step of a call, once the clock has been read. -/
def Service.advance (cfg : Settings) (J : Jwt Token) (i : Input) (s : Service Token) :
    Task Token → Service Token × Task Token
  | .idle => (s, .idle)
  | .entered token =>
      let a : Attempt Token := ⟨token, s.clock, s.accepted.length, s.confirmed.length⟩
      match J.getUnverifiedHeader token with
      | none => s.refuse a .malformedToken
      | some header =>
          match Dict.str header "alg", Dict.str header "kid" with
          | some "RS256", some kid =>
              if s.cache.jwksUntil ≤ s.clock then (s, .lockStale a kid)
              else s.select cfg J a kid i.wall
          | _, _ => s.refuse a .rs256Required
  | .lockStale a kid =>
      if s.cache.jwksUntil ≤ s.clock then
        if s.clock < s.cache.refreshErrorUntil then
          if s.cache.bridges s.clock kid then s.select cfg J a kid i.wall
          else s.refuse a .jwksUnavailable
        else (s, .fetchStale a kid)
      else s.select cfg J a kid i.wall
  | .fetchStale a kid =>
      match safeRefresh J i.fetched with
      | .ok (document, keys) => (s.accept cfg document keys).select cfg J a kid i.wall
      | .error .jwksUnavailable =>
          if s.cache.bridges s.clock kid then (s.coolDown cfg).select cfg J a kid i.wall
          else (s.coolDown cfg).refuse a .jwksUnavailable
      | .error reason => s.refuse a reason
  | .lockUnknown a kid _ =>
      if s.clock < (s.cache.negativeKids kid).getD 0 then s.refuse a .unknownSigningKey
      else if s.clock < s.cache.refreshErrorUntil then s.refuse a .jwksUnavailable
      else
        match s.cache.keys.lookup kid with
        | some key => s.verify cfg J a kid key i.wall
        | none =>
            if s.cache.unknownRefreshAfter ≤ s.clock then
              ({ s with cache.unknownRefreshAfter := s.pause cfg }, .fetchUnknown a kid)
            else s.forget cfg a kid
  | .fetchUnknown a kid =>
      match safeRefresh J i.fetched with
      | .ok (document, keys) =>
          match keys.lookup kid with
          | some key => (s.accept cfg document keys).verify cfg J a kid key i.wall
          | none => (s.accept cfg document keys).forget cfg a kid
      | .error .jwksUnavailable => (s.coolDown cfg).refuse a .jwksUnavailable
      | .error reason => s.refuse a reason
  | .statusCheck a v =>
      match i.active with
      | none => s.refuse a .statusUnavailable
      | some false => s.refuse a .inactiveOrStale
      | some true => (s.confirm cfg v).conclude J a v

/-- The attempt of a call that begins. -/
def Service.attempt (s : Service Token) (token : Token) : Attempt Token :=
  ⟨token, s.clock, s.accepted.length, s.confirmed.length⟩

/-- The branches of `advance`. -/
inductive Advanced (cfg : Settings) (J : Jwt Token) (i : Input) (s : Service Token) :
    Task Token → Service Token × Task Token → Prop where
  | idle : Advanced cfg J i s .idle (s, .idle)
  | malformed (token : Token) (reason : Refusal)
      (hreason : reason = .malformedToken ∨ reason = .rs256Required) :
      Advanced cfg J i s (.entered token) (s.refuse (s.attempt token) reason)
  | expired (token : Token) (header : Dict) (kid : String)
      (hheader : J.getUnverifiedHeader token = some header)
      (halg : Dict.str header "alg" = some "RS256") (hkid : Dict.str header "kid" = some kid)
      (huntil : s.cache.jwksUntil ≤ s.clock) :
      Advanced cfg J i s (.entered token) (s, .lockStale (s.attempt token) kid)
  | fresh (token : Token) (header : Dict) (kid : String)
      (hheader : J.getUnverifiedHeader token = some header)
      (halg : Dict.str header "alg" = some "RS256") (hkid : Dict.str header "kid" = some kid)
      (huntil : s.clock < s.cache.jwksUntil) :
      Advanced cfg J i s (.entered token) (s.select cfg J (s.attempt token) kid i.wall)
  /-- Another call has refreshed the keys meanwhile. -/
  | refreshed (a : Attempt Token) (kid : String) (huntil : s.clock < s.cache.jwksUntil) :
      Advanced cfg J i s (.lockStale a kid) (s.select cfg J a kid i.wall)
  | bridged (a : Attempt Token) (kid : String) (hbridges : s.cache.bridges s.clock kid = true)
      (herror : s.clock < s.cache.refreshErrorUntil) :
      Advanced cfg J i s (.lockStale a kid) (s.select cfg J a kid i.wall)
  | cooling (a : Attempt Token) (kid : String) (hbridges : s.cache.bridges s.clock kid ≠ true)
      (herror : s.clock < s.cache.refreshErrorUntil) :
      Advanced cfg J i s (.lockStale a kid) (s.refuse a .jwksUnavailable)
  | expires (a : Attempt Token) (kid : String) (huntil : s.cache.jwksUntil ≤ s.clock)
      (herror : s.cache.refreshErrorUntil ≤ s.clock) :
      Advanced cfg J i s (.lockStale a kid) (s, .fetchStale a kid)
  | accepted (a : Attempt Token) (kid : String) (document : Json) (keys : KeySet)
      (hsafe : safeRefresh J i.fetched = .ok (document, keys)) :
      Advanced cfg J i s (.fetchStale a kid)
        ((s.accept cfg document keys).select cfg J a kid i.wall)
  | outlasted (a : Attempt Token) (kid : String)
      (hsafe : safeRefresh J i.fetched = .error .jwksUnavailable)
      (hbridges : s.cache.bridges s.clock kid = true) :
      Advanced cfg J i s (.fetchStale a kid) ((s.coolDown cfg).select cfg J a kid i.wall)
  | cooled (a : Attempt Token) (kid : String)
      (hsafe : safeRefresh J i.fetched = .error .jwksUnavailable)
      (hbridges : s.cache.bridges s.clock kid ≠ true) :
      Advanced cfg J i s (.fetchStale a kid) ((s.coolDown cfg).refuse a .jwksUnavailable)
  | rejected (a : Attempt Token) (kid : String) (reason : Refusal)
      (hsafe : safeRefresh J i.fetched = .error reason) (hreason : reason ≠ .jwksUnavailable) :
      Advanced cfg J i s (.fetchStale a kid) (s.refuse a reason)
  | negative (a : Attempt Token) (kid : String) (missed : ℕ)
      (hnegative : s.clock < (s.cache.negativeKids kid).getD 0) :
      Advanced cfg J i s (.lockUnknown a kid missed) (s.refuse a .unknownSigningKey)
  | coolingUnknown (a : Attempt Token) (kid : String) (missed : ℕ)
      (herror : s.clock < s.cache.refreshErrorUntil) :
      Advanced cfg J i s (.lockUnknown a kid missed) (s.refuse a .jwksUnavailable)
  | appeared (a : Attempt Token) (kid : String) (missed : ℕ) (key : PublicKey)
      (hkey : s.cache.keys.lookup kid = some key) :
      Advanced cfg J i s (.lockUnknown a kid missed) (s.verify cfg J a kid key i.wall)
  | forces (a : Attempt Token) (kid : String) (missed : ℕ)
      (hmissing : s.cache.keys.lookup kid = none)
      (hunknown : s.cache.unknownRefreshAfter ≤ s.clock) :
      Advanced cfg J i s (.lockUnknown a kid missed)
        ({ s with cache.unknownRefreshAfter := s.pause cfg }, .fetchUnknown a kid)
  | spared (a : Attempt Token) (kid : String) (missed : ℕ)
      (hmissing : s.cache.keys.lookup kid = none) :
      Advanced cfg J i s (.lockUnknown a kid missed) (s.forget cfg a kid)
  | loaded (a : Attempt Token) (kid : String) (document : Json) (keys : KeySet) (key : PublicKey)
      (hsafe : safeRefresh J i.fetched = .ok (document, keys))
      (hkey : keys.lookup kid = some key) :
      Advanced cfg J i s (.fetchUnknown a kid)
        ((s.accept cfg document keys).verify cfg J a kid key i.wall)
  | missing (a : Attempt Token) (kid : String) (document : Json) (keys : KeySet)
      (hsafe : safeRefresh J i.fetched = .ok (document, keys))
      (hmissing : keys.lookup kid = none) :
      Advanced cfg J i s (.fetchUnknown a kid) ((s.accept cfg document keys).forget cfg a kid)
  | cooledUnknown (a : Attempt Token) (kid : String)
      (hsafe : safeRefresh J i.fetched = .error .jwksUnavailable) :
      Advanced cfg J i s (.fetchUnknown a kid) ((s.coolDown cfg).refuse a .jwksUnavailable)
  | rejectedUnknown (a : Attempt Token) (kid : String) (reason : Refusal)
      (hsafe : safeRefresh J i.fetched = .error reason) (hreason : reason ≠ .jwksUnavailable) :
      Advanced cfg J i s (.fetchUnknown a kid) (s.refuse a reason)
  | denied (a : Attempt Token) (v : Verified) (reason : Refusal)
      (hreason : reason = .statusUnavailable ∨ reason = .inactiveOrStale) :
      Advanced cfg J i s (.statusCheck a v) (s.refuse a reason)
  | confirmed (a : Attempt Token) (v : Verified) (hactive : i.active = some true) :
      Advanced cfg J i s (.statusCheck a v) ((s.confirm cfg v).conclude J a v)

/-- The inversion of `advance`. -/
theorem advance_cases (cfg : Settings) (J : Jwt Token) (i : Input) (s : Service Token)
    (t : Task Token) : Advanced cfg J i s t (s.advance cfg J i t) := by
  cases t with
  | idle => exact .idle
  | entered token =>
      simp only [Service.advance]
      split
      · exact .malformed token _ (Or.inl rfl)
      · next header hheader =>
          split
          · next kid halg hkid =>
              split
              · next huntil => exact .expired token header kid hheader halg hkid huntil
              · next huntil => exact .fresh token header kid hheader halg hkid (not_le.mp huntil)
          · exact .malformed token _ (Or.inr rfl)
  | lockStale a kid =>
      simp only [Service.advance]
      split
      · next huntil =>
          split
          · next herror =>
              split
              · next hbridges => exact .bridged a kid hbridges herror
              · next hbridges => exact .cooling a kid hbridges herror
          · next herror => exact .expires a kid huntil (not_lt.mp herror)
      · next huntil => exact .refreshed a kid (not_le.mp huntil)
  | fetchStale a kid =>
      simp only [Service.advance]
      split
      · next document keys hsafe => exact .accepted a kid document keys hsafe
      · next hsafe =>
          split
          · next hbridges => exact .outlasted a kid hsafe hbridges
          · next hbridges => exact .cooled a kid hsafe hbridges
      · next reason hne hsafe => exact .rejected a kid reason hsafe hne
  | lockUnknown a kid missed =>
      simp only [Service.advance]
      split
      · next hnegative => exact .negative a kid missed hnegative
      · split
        · next herror => exact .coolingUnknown a kid missed herror
        · split
          · next key hkey => exact .appeared a kid missed key hkey
          · next hmissing =>
              split
              · next hunknown => exact .forces a kid missed hmissing hunknown
              · exact .spared a kid missed hmissing
  | fetchUnknown a kid =>
      simp only [Service.advance]
      split
      · next document keys hsafe =>
          split
          · next key hkey => exact .loaded a kid document keys key hsafe hkey
          · next hmissing => exact .missing a kid document keys hsafe hmissing
      · next hsafe => exact .cooledUnknown a kid hsafe
      · next reason hne hsafe => exact .rejectedUnknown a kid reason hsafe hne
  | statusCheck a v =>
      simp only [Service.advance]
      split
      · exact .denied a v _ (Or.inl rfl)
      · exact .denied a v _ (Or.inr rfl)
      · next hactive => exact .confirmed a v hactive

/-- The next step begins, at a reading of the clock; an earlier one than the last is the last. -/
def Service.tick (s : Service Token) (now : Time) : Service Token :=
  { s with clock := max s.clock now, turns := s.turns + 1 }

def Service.step (cfg : Settings) (J : Jwt Token) (i : Input) (s : Service Token)
    (t : Task Token) : Service Token × Task Token :=
  (s.tick i.now).advance cfg J i t

def Task.free : Task Token → Bool
  | .idle => true
  | _ => false

/-- The next step takes the refresh lock. -/
def Task.waits : Task Token → Bool
  | .lockStale .. | .lockUnknown .. => true
  | _ => false

/-- The call holds the refresh lock: it awaits `fetch_jwks`. -/
def Task.inside : Task Token → Bool
  | .fetchStale .. | .fetchUnknown .. => true
  | _ => false

/-- Any number of calls of one verifier. -/
def verifier (cfg : Settings) (J : Jwt Token) :
    Program ℕ (Service Token) (Task Token) Token Input where
  idle := .idle
  free := Task.free
  begin _ s token := (s, .entered token)
  step _ i s t := s.step cfg J i t
  waits := Task.waits
  inside := Task.inside

end TemisLab.Resource
