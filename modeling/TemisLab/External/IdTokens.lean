/-
  The two verifiers of ID tokens: `verify_google_id_token` (`external_idp/callback.py`) and
  `KakaoOidcAdapter.verify` (`external_idp/kakao.py`), with the class of every exception.

  PyJWT is a parameter; `Documented` is what it promises of a token it decodes. The key of a Google
  token is what `JwksCache.key` answers in a run of its calls in any interleaving (`Answered`), so
  it is a key of a document that this run fetched (`InDocument`).

  * `google_only_iff`, `kakao_only_iff`: when a verifier raises nothing but a `ValueError`.
  * `google_carries`, `kakao_carries`: what a token it accepts carries.
  * `idTokenKid_outside`, `decodeIdToken_outside`: the callbacks' view of the same PyJWT.
  * `verifiers_sound_iff`: a verifier does what its callers count on exactly when PyJWT raises
    nothing that its `except` clauses miss.
-/
import TemisLab.External.KeyCache
import TemisLab.Lib.Commit
import TemisLab.Lib.Errors

namespace TemisLab.External.IdTokens

open TemisLab.Lib TemisLab.Sso TemisLab.Keyring TemisLab.External KeyCache

/-! ## PyJWT -/

/-- An exception: one that is not PyJWT's, or a `PyJWTError`. -/
inductive Exc where
  | failure (failure : Failure)
  | invalidIssuer
  | invalidAudience
  /-- Another `InvalidTokenError`, such as `DecodeError`. -/
  | invalidToken
  /-- Another `PyJWTError`, such as `PyJWKError` and `InvalidKeyError`. -/
  | otherPyJwt
  deriving DecidableEq, Repr

def Exc.isValueError : Exc → Bool
  | .failure (.valueError _) => true
  | _ => false

def Exc.isInvalidToken : Exc → Bool
  | .invalidIssuer | .invalidAudience | .invalidToken => true
  | _ => false

def Exc.isPyJwt : Exc → Bool
  | .otherPyJwt => true
  | e => e.isInvalidToken

def valueError (text : String) : Exc := .failure (.valueError text)

/-- The header of a token: a `kid` in it is a text. -/
structure Header where
  entries : Dict
  kidText : ∀ v, entries.lookup "kid" = some v → ∃ kid, v = .str kid

/-- The arguments of `jwt.decode` besides `algorithms=["RS256"]`. -/
structure Decoding (Key : Type) where
  encoded : String
  key : Key
  audience : String
  issuer : Option String
  require : List String

structure PyJwt (Key : Type) where
  getUnverifiedHeader : String → Except Exc Header
  /-- `PyJWK.from_dict(jwk).key`. -/
  fromDict : Dict → Except Exc Key
  decode : Decoding Key → Time → Except Exc Dict

/-- The audience is the `aud` claim, or among it. -/
def hasAudience (claims : Dict) (audience : String) : Prop :=
  match claims.lookup "aud" with
  | some (.str aud) => aud = audience
  | some (.list values) => ∃ v ∈ values, v.asStr = some audience
  | _ => False

variable {Key : Type}

/-- What `jwt.decode` has verified of the claims it returns: the RS256 signature of the token, its
    audience, and its issuer where one is given. -/
structure PyJwt.Documented (p : PyJwt Key) (Signed : String → Key → Dict → Prop) : Prop where
  signed : ∀ {d now claims}, p.decode d now = .ok claims → Signed d.encoded d.key claims
  audience : ∀ {d now claims}, p.decode d now = .ok claims → hasAudience claims d.audience
  issuer : ∀ {d now claims}, p.decode d now = .ok claims →
    ∀ issuer ∈ d.issuer, Dict.str claims "iss" = some issuer

/-! ## Google -/

/-- `verify_google_id_token` up to the key. -/
def googleKid (p : PyJwt Key) (encoded : String) : Except Exc String := do
  let header ← p.getUnverifiedHeader encoded
  match Dict.str header.entries "alg", Dict.str header.entries "kid" with
  | some alg, some kid =>
      if alg = "RS256" then return kid
      else throw (valueError "ID token algorithm or kid is invalid")
  | _, _ => throw (valueError "ID token algorithm or kid is invalid")

/-- What `cache.key` returns or raises. -/
def keyOf : Verdict → Except Exc Dict
  | .returned key => .ok key
  | .unknown => .error (valueError "ID token signing key is unknown")
  | .raised failure => .error (.failure failure)

/-- The `except` clauses of `verify_google_id_token`. -/
def Exc.atGoogle : Exc → Exc
  | .invalidIssuer => valueError "ID token issuer mismatch"
  | .invalidAudience => valueError "ID token audience mismatch"
  | .invalidToken => valueError "invalid ID token"
  | e => e

/-- The `jwt.decode` of `verify_google_id_token`. -/
def googleDecoding (encoded issuer audience : String) (key : Key) : Decoding Key where
  encoded
  key
  audience
  issuer := some issuer
  require := ["exp", "iat", "iss", "aud", "sub", "nonce"]

/-- The `try` block of `verify_google_id_token`. -/
def googleClaims (p : PyJwt Key) (encoded issuer audience : String) (clock : Time) (jwk : Dict) :
    Except Exc Dict := do
  let key ← p.fromDict jwk
  p.decode (googleDecoding encoded issuer audience key) clock

/-- `verify_google_id_token`, where `answer` is what `cache.key` answers. -/
def verifyGoogleIdToken (p : PyJwt Key) (encoded issuer audience expectedNonce : String)
    (answer : Verdict) (clock : Time) : Except Exc ExternalIdentity := do
  let _ ← googleKid p encoded
  let jwk ← keyOf answer
  let claims ← (googleClaims p encoded issuer audience clock jwk).mapError Exc.atGoogle
  (identityOf audience expectedNonce claims).mapError Exc.failure

section Callback

/-- What the callbacks tell apart of an exception. -/
def Exc.toFailure : Exc → Failure
  | .failure f => f
  | _ => .uncaught

/-- What the callbacks tell apart of an exception of `jwt.decode`. -/
def Exc.toJwtError : Exc → JwtError
  | .invalidIssuer => .invalidIssuer
  | .invalidAudience => .invalidAudience
  | .invalidToken => .invalidToken
  | e => .raised e.toFailure

/-- PyJWT as the callbacks see it. -/
def PyJwt.outside (p : PyJwt PublicKey) (repr : Json → String)
    (urlError : String → Option String) : Outside where
  getUnverifiedHeader encoded :=
    match p.getUnverifiedHeader encoded with
    | .ok header => .ok header.entries
    | .error e => .error e.toFailure
  fromJwk jwk := (p.fromDict jwk).mapError fun e => e.atGoogle.toFailure
  decode encoded key audience issuer clock :=
    (p.decode (googleDecoding encoded issuer audience key) clock).mapError Exc.toJwtError
  repr := repr
  urlError := urlError

variable (p : PyJwt PublicKey) (repr : Json → String) (urlError : String → Option String)

theorem idTokenKid_outside (encoded : String) :
    idTokenKid (p.outside repr urlError) encoded =
      (googleKid p encoded).mapError Exc.toFailure := by
  unfold idTokenKid googleKid PyJwt.outside
  dsimp only
  cases p.getUnverifiedHeader encoded with
  | error e => rfl
  | ok header =>
      change _ = Except.mapError Exc.toFailure
        (match Dict.str header.entries "alg", Dict.str header.entries "kid" with
        | some alg, some kid =>
            if alg = "RS256" then pure kid
            else throw (valueError "ID token algorithm or kid is invalid")
        | _, _ => throw (valueError "ID token algorithm or kid is invalid"))
      dsimp only
      cases Dict.str header.entries "alg" with
      | none => rfl
      | some alg =>
          cases Dict.str header.entries "kid" with
          | none => rfl
          | some kid =>
              dsimp only
              split <;> rfl

/-- The `try` block of the callbacks is that of `verifyGoogleIdToken`. -/
theorem decodeIdToken_outside (encoded issuer audience : String) (jwk : Dict) (clock : Time) :
    decodeIdToken (p.outside repr urlError) audience issuer encoded jwk clock =
      ((googleClaims p encoded issuer audience clock jwk).mapError Exc.atGoogle).mapError
        Exc.toFailure := by
  unfold decodeIdToken googleClaims PyJwt.outside
  dsimp only
  cases p.fromDict jwk with
  | error e => rfl
  | ok key =>
      change _ = Except.mapError Exc.toFailure (Except.mapError Exc.atGoogle
        (p.decode (googleDecoding encoded issuer audience key) clock))
      dsimp only [Except.mapError]
      cases p.decode (googleDecoding encoded issuer audience key) clock with
      | ok claims => rfl
      | error e => cases e <;> rfl

end Callback

/-! ## Kakao -/

/-- `KakaoOidcAdapter.issuer`. -/
def kakaoIssuer : String := "https://kauth.kakao.com"

/-- `next((k for k in keys if k.get("kid") == kid), None)`. -/
def kakaoFind (kid : String) : List Json → Except Failure (Option Dict)
  | [] => .ok none
  | .dict k :: keys => if Dict.str k "kid" = some kid then .ok (some k) else kakaoFind kid keys
  | _ :: _ => .error .uncaught

/-- The target key in `jwks_data.get("keys", [])`. -/
def kakaoKey (data : Dict) (kid : String) : Except Failure (Option Dict) :=
  match data.lookup "keys" with
  | none => .ok none
  | some (.list keys) => kakaoFind kid keys
  | some (.str text) => if text = "" then .ok none else .error .uncaught
  | some (.dict entries) => if entries.isEmpty then .ok none else .error .uncaught
  | some _ => .error .uncaught

/-- The `except` clause of `KakaoOidcAdapter.verify`. -/
def Exc.atKakao (e : Exc) : Exc := if e.isPyJwt then valueError "invalid" else e

/-- `KakaoOidcAdapter.verify` from the claims on. -/
def kakaoIdentityOf (expectedNonce : String) (claims : Dict) : Except Exc ExternalIdentity :=
  if Dict.str claims "iss" ≠ some kakaoIssuer then .error (valueError "invalid")
  else if Dict.str claims "nonce" ≠ some expectedNonce then .error (valueError "nonce")
  else
    match Dict.str claims "sub" with
    | some subject =>
        if subject = "" then .error (valueError "invalid")
        else .ok ⟨"kakao", subject, Dict.str claims "email", isTrue claims "email_verified"⟩
    | none => .error (valueError "invalid")

/-- The `jwt.decode` of `KakaoOidcAdapter.verify`. -/
def kakaoDecoding (encoded clientId : String) (key : Key) : Decoding Key where
  encoded
  key
  audience := clientId
  issuer := none
  require := ["exp", "iat", "iss", "aud", "sub"]

/-- The `kid` of the token, which has to be there. -/
def kakaoKid (p : PyJwt Key) (encoded : String) : Except Exc String := do
  let header ← p.getUnverifiedHeader encoded
  match Dict.str header.entries "kid" with
  | some kid => if kid = "" then throw (valueError "invalid") else return kid
  | none => throw (valueError "invalid")

/-- The key of that `kid` in the document. -/
def kakaoJwk (http : Http) (kid : String) : Except Exc Dict := do
  let data ← http.payload.mapError Exc.failure
  match ← (kakaoKey data kid).mapError Exc.failure with
  | some jwk => return jwk
  | none => throw (valueError "invalid")

/-- `KakaoOidcAdapter.verify`. -/
def kakaoVerify (p : PyJwt Key) (clientId encoded expectedNonce : String) (http : Http)
    (clock : Time) : Except Exc ExternalIdentity := do
  let kid ← kakaoKid p encoded
  let jwk ← kakaoJwk http kid
  let key ← p.fromDict jwk
  let claims ← (p.decode (kakaoDecoding encoded clientId key) clock).mapError Exc.atKakao
  kakaoIdentityOf expectedNonce claims

/-! ## The document of the keys -/

/-- The response is an object whose `keys` is a list of objects. -/
def Served (http : Http) : Prop :=
  ∃ cacheControl document values, http = .response cacheControl (.ok (.dict document)) ∧
    document.lookup "keys" = some (.list values) ∧ ∀ v ∈ values, ∃ k, v = .dict k

/-- The keys of such a response. -/
def jwksOf (http : Http) : List Dict :=
  match keysOf http with
  | .ok keys => keys
  | .error _ => []

/-- The responses that arrive are such documents. -/
def ServedLabel : Label → Prop
  | .call .. => True
  | .answer _ http => Served http

theorem Served.keysOf {http : Http} (h : Served http) : ∃ keys, keysOf http = .ok keys := by
  obtain ⟨cacheControl, document, values, rfl, hkeys, -⟩ := h
  simp [External.keysOf, Except.bind, asDict, documentKeys, hkeys]

/-- What a refresh with such a response raises is a `ValueError`: the number in the header. -/
theorem Served.refresh_error {http : Http} (h : Served http) {jwksUri : String} {now : ℤ}
    {cache cache' : JwksCache} {failure : Failure}
    (hr : (JwksCache.refresh jwksUri now http).on cache = (.error failure, cache')) :
    ∃ text, failure = Failure.valueError text := by
  obtain ⟨keys, hkeys⟩ := h.keysOf
  obtain ⟨cacheControl, document, values, rfl, -, -⟩ := h
  unfold JwksCache.refresh at hr
  simp only [Raising.on_bind, Raising.on_liftExcept, hkeys] at hr
  cases hlife : lifetime (.response cacheControl (.ok (.dict document))) with
  | ok ttl =>
      rw [hlife] at hr
      cases hr
  | error failure' =>
      rw [hlife] at hr
      cases hr
      change ttlOf cacheControl = .error failure at hlife
      unfold ttlOf at hlife
      split at hlife
      · cases hlife
      · split at hlife
        · cases hlife
        · cases hlife
          exact ⟨_, rfl⟩

/-- A call of `JwksCache.key` in the run of `ls` ended so. -/
def Answered (ls : List Label) (jwksUri kid : String) (now : ℤ) (answer : Verdict) : Prop :=
  ∃ id c, (id, c, answer) ∈ (run step .init ls).done ∧
    c.jwksUri = jwksUri ∧ c.kid = kid ∧ c.now = now

/-- The key is the one that `cache.key` returned for the kid, and is in a document that the run of
    `ls` fetched from the address. -/
def InDocument (ls : List Label) (jwksUri : String) (answer : Verdict) (kid : String)
    (jwk : Dict) : Prop :=
  Dict.str jwk "kid" = some kid ∧ answer = .returned jwk ∧
    ∃ f ∈ (run step .init ls).fetched, f.jwksUri = jwksUri ∧ Served f.http ∧ jwk ∈ jwksOf f.http

/-- What a run on such documents keeps besides `Inv`. -/
structure Sane (w : World) : Prop where
  fetched : ∀ f ∈ w.fetched, Served f.http
  raised : ∀ id c failure, (id, c, .raised failure) ∈ w.done →
    ∃ text, failure = Failure.valueError text

theorem Sane.proceed {w : World} (h : Sane w) (id : ℕ) (c : KeyCache.Call) (next : Verdict ⊕ Await)
    (hnext : ∀ failure, next = .inl (.raised failure) →
      ∃ text, failure = Failure.valueError text) :
    Sane (w.proceed id c next) := by
  cases next with
  | inr await => exact ⟨h.fetched, h.raised⟩
  | inl verdict =>
      refine ⟨h.fetched, ?_⟩
      intro id' c' failure hmem
      rcases List.mem_cons.mp hmem with he | hmem
      · cases he
        exact hnext failure rfl
      · exact h.raised id' c' failure hmem

theorem looked_ne_raised (c : KeyCache.Call) (keys : List Dict) (failure : Failure) :
    c.looked keys ≠ .inl (.raised failure) := by
  unfold KeyCache.Call.looked
  split
  · simp
  · split <;> simp

theorem lookedAgain_ne_raised (c : KeyCache.Call) (keys : List Dict) (failure : Failure) :
    c.lookedAgain keys ≠ .raised failure := by
  unfold KeyCache.Call.lookedAgain
  split <;> simp

theorem sane_step (w : World) (l : Label) (h : Sane w) (hl : ServedLabel l) : Sane (step w l) := by
  cases l with
  | call id jwksUri kid now =>
      change Sane (callStep w id jwksUri kid now)
      unfold callStep
      split
      · exact h
      · have hw : Sane { w with started := id :: w.started } := ⟨h.fetched, h.raised⟩
        refine hw.proceed id _ _ fun failure hno => ?_
        unfold KeyCache.Call.opened at hno
        split at hno
        · split at hno
          · exact absurd hno (looked_ne_raised _ _ _)
          · cases hno
        · cases hno
  | answer id http =>
      change Sane (answerStep w id http)
      unfold answerStep
      split
      · exact h
      · next c await hrunning =>
          cases hr : (JwksCache.refresh c.jwksUri c.now http).on w.cache with
          | mk answer cache =>
              cases answer with
              | error failure =>
                  have hw : Sane { w with cache } := ⟨h.fetched, h.raised⟩
                  refine hw.proceed id c _ fun failure' he => ?_
                  cases he
                  exact Served.refresh_error hl hr
              | ok keys =>
                  have hw : Sane { w with
                      cache, fetched := ⟨id, c.jwksUri, c.now, http⟩ :: w.fetched } := by
                    refine ⟨?_, h.raised⟩
                    intro f hf
                    rcases List.mem_cons.mp hf with rfl | hf
                    · exact hl
                    · exact h.fetched f hf
                  refine hw.proceed id c _ fun failure he => ?_
                  cases await with
                  | stale => exact absurd he (looked_ne_raised _ _ _)
                  | missing => exact absurd (Sum.inl.inj he) (lookedAgain_ne_raised _ _ _)

theorem sane_run {ls : List Label} (hls : ∀ l ∈ ls, ServedLabel l) :
    Sane (run step .init ls) := by
  refine run_invariant step (Q := fun _ l => ServedLabel l) Sane sane_step ?_ ?_
  · refine ⟨?_, ?_⟩
    · intro f hf
      cases hf
    · intro id c failure hmem
      cases hmem
  · rw [along_iff]
    intro pre l post he
    exact hls l (by rw [he]; exact List.mem_append_right _ List.mem_cons_self)

/-- The key that `cache.key` returns is in a document of the run, under the kid. -/
theorem Answered.inDocument {ls : List Label} (hls : ∀ l ∈ ls, ServedLabel l)
    {jwksUri kid : String} {now : ℤ} {jwk : Dict}
    (h : Answered ls jwksUri kid now (.returned jwk)) :
    InDocument ls jwksUri (.returned jwk) kid jwk := by
  obtain ⟨id, c, hdone, rfl, rfl, -⟩ := h
  obtain ⟨hkid, f, hf, ⟨huri, keys, hkeys, hmem⟩, -⟩ := (inv_run ls).done id c _ hdone
  refine ⟨hkid, rfl, f, hf, huri, (sane_run hls).fetched f hf, ?_⟩
  unfold jwksOf
  rw [hkeys]
  exact hmem

/-- `cache.key` raises nothing but a `ValueError`. -/
theorem Answered.only {ls : List Label} (hls : ∀ l ∈ ls, ServedLabel l) {jwksUri kid : String}
    {now : ℤ} {answer : Verdict} (h : Answered ls jwksUri kid now answer) :
    Only (fun e => e.isValueError = true) (keyOf answer) := by
  cases answer with
  | returned key => exact only_ok key
  | unknown => exact (only_error _).mpr rfl
  | raised failure =>
      obtain ⟨id, c, hdone, -⟩ := h
      obtain ⟨text, rfl⟩ := (sane_run hls).raised id c failure hdone
      exact (only_error _).mpr rfl

/-! ## What a verifier raises -/

theorem only_failure {α : Type} {r : Except Failure α}
    (h : Only (fun f => ∃ text, f = .valueError text) r) :
    Only (fun e => e.isValueError = true) (r.mapError Exc.failure) := by
  rw [only_mapError]
  refine h.mono ?_
  rintro _ ⟨text, rfl⟩
  rfl

theorem identityOf_only (clientId expectedNonce : String) (claims : Dict) :
    Only (fun f => ∃ text, f = .valueError text) (identityOf clientId expectedNonce claims) := by
  unfold identityOf requireText
  split
  · rw [only_error]
    exact ⟨_, rfl⟩
  · split
    · rw [only_error]
      exact ⟨_, rfl⟩
    · intro failure he
      split at he
      · next hsub =>
          cases he
          split at hsub
          · split at hsub
            · cases hsub
              exact ⟨_, rfl⟩
            · cases hsub
          · cases hsub
            exact ⟨_, rfl⟩
      · cases he

theorem googleKid_eq_ok {p : PyJwt Key} {encoded kid : String} :
    googleKid p encoded = .ok kid ↔
      ∃ header, p.getUnverifiedHeader encoded = .ok header ∧
        Dict.str header.entries "alg" = some "RS256" ∧
        Dict.str header.entries "kid" = some kid := by
  unfold googleKid
  rw [bind_eq_ok]
  refine exists_congr fun header => and_congr_right fun _ => ?_
  cases Dict.str header.entries "alg" with
  | none => simp [throw, throwThe, MonadExceptOf.throw]
  | some alg =>
      cases Dict.str header.entries "kid" with
      | none => simp [throw, throwThe, MonadExceptOf.throw]
      | some kid' =>
          by_cases halg : alg = "RS256" <;>
            simp [halg, pure, Except.pure, throw, throwThe, MonadExceptOf.throw]

theorem kakaoKid_eq_ok {p : PyJwt Key} {encoded kid : String} :
    kakaoKid p encoded = .ok kid ↔
      ∃ header, p.getUnverifiedHeader encoded = .ok header ∧
        Dict.str header.entries "kid" = some kid ∧ kid ≠ "" := by
  unfold kakaoKid
  rw [bind_eq_ok]
  refine exists_congr fun header => and_congr_right fun _ => ?_
  cases Dict.str header.entries "kid" with
  | none => simp [throw, throwThe, MonadExceptOf.throw]
  | some kid' =>
      by_cases hempty : kid' = ""
      · simp only [hempty, if_true, throw, throwThe, MonadExceptOf.throw, reduceCtorEq, false_iff,
          not_and, Option.some.injEq]
        rintro rfl
        simp
      · simp only [hempty, if_false, pure, Except.pure, Except.ok.injEq, Option.some.injEq]
        constructor
        · rintro rfl
          exact ⟨rfl, hempty⟩
        · rintro ⟨rfl, -⟩
          rfl

/-- A check that raises `ValueError`s only. -/
theorem googleKid_only (p : PyJwt Key) (encoded : String) :
    Only (fun e => e.isValueError = true) (googleKid p encoded) ↔
      Only (fun e => e.isValueError = true) (p.getUnverifiedHeader encoded) := by
  unfold googleKid
  rw [only_bind, and_iff_left]
  intro header _
  split
  · split
    · exact only_ok _
    · exact (only_error _).mpr rfl
  · exact (only_error _).mpr rfl

theorem kakaoKid_only (p : PyJwt Key) (encoded : String) :
    Only (fun e => e.isValueError = true) (kakaoKid p encoded) ↔
      Only (fun e => e.isValueError = true) (p.getUnverifiedHeader encoded) := by
  unfold kakaoKid
  rw [only_bind, and_iff_left]
  intro header _
  split
  · split
    · exact (only_error _).mpr rfl
    · exact only_ok _
  · exact (only_error _).mpr rfl

/-- A class the `except` clauses of `verify_google_id_token` turn into a `ValueError`. -/
theorem atGoogle_isValueError (e : Exc) :
    e.atGoogle.isValueError = true ↔ e.isValueError = true ∨ e.isInvalidToken = true := by
  cases e <;> simp [Exc.atGoogle, valueError, Exc.isValueError, Exc.isInvalidToken]

theorem atKakao_isValueError (e : Exc) :
    e.atKakao.isValueError = true ↔ e.isValueError = true ∨ e.isPyJwt = true := by
  cases e <;> simp [Exc.atKakao, valueError, Exc.isValueError, Exc.isPyJwt, Exc.isInvalidToken]

/-- PyJWT raises nothing that `verify_google_id_token` lets through: reading the header a
    `ValueError` at most; with the key of the kid, a `ValueError` or an `InvalidTokenError`. -/
def GoogleQuiet (p : PyJwt Key) (encoded issuer audience : String) (answer : Verdict)
    (clock : Time) : Prop :=
  Only (fun e => e.isValueError = true) (p.getUnverifiedHeader encoded) ∧
    ∀ header kid jwk, p.getUnverifiedHeader encoded = .ok header →
      Dict.str header.entries "alg" = some "RS256" → Dict.str header.entries "kid" = some kid →
      answer = .returned jwk →
      Only (fun e => e.isValueError = true ∨ e.isInvalidToken = true) (p.fromDict jwk) ∧
        ∀ key, p.fromDict jwk = .ok key →
          Only (fun e => e.isValueError = true ∨ e.isInvalidToken = true)
            (p.decode (googleDecoding encoded issuer audience key) clock)

theorem google_only_iff (p : PyJwt Key) {ls : List Label} (hls : ∀ l ∈ ls, ServedLabel l)
    {encoded jwksUri : String} {now : ℤ} {answer : Verdict}
    (hanswer : ∀ kid, googleKid p encoded = .ok kid → Answered ls jwksUri kid now answer)
    (issuer audience expectedNonce : String) (clock : Time) :
    Only (fun e => e.isValueError = true)
        (verifyGoogleIdToken p encoded issuer audience expectedNonce answer clock) ↔
      GoogleQuiet p encoded issuer audience answer clock := by
  unfold verifyGoogleIdToken GoogleQuiet
  rw [only_bind, googleKid_only]
  refine and_congr_right fun _ => ?_
  constructor
  · intro h header kid jwk hheader halg hkid hreturned
    have hrest := h kid (googleKid_eq_ok.mpr ⟨header, hheader, halg, hkid⟩)
    subst hreturned
    rw [only_bind] at hrest
    have hclaims := hrest.2 jwk rfl
    rw [only_bind, only_mapError] at hclaims
    exact only_bind.mp (hclaims.1.mono fun e he => (atGoogle_isValueError e).mp he)
  · intro h kid hok
    obtain ⟨header, hheader, halg, hkid⟩ := googleKid_eq_ok.mp hok
    rw [only_bind]
    refine ⟨(hanswer kid hok).only hls, fun jwk hjwk => ?_⟩
    have hreturned : answer = .returned jwk := by
      cases answer <;> cases hjwk
      rfl
    have hclaims : Only (fun e => e.isValueError = true ∨ e.isInvalidToken = true)
        (googleClaims p encoded issuer audience clock jwk) :=
      only_bind.mpr (h header kid jwk hheader halg hkid hreturned)
    rw [only_bind, only_mapError]
    refine ⟨hclaims.mono fun e he => (atGoogle_isValueError e).mpr he, ?_⟩
    intro claims _
    exact only_failure (identityOf_only audience expectedNonce claims)

/-- The value, where `isinstance(value, dict)`. -/
def objectOf : Json → Option Dict
  | .dict d => some d
  | _ => none

theorem kakaoFind_served {values : List Json} (h : ∀ v ∈ values, ∃ k, v = .dict k) (kid : String) :
    kakaoFind kid values =
      .ok (findKey (values.filterMap objectOf) kid) := by
  induction values with
  | nil => rfl
  | cons v values ih =>
      obtain ⟨k, rfl⟩ := h v List.mem_cons_self
      have hrest := ih fun v hv => h v (List.mem_cons_of_mem _ hv)
      simp only [kakaoFind, hrest, findKey, objectOf, List.filterMap_cons, List.find?_cons]
      by_cases hk : Dict.str k "kid" = some kid <;> simp [hk]

/-- With such a document the target key is the one `findKey` finds. -/
theorem kakaoJwk_served {http : Http} (h : Served http) (kid : String) :
    kakaoJwk http kid =
      match findKey (jwksOf http) kid with
      | some jwk => .ok jwk
      | none => .error (valueError "invalid") := by
  obtain ⟨cacheControl, document, values, rfl, hkeys, hvalues⟩ := h
  have hjwks : jwksOf (.response cacheControl (.ok (.dict document))) =
      values.filterMap objectOf := by
    simp only [jwksOf, External.keysOf, Except.bind, asDict, documentKeys, hkeys]
    congr 1
  have hfind : kakaoKey document kid = .ok (findKey
      (jwksOf (.response cacheControl (.ok (.dict document)))) kid) := by
    unfold kakaoKey
    rw [hkeys, hjwks]
    exact kakaoFind_served hvalues kid
  unfold kakaoJwk
  change (do
    let found ← (kakaoKey document kid).mapError Exc.failure
    match found with
    | some jwk => return jwk
    | none => throw (valueError "invalid")) = _
  rw [hfind]
  cases findKey (jwksOf (.response cacheControl (.ok (.dict document)))) kid with
  | some jwk => rfl
  | none => rfl

theorem kakaoIdentityOf_only (expectedNonce : String) (claims : Dict) :
    Only (fun e => e.isValueError = true) (kakaoIdentityOf expectedNonce claims) := by
  unfold kakaoIdentityOf
  split
  · exact (only_error _).mpr rfl
  · split
    · exact (only_error _).mpr rfl
    · split
      · split
        · exact (only_error _).mpr rfl
        · exact only_ok _
      · exact (only_error _).mpr rfl

/-- PyJWT raises nothing that `KakaoOidcAdapter.verify` lets through: reading the header and making
    the key of the kid a `ValueError` at most; decoding, a `ValueError` or a `PyJWTError`. -/
def KakaoQuiet (p : PyJwt Key) (clientId encoded : String) (http : Http) (clock : Time) : Prop :=
  Only (fun e => e.isValueError = true) (p.getUnverifiedHeader encoded) ∧
    ∀ header kid jwk, p.getUnverifiedHeader encoded = .ok header →
      Dict.str header.entries "kid" = some kid → kid ≠ "" →
      findKey (jwksOf http) kid = some jwk →
      Only (fun e => e.isValueError = true) (p.fromDict jwk) ∧
        ∀ key, p.fromDict jwk = .ok key →
          Only (fun e => e.isValueError = true ∨ e.isPyJwt = true)
            (p.decode (kakaoDecoding encoded clientId key) clock)

/-! ## What an accepted token carries -/

/-- The token is signed with the key of its kid, and its claims are for this client and nonce. -/
def Carries (p : PyJwt Key) (Signed : String → Key → Dict → Prop) (IsJwk : String → Dict → Prop)
    (encoded issuer audience nonce : String) (identity : ExternalIdentity) : Prop :=
  ∃ header kid jwk key claims,
    p.getUnverifiedHeader encoded = .ok header ∧ Dict.str header.entries "kid" = some kid ∧
      IsJwk kid jwk ∧ p.fromDict jwk = .ok key ∧ Signed encoded key claims ∧
      Dict.str claims "iss" = some issuer ∧ hasAudience claims audience ∧
      Dict.str claims "nonce" = some nonce ∧
      Dict.str claims "sub" = some identity.subject ∧ identity.subject ≠ ""

theorem identityOf_subject {clientId nonce : String} {claims : Dict} {identity : ExternalIdentity}
    (h : identityOf clientId nonce claims = .ok identity) : identity.subject ≠ "" := by
  unfold identityOf at h
  split at h
  · cases h
  · split at h
    · cases h
    · split at h
      · cases h
      · next subject hsubject =>
          cases h
          exact (requireText_eq_ok hsubject).2

theorem google_carries {p : PyJwt Key} {Signed : String → Key → Dict → Prop}
    (hdoc : p.Documented Signed) {ls : List Label} (hls : ∀ l ∈ ls, ServedLabel l)
    {encoded jwksUri issuer audience nonce : String} {now : ℤ} {answer : Verdict} {clock : Time}
    {identity : ExternalIdentity}
    (hanswer : ∀ kid, googleKid p encoded = .ok kid → Answered ls jwksUri kid now answer)
    (h : verifyGoogleIdToken p encoded issuer audience nonce answer clock = .ok identity) :
    Carries p Signed (InDocument ls jwksUri answer) encoded issuer audience nonce identity := by
  unfold verifyGoogleIdToken at h
  obtain ⟨kid, hkid, hrest⟩ := bind_eq_ok.mp h
  obtain ⟨jwk, hjwk, hverify⟩ := bind_eq_ok.mp hrest
  obtain ⟨claims, hclaims, hlast⟩ := bind_eq_ok.mp hverify
  rw [mapError_eq_ok] at hclaims hlast
  obtain ⟨header, hheader, -, hheaderKid⟩ := googleKid_eq_ok.mp hkid
  have hreturned : answer = .returned jwk := by
    cases answer <;> cases hjwk
    rfl
  subst hreturned
  have hdocument := (hanswer kid hkid).inDocument hls
  obtain ⟨key, hkey, hdecode⟩ := bind_eq_ok.mp hclaims
  obtain ⟨hnonce, -, hsub⟩ := identityOf_eq_ok hlast
  exact ⟨header, kid, jwk, key, claims, hheader, hheaderKid, hdocument, hkey, hdoc.signed hdecode,
    hdoc.issuer hdecode issuer rfl, hdoc.audience hdecode, hnonce, hsub, identityOf_subject hlast⟩

theorem kakaoIdentityOf_eq_ok {nonce : String} {claims : Dict} {identity : ExternalIdentity}
    (h : kakaoIdentityOf nonce claims = .ok identity) :
    Dict.str claims "iss" = some kakaoIssuer ∧ Dict.str claims "nonce" = some nonce ∧
      Dict.str claims "sub" = some identity.subject ∧ identity.subject ≠ "" := by
  unfold kakaoIdentityOf at h
  split at h
  · cases h
  · next hiss =>
      split at h
      · cases h
      · next hnonce =>
          split at h
          · next subject hsub =>
              split at h
              · cases h
              · next hne =>
                  cases h
                  exact ⟨not_not.mp hiss, not_not.mp hnonce, hsub, hne⟩
          · cases h

theorem kakao_carries {p : PyJwt Key} {Signed : String → Key → Dict → Prop}
    (hdoc : p.Documented Signed) {encoded clientId nonce : String} {http : Http}
    (hserved : Served http) {clock : Time} {identity : ExternalIdentity}
    (h : kakaoVerify p clientId encoded nonce http clock = .ok identity) :
    Carries p Signed (fun kid jwk => Dict.str jwk "kid" = some kid ∧ jwk ∈ jwksOf http) encoded
      kakaoIssuer clientId nonce identity := by
  unfold kakaoVerify at h
  obtain ⟨kid, hkid, h⟩ := bind_eq_ok.mp h
  obtain ⟨jwk, hjwk, h⟩ := bind_eq_ok.mp h
  obtain ⟨key, hkey, h⟩ := bind_eq_ok.mp h
  obtain ⟨claims, hclaims, h⟩ := bind_eq_ok.mp h
  rw [mapError_eq_ok] at hclaims
  obtain ⟨header, hheader, hheaderKid, -⟩ := kakaoKid_eq_ok.mp hkid
  rw [kakaoJwk_served hserved] at hjwk
  cases hfind : findKey (jwksOf http) kid with
  | none =>
      rw [hfind] at hjwk
      cases hjwk
  | some jwk' =>
      rw [hfind] at hjwk
      cases hjwk
      obtain ⟨hmem, hjwkKid⟩ := findKey_some hfind
      obtain ⟨hiss, hnonce, hsub, hne⟩ := kakaoIdentityOf_eq_ok h
      exact ⟨header, kid, jwk, key, claims, hheader, hheaderKid, ⟨hjwkKid, hmem⟩, hkey,
        hdoc.signed hclaims, hiss, hdoc.audience hclaims, hnonce, hsub, hne⟩

theorem kakao_only_iff (p : PyJwt Key) {http : Http} (hserved : Served http)
    (clientId encoded expectedNonce : String) (clock : Time) :
    Only (fun e => e.isValueError = true)
        (kakaoVerify p clientId encoded expectedNonce http clock) ↔
      KakaoQuiet p clientId encoded http clock := by
  unfold kakaoVerify KakaoQuiet
  rw [only_bind, kakaoKid_only]
  refine and_congr_right fun _ => ?_
  constructor
  · intro h header kid jwk hheader hkid hne hfind
    have hrest := h kid (kakaoKid_eq_ok.mpr ⟨header, hheader, hkid, hne⟩)
    rw [only_bind, kakaoJwk_served hserved kid, hfind] at hrest
    have hkey := hrest.2 jwk rfl
    rw [only_bind] at hkey
    refine ⟨hkey.1, fun key hok => ?_⟩
    have hdecode := hkey.2 key hok
    rw [only_bind, only_mapError] at hdecode
    exact hdecode.1.mono fun e he => (atKakao_isValueError e).mp he
  · intro h kid hok
    obtain ⟨header, hheader, hkid, hne⟩ := kakaoKid_eq_ok.mp hok
    rw [only_bind, kakaoJwk_served hserved kid]
    cases hfind : findKey (jwksOf http) kid with
    | none =>
        refine ⟨(only_error _).mpr rfl, fun jwk hno => ?_⟩
        cases hno
    | some jwk =>
        obtain ⟨hfrom, hdecode⟩ := h header kid jwk hheader hkid hne hfind
        refine ⟨only_ok _, fun jwk' he => ?_⟩
        cases he
        rw [only_bind]
        refine ⟨hfrom, fun key hkey => ?_⟩
        rw [only_bind, only_mapError]
        refine ⟨(hdecode key hkey).mono fun e he => (atKakao_isValueError e).mpr he, ?_⟩
        intro claims _
        exact kakaoIdentityOf_only expectedNonce claims

/-! ## The result -/

/-- A verifier returned an identity whose token carries what it must, or raised a `ValueError`. -/
def Verified (carries : ExternalIdentity → Prop) (r : Except Exc ExternalIdentity) : Prop :=
  Only (fun e => e.isValueError = true) r ∧ ∀ identity, r = .ok identity → carries identity

/-- Each verifier raises `ValueError`s only, or returns an identity with a token that carries what
    it must, exactly when PyJWT raises nothing its `except` clauses miss. `ls` is the run of the
    cache's calls, in which `answer` is what the verifier's own call was given. -/
theorem verifiers_sound_iff (p : PyJwt Key) {Signed : String → Key → Dict → Prop}
    (hdoc : p.Documented Signed) (encoded nonce clientId : String) (clock : Time)
    (ls : List Label) (hls : ∀ l ∈ ls, ServedLabel l) (jwksUri issuer : String) (now : ℤ)
    (answer : Verdict)
    (hanswer : ∀ kid, googleKid p encoded = .ok kid → Answered ls jwksUri kid now answer)
    (http : Http) (hserved : Served http) :
    (Verified (Carries p Signed (InDocument ls jwksUri answer) encoded issuer clientId nonce)
        (verifyGoogleIdToken p encoded issuer clientId nonce answer clock) ↔
      GoogleQuiet p encoded issuer clientId answer clock) ∧
    (Verified (Carries p Signed
          (fun kid jwk => Dict.str jwk "kid" = some kid ∧ jwk ∈ jwksOf http) encoded kakaoIssuer
          clientId nonce)
        (kakaoVerify p clientId encoded nonce http clock) ↔
      KakaoQuiet p clientId encoded http clock) := by
  constructor
  · rw [← google_only_iff p hls hanswer issuer clientId nonce clock]
    exact ⟨And.left, fun h => ⟨h, fun identity hok => google_carries hdoc hls hanswer hok⟩⟩
  · rw [← kakao_only_iff p hserved clientId encoded nonce clock]
    exact ⟨And.left, fun h => ⟨h, fun identity hok => kakao_carries hdoc hserved hok⟩⟩

/-- The claims of the token `k1.token`. -/
def sampleClaims : Dict :=
  [("iss", .str expectedIssuer), ("aud", .str "client"), ("sub", .str "google-123"),
    ("nonce", .str "nonce")]

/-- A PyJWT that knows one token. A token without a dot is a `DecodeError`, a key without a `kty` an
    `InvalidKeyError`. -/
def samplePyJwt : PyJwt Unit where
  getUnverifiedHeader encoded :=
    if encoded.toList.contains '.' then
      .ok ⟨[("alg", .str "RS256"), ("kid", .str "k1")],
        fun _ hv => ⟨"k1", (Option.some.inj hv).symm⟩⟩
    else .error .invalidToken
  fromDict jwk := if Dict.str jwk "kty" = some "RSA" then .ok () else .error .otherPyJwt
  decode d _ :=
    if d.encoded = "k1.token" then
      if d.audience = "client" then
        if d.issuer.all (· = expectedIssuer) then .ok sampleClaims else .error .invalidIssuer
      else .error .invalidAudience
    else .error .invalidToken

theorem samplePyJwt_documented :
    samplePyJwt.Documented
      fun encoded _ claims => encoded = "k1.token" ∧ claims = sampleClaims := by
  have hdecode : ∀ {d now claims}, samplePyJwt.decode d now = .ok claims →
      d.encoded = "k1.token" ∧ d.audience = "client" ∧ d.issuer.all (· = expectedIssuer) = true ∧
        claims = sampleClaims := by
    intro d now claims h
    unfold samplePyJwt at h
    dsimp only at h
    split at h
    · next hencoded =>
        split at h
        · next haudience =>
            split at h
            · next hissuer =>
                cases h
                exact ⟨hencoded, haudience, hissuer, rfl⟩
            · cases h
        · cases h
    · cases h
  refine ⟨?_, ?_, ?_⟩
  · intro d now claims h
    obtain ⟨hencoded, -, -, hclaims⟩ := hdecode h
    exact ⟨hencoded, hclaims⟩
  · intro d now claims h
    obtain ⟨-, haudience, -, rfl⟩ := hdecode h
    rw [haudience]
    rfl
  · intro d now claims h issuer hissuer
    obtain ⟨-, -, hall, rfl⟩ := hdecode h
    rw [hissuer] at hall
    have he : issuer = expectedIssuer := by simpa using hall
    rw [he]
    rfl

def sampleJwk : Dict := [("kid", .str "k1"), ("kty", .str "RSA")]

/-- A document of one key. -/
def sampleHttp : Http := .response "" (.ok (.dict [("keys", .list [.dict sampleJwk])]))

theorem sampleHttp_served : Served sampleHttp := by
  refine ⟨_, _, _, rfl, rfl, ?_⟩
  intro v hv
  exact ⟨sampleJwk, List.mem_singleton.mp hv⟩

/-- A call of the cache for the key `k1`, and the response it waits for. -/
def sampleCalls : List Label := [.call 0 "https://jwks" "k1" 100, .answer 0 sampleHttp]

theorem sampleCalls_served : ∀ l ∈ sampleCalls, ServedLabel l := by
  intro l hl
  rcases List.mem_cons.mp hl with rfl | hl
  · trivial
  · obtain rfl := List.mem_singleton.mp hl
    exact sampleHttp_served

/-- The sample token reads, and its key is made and verifies it. -/
theorem sample_googleQuiet :
    GoogleQuiet samplePyJwt "k1.token" expectedIssuer "client" (.returned sampleJwk) 0 := by
  refine ⟨only_ok _, ?_⟩
  intro header kid jwk _ _ _ hreturned
  cases hreturned
  refine ⟨only_ok (), ?_⟩
  intro key _
  exact only_ok sampleClaims

theorem sample_kakaoQuiet : KakaoQuiet samplePyJwt "client" "k1.token" sampleHttp 0 := by
  refine ⟨only_ok _, ?_⟩
  intro header kid jwk hheader hkid _ hfind
  have hjwk : jwk = sampleJwk := by
    have hmem := (findKey_some hfind).1
    exact List.mem_singleton.mp hmem
  subst hjwk
  refine ⟨only_ok (), ?_⟩
  intro key _
  exact only_ok sampleClaims

/-- The sample token meets the conditions of both verifiers: Google's accepts it, and Kakao's
    raises a `ValueError` for its issuer. -/
theorem verifiers_sound_sample :
    Verified (Carries samplePyJwt
          (fun encoded _ claims => encoded = "k1.token" ∧ claims = sampleClaims)
          (InDocument sampleCalls "https://jwks" (.returned sampleJwk)) "k1.token" expectedIssuer
          "client" "nonce")
        (verifyGoogleIdToken samplePyJwt "k1.token" expectedIssuer "client" "nonce"
          (.returned sampleJwk) 0) ∧
      Verified (Carries samplePyJwt
          (fun encoded _ claims => encoded = "k1.token" ∧ claims = sampleClaims)
          (fun kid jwk => Dict.str jwk "kid" = some kid ∧ jwk ∈ jwksOf sampleHttp) "k1.token"
          kakaoIssuer "client" "nonce")
        (kakaoVerify samplePyJwt "client" "k1.token" "nonce" sampleHttp 0) := by
  have hboth := verifiers_sound_iff samplePyJwt samplePyJwt_documented "k1.token" "nonce" "client" 0
    sampleCalls sampleCalls_served "https://jwks" expectedIssuer 100 (.returned sampleJwk) ?_
    sampleHttp sampleHttp_served
  · exact ⟨hboth.1.mpr sample_googleQuiet, hboth.2.mpr sample_kakaoQuiet⟩
  · intro kid hkid
    have hk : kid = "k1" := by
      obtain ⟨header, hheader, -, he⟩ := googleKid_eq_ok.mp hkid
      have h := Except.ok.inj hheader
      subst h
      exact (Option.some.inj he).symm
    subst hk
    exact ⟨0, ⟨"https://jwks", "k1", 100, false, []⟩, List.mem_cons_self, rfl, rfl, rfl⟩

/-- A token without a dot, and a key without its `kty`: the errors of PyJWT go through both. -/
theorem verifiers_let_through :
    ¬ Verified (fun _ => True) (verifyGoogleIdToken samplePyJwt "garbage" expectedIssuer "client"
        "nonce" .unknown 0) ∧
      ¬ Verified (fun _ => True) (kakaoVerify samplePyJwt "client" "garbage" "nonce" sampleHttp 0) ∧
      ¬ Verified (fun _ => True) (verifyGoogleIdToken samplePyJwt "k1.token" expectedIssuer "client"
        "nonce" (.returned [("kid", .str "k1")]) 0) ∧
      ¬ Verified (fun _ => True) (kakaoVerify samplePyJwt "client" "k1.token" "nonce"
        (.response "" (.ok (.dict [("keys", .list [.dict [("kid", .str "k1")]])]))) 0) := by
  have hno : ∀ {r : Except Exc ExternalIdentity} {e : Exc}, r = .error e →
      e.isValueError = false → ¬ Verified (fun _ => True) r := by
    intro r e hr he h
    rw [h.1 e hr] at he
    cases he
  exact ⟨hno (e := .invalidToken) rfl rfl, hno (e := .invalidToken) rfl rfl,
    hno (e := .otherPyJwt) rfl rfl, hno (e := .otherPyJwt) rfl rfl⟩

end TemisLab.External.IdTokens
