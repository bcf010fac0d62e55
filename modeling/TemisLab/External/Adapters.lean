/-
  The adapters of the three identity providers (`external_idp/google.py`, `naver.py`, `kakao.py`)
  and `verify_google_id_token` with its key cache (`external_idp/callback.py`): each function from
  the response it awaited to what it returns or raises.

  PyJWT, Python's `repr` and the errors of `urlparse` are parameters (`Outside`). What the token
  requests carry is in `External.Exchanges`.

  * `naverIdentity_eq_ok`: an identity of Naver is never a verified one.
  * `kakaoIdentity_eq_ok`: an identity of Kakao has an e-mail exactly when it is verified.
  * `identityOf_eq_ok`: the nonce and the subject of an ID token that passes.
-/
import TemisLab.Lib.Json
import TemisLab.Lib.PyText
import TemisLab.Lib.Raising
import TemisLab.Keyring.Records
import TemisLab.Sso.ExternalUsers
import TemisLab.External.Flows

namespace TemisLab.External

open TemisLab.Lib TemisLab.Sso TemisLab.Keyring

/-- What a function raises: a `ValueError`, an error the callbacks answer with 500 (`RuntimeError`,
    `httpx.HTTPError` and `KeyError`), or one that nothing catches. -/
inductive Failure where
  | valueError (text : String)
  | coreError (text : String)
  | uncaught
  deriving DecidableEq, Repr

/-- What `jwt.decode` raises. -/
inductive JwtError where
  | invalidIssuer
  | invalidAudience
  /-- Another `InvalidTokenError`. -/
  | invalidToken
  | raised (failure : Failure)
  deriving DecidableEq, Repr

/-- PyJWT with `verify_google_id_token`'s algorithm and required claims, `repr`, and the texts of
    the `ValueError`s of `urlparse`. -/
structure Outside where
  getUnverifiedHeader : String → Except Failure Dict
  fromJwk : Dict → Except Failure PublicKey
  decode : (encoded : String) → PublicKey → (audience issuer : String) → Time → Except JwtError Dict
  repr : Json → String
  urlError : String → Option String

/-- `str(value)`. -/
def Outside.str (o : Outside) : Json → String
  | .str s => s
  | v => o.repr v

/-- What awaiting a response and `raise_for_status` give. The body is what `response.json()`
    gives. -/
inductive Http where
  | failed (failure : Failure)
  | response (cacheControl : String) (body : Except Failure Json)

/-- The value a method such as `get` is called on. -/
def asDict : Json → Except Failure Dict
  | .dict d => .ok d
  | _ => .error .uncaught

/-- `response.json()`, used as a `dict`. -/
def Http.payload : Http → Except Failure Dict
  | .failed failure => .error failure
  | .response _ body => body.bind asDict

/-- A non-empty text under `key`, or the `ValueError`. -/
def requireText (d : Dict) (key error : String) : Except Failure String :=
  match Dict.str d key with
  | some text => if text = "" then .error (.valueError error) else .ok text
  | none => .error (.valueError error)

/-- The truth value of a JSON value. -/
def truthy : Json → Bool
  | .null => false
  | .bool b => b
  | .int n => n ≠ 0
  | .float literal => literal ≠ "0.0" && literal ≠ "-0.0"
  | .str s => s ≠ ""
  | .list values => !values.isEmpty
  | .dict entries => !entries.isEmpty

/-- The clients that the services are registered as. -/
structure Settings where
  googleClientId : String
  naverClientId : String
  kakaoRestApiKey : String

/-- `AuthorizationRequest`. -/
structure AuthorizationRequest where
  url : String
  parameters : List (String × String)
  deriving DecidableEq, Repr

/-! ## Google -/

/-- `ProviderMetadata`. -/
structure ProviderMetadata where
  issuer : String
  authorizationEndpoint : String
  tokenEndpoint : String
  userinfoEndpoint : String
  revocationEndpoint : String
  jwksUri : String
  deriving DecidableEq, Repr

/-- A character of a URL scheme. -/
def schemeChar (c : Char) : Bool :=
  c.isAlpha || c.isDigit || c = '+' || c = '-' || c = '.'

/-- `urlparse(value).scheme`. -/
def urlScheme (value : String) : String :=
  let cs := (value.toList.dropWhile fun c => c.toNat ≤ 32).filter
    fun c => c ≠ '\t' && c ≠ '\r' && c ≠ '\n'
  let scheme := cs.takeWhile (· ≠ ':')
  if cs.contains ':' && (scheme.head?.any Char.isAlpha) && scheme.all schemeChar then
    String.ofList (scheme.map Char.toLower)
  else ""

/-- `_require_https`. -/
def requireHttps (o : Outside) (value : String) : Except Failure Unit :=
  match o.urlError value with
  | some text => .error (.valueError text)
  | none =>
      if urlScheme value = "https" then .ok ()
      else .error (.valueError "provider endpoints must use HTTPS")

/-- `ProviderMetadata.__post_init__`. -/
def ProviderMetadata.postInit (o : Outside) (m : ProviderMetadata) : Except Failure Unit :=
  [m.issuer, m.authorizationEndpoint, m.tokenEndpoint, m.userinfoEndpoint, m.revocationEndpoint,
    m.jwksUri].forM (requireHttps o)

/-- `GoogleOidcAdapter.expected_issuer`. -/
def expectedIssuer : String := "https://accounts.google.com"

/-- The metadata of a discovery document, before its checks. -/
def documentMetadata (o : Outside) (raw : Dict) : ProviderMetadata :=
  let text (key : String) : String := o.str ((raw.lookup key).getD (.str ""))
  { issuer := text "issuer"
    authorizationEndpoint := text "authorization_endpoint"
    tokenEndpoint := text "token_endpoint"
    userinfoEndpoint := text "userinfo_endpoint"
    revocationEndpoint := text "revocation_endpoint"
    jwksUri := text "jwks_uri" }

/-- `GoogleOidcAdapter.discover`. -/
def googleDiscover (o : Outside) (http : Http) : Except Failure ProviderMetadata :=
  match http.payload with
  | .error failure => .error failure
  | .ok raw =>
      let metadata := documentMetadata o raw
      match metadata.postInit o with
      | .error failure => .error failure
      | .ok () =>
          if metadata.issuer ≠ expectedIssuer then
            .error (.valueError "discovery issuer mismatch")
          else .ok metadata

/-- `GoogleOidcAdapter.authorization_request`. -/
def googleAuthorizationRequest (cfg : Settings) (metadata : ProviderMetadata)
    (flow : ExternalFlow) : AuthorizationRequest where
  url := metadata.authorizationEndpoint
  parameters :=
    [("client_id", cfg.googleClientId), ("redirect_uri", flow.redirectUri),
      ("response_type", "code"), ("scope", "openid email profile"), ("state", flow.state),
      ("nonce", flow.nonce), ("code_challenge", flow.codeChallenge),
      ("code_challenge_method", "S256")]

/-- `GoogleOidcAdapter.exchange_code`: the ID token. -/
def googleExchangeCode (env : Env) : Http → Except Failure String
  | .failed failure => .error failure
  | .response cacheControl body =>
      if PyText.contains "no-store" (env.lower cacheControl) then
        match body.bind asDict with
        | .error failure => .error failure
        | .ok payload => requireText payload "id_token" "token response is missing id_token"
      else .error (.valueError "token response must be marked no-store")

/-! ### The key cache -/

/-- `JwksCache._entries`: the keys of a document and until when they are fresh. -/
abbrev JwksCache := String → Option (ℤ × List Dict)

/-- `(\d+)` after `\s*max-age=` at the start of a text. -/
def maxAgeGroup (cs : List Char) : Option (List Char) :=
  let cs := cs.dropWhile PyText.isSpace
  if "max-age=".toList.isPrefixOf cs then
    let digits := (cs.drop 8).takeWhile fun c => (PyText.decimal c).isSome
    if digits = [] then none else some digits
  else none

/-- `match.group(1)` of `re.search(r"(?:^|,)\s*max-age=(\d+)", cache_control)`. -/
def maxAgeMatch (cacheControl : String) : Option (List Char) :=
  let cs := cacheControl.toList
  let afterComma := cs.tails.filterMap fun t =>
    match t with
    | ',' :: rest => maxAgeGroup rest
    | _ => none
  (maxAgeGroup cs).orElse fun _ => afterComma.head?

/-- `int(match.group(1)) if match else 0`. -/
def ttlOf (cacheControl : String) : Except Failure ℕ :=
  match maxAgeMatch cacheControl with
  | none => .ok 0
  | some digits =>
      match PyText.int digits with
      | some ttl => .ok ttl
      | none =>
          .error (.valueError ("Exceeds the limit (4300 digits) for integer string conversion: " ++
            "value has " ++ toString digits.length ++ " digits; use " ++
            "sys.set_int_max_str_digits() to increase the limit"))

/-- The `dict`s among what iterating `document.get("keys", [])` yields. -/
def documentKeys (document : Dict) : Except Failure (List Dict) :=
  match document.lookup "keys" with
  | none => .ok []
  | some (.list values) =>
      .ok (values.filterMap fun
        | .dict d => some d
        | _ => none)
  | some (.str _) => .ok []
  | some (.dict _) => .ok []
  | some _ => .error .uncaught

/-- The keys of a response. -/
def keysOf : Http → Except Failure (List Dict)
  | .failed failure => .error failure
  | .response _ body => (body.bind asDict).bind documentKeys

/-- The lifetime of a response. -/
def lifetime : Http → Except Failure ℕ
  | .failed failure => .error failure
  | .response cacheControl _ => ttlOf cacheControl

/-- `JwksCache._refresh` from its response on. -/
def JwksCache.refresh (jwksUri : String) (now : ℤ) (http : Http) :
    Raising Failure JwksCache (List Dict) := do
  let keys ← liftExcept (keysOf http)
  let ttl ← liftExcept (lifetime http)
  modify fun entries => Function.update entries jwksUri (some (now + ttl, keys))
  return keys

theorem JwksCache.on_refresh (jwksUri : String) (now : ℤ) (http : Http) (cache : JwksCache) :
    (refresh jwksUri now http).on cache =
      match keysOf http, lifetime http with
      | .error failure, _ => (.error failure, cache)
      | .ok _, .error failure => (.error failure, cache)
      | .ok keys, .ok ttl =>
          (.ok keys, Function.update cache jwksUri (some (now + ttl, keys))) := by
  unfold refresh
  simp only [Raising.on_bind, Raising.on_liftExcept]
  cases keysOf http with
  | error failure => rfl
  | ok keys =>
      cases lifetime http with
      | error failure => rfl
      | ok ttl => rfl

/-- `next((item for item in keys if item.get("kid") == kid), None)`. -/
def findKey (keys : List Dict) (kid : String) : Option Dict :=
  keys.find? fun item => Dict.str item "kid" = some kid

/-- `JwksCache.key` before it refreshes: a key that is fresh. Without one it refreshes once. -/
def JwksCache.key (cache : JwksCache) (jwksUri kid : String) (now : ℤ) : Option Dict :=
  match cache jwksUri with
  | some (freshUntil, keys) => if now < freshUntil then findKey keys kid else none
  | none => none

/-- `JwksCache.key` after `_refresh`. -/
def refreshedKey (keys : List Dict) (kid : String) : Except Failure Dict :=
  match findKey keys kid with
  | some key => .ok key
  | none => .error (.valueError "ID token signing key is unknown")

/-! ### The ID token -/

/-- `verify_google_id_token` up to the key: the token's `kid`. -/
def idTokenKid (o : Outside) (encoded : String) : Except Failure String :=
  match o.getUnverifiedHeader encoded with
  | .error failure => .error failure
  | .ok header =>
      match Dict.str header "alg", Dict.str header "kid" with
      | some alg, some kid =>
          if alg = "RS256" then .ok kid
          else .error (.valueError "ID token algorithm or kid is invalid")
      | _, _ => .error (.valueError "ID token algorithm or kid is invalid")

/-- The `jwt.decode` of `verify_google_id_token`. -/
def decodeIdToken (o : Outside) (clientId issuer encoded : String) (jwk : Dict) (clock : Time) :
    Except Failure Dict :=
  match o.fromJwk jwk with
  | .error failure => .error failure
  | .ok key =>
      match o.decode encoded key clientId issuer clock with
      | .ok claims => .ok claims
      | .error .invalidIssuer => .error (.valueError "ID token issuer mismatch")
      | .error .invalidAudience => .error (.valueError "ID token audience mismatch")
      | .error .invalidToken => .error (.valueError "invalid ID token")
      | .error (.raised failure) => .error failure

/-- `isinstance(claims.get("aud"), list)`. -/
def manyAudiences (claims : Dict) : Bool :=
  match claims.lookup "aud" with
  | some (.list _) => true
  | _ => false

/-- `claims.get(key) is True`. -/
def isTrue (d : Dict) (key : String) : Bool :=
  match d.lookup key with
  | some (.bool true) => true
  | _ => false

/-- `claims.get(key) is False`. -/
def isFalse (d : Dict) (key : String) : Bool :=
  match d.lookup key with
  | some (.bool false) => true
  | _ => false

/-- `verify_google_id_token` from the claims on. -/
def identityOf (clientId expectedNonce : String) (claims : Dict) :
    Except Failure ExternalIdentity :=
  if Dict.str claims "nonce" ≠ some expectedNonce then
    .error (.valueError "ID token nonce mismatch")
  else if manyAudiences claims && Dict.str claims "azp" ≠ some clientId then
    .error (.valueError "ID token authorized party mismatch")
  else
    match requireText claims "sub" "ID token subject is missing" with
    | .error failure => .error failure
    | .ok subject =>
        .ok ⟨"google", subject, Dict.str claims "email", isTrue claims "email_verified"⟩

/-! ## Naver and Kakao -/

/-- `NaverAdapter.authorization_request`. -/
def naverAuthorizationRequest (cfg : Settings) (flow : ExternalFlow) : AuthorizationRequest where
  url := "https://nid.naver.com/oauth2.0/authorize"
  parameters :=
    [("client_id", cfg.naverClientId), ("redirect_uri", flow.redirectUri),
      ("response_type", "code"), ("scope", "email profile"), ("state", flow.state)]

/-- `KakaoAdapter.authorization_request`. -/
def kakaoAuthorizationRequest (cfg : Settings) (flow : ExternalFlow) : AuthorizationRequest where
  url := "https://kauth.kakao.com/oauth/authorize"
  parameters :=
    [("client_id", cfg.kakaoRestApiKey), ("redirect_uri", flow.redirectUri),
      ("response_type", "code"), ("state", flow.state), ("code_challenge", flow.codeChallenge),
      ("code_challenge_method", "S256")]

/-- The access token of a token response; `rejected` and `missing` are the texts of its errors. -/
def accessToken (rejected missing : String) (o : Outside) (http : Http) : Except Failure String :=
  match http.payload with
  | .error failure => .error failure
  | .ok payload =>
      match payload.lookup "error" with
      | some error => .error (.valueError (rejected ++ o.str error))
      | none => requireText payload "access_token" missing

/-- `NaverAdapter.exchange_code`. -/
def naverExchangeCode : Outside → Http → Except Failure String :=
  accessToken "Naver token endpoint rejected: " "Token response is missing access_token"

/-- `d.get(key)` where it is a `dict`, else an empty one. -/
def subDict (d : Dict) (key : String) : Dict :=
  match d.lookup key with
  | some (.dict entries) => entries
  | _ => []

/-- `NaverAdapter.fetch_identity`. -/
def naverIdentity (o : Outside) (http : Http) : Except Failure ExternalIdentity :=
  match http.payload with
  | .error failure => .error failure
  | .ok payload =>
      if Dict.str payload "resultcode" ≠ some "00" then
        .error (.valueError ("Naver provider rejected: resultcode=" ++
          o.str ((payload.lookup "resultcode").getD .null)))
      else
        let profile := subDict payload "response"
        match profile.lookup "id" with
        | none => .error (.valueError "response.id")
        | some subject =>
            if truthy subject && PyText.strip (o.str subject) ≠ "" then
              .ok ⟨"naver", o.str subject, Dict.str profile "email", false⟩
            else .error (.valueError "response.id")

/-- The e-mail of a Kakao account where `usable_email` holds. -/
def usableEmail (account : Dict) : Option String :=
  if isFalse account "email_needs_agreement" && isTrue account "is_email_valid" &&
      isTrue account "is_email_verified" then Dict.str account "email"
  else none

/-- `KakaoAdapter.fetch_identity`. -/
def kakaoIdentity (http : Http) : Except Failure ExternalIdentity :=
  match http.payload with
  | .error failure => .error failure
  | .ok payload =>
      match payload.lookup "id" with
      | some (.int subject) =>
          let email := usableEmail (subDict payload "kakao_account")
          .ok ⟨"kakao", toString subject, email, email.isSome⟩
      | _ => .error (.valueError "Kakao REST id is missing")

/-! ## What the adapters return -/

theorem requireText_eq_ok {d : Dict} {key error text : String}
    (h : requireText d key error = .ok text) : Dict.str d key = some text ∧ text ≠ "" := by
  unfold requireText at h
  split at h
  · next text' hs =>
      split at h
      · cases h
      · next hne =>
          cases h
          exact ⟨hs, hne⟩
  · cases h

theorem googleDiscover_issuer {o : Outside} {http : Http} {metadata : ProviderMetadata}
    (h : googleDiscover o http = .ok metadata) : metadata.issuer = expectedIssuer := by
  unfold googleDiscover at h
  split at h
  · cases h
  · dsimp only at h
    split at h
    · cases h
    · split at h
      · cases h
      · next hissuer =>
          cases h
          exact not_not.mp hissuer

/-- The token decoded under the key. -/
theorem decodeIdToken_eq_ok {o : Outside} {clientId issuer encoded : String} {jwk claims : Dict}
    {clock : Time} (h : decodeIdToken o clientId issuer encoded jwk clock = .ok claims) :
    ∃ key, o.fromJwk jwk = .ok key ∧
      o.decode encoded key clientId issuer clock = .ok claims := by
  unfold decodeIdToken at h
  split at h
  · cases h
  · next key hkey =>
      split at h
      · next claims' hd =>
          cases h
          exact ⟨key, hkey, hd⟩
      all_goals cases h

theorem identityOf_eq_ok {clientId nonce : String} {claims : Dict} {identity : ExternalIdentity}
    (h : identityOf clientId nonce claims = .ok identity) :
    Dict.str claims "nonce" = some nonce ∧ identity.provider = "google" ∧
      Dict.str claims "sub" = some identity.subject := by
  unfold identityOf at h
  split at h
  · cases h
  · next hnonce =>
      split at h
      · cases h
      · split at h
        · cases h
        · next subject hsub =>
            cases h
            exact ⟨not_not.mp hnonce, rfl, (requireText_eq_ok hsub).1⟩

theorem naverIdentity_eq_ok {o : Outside} {http : Http} {identity : ExternalIdentity}
    (h : naverIdentity o http = .ok identity) :
    identity.provider = "naver" ∧ identity.subject ≠ "" ∧ identity.emailVerified = false := by
  unfold naverIdentity at h
  split at h
  · cases h
  · split at h
    · cases h
    · dsimp only at h
      split at h
      · cases h
      · next subject hs =>
          split at h
          · next hblank =>
              cases h
              refine ⟨rfl, ?_, rfl⟩
              intro he
              have hempty : o.str subject = "" := he
              rw [hempty] at hblank
              simp [PyText.strip] at hblank
          · cases h

theorem kakaoIdentity_eq_ok {http : Http} {identity : ExternalIdentity}
    (h : kakaoIdentity http = .ok identity) :
    identity.provider = "kakao" ∧ identity.emailVerified = identity.email.isSome := by
  unfold kakaoIdentity at h
  split at h
  · cases h
  · split at h
    · cases h
      exact ⟨rfl, rfl⟩
    · cases h

end TemisLab.External
