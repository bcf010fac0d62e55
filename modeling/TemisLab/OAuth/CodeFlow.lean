/-
  The authorization-code flow (`api/oauth.py`, `oauth_state.py`, `fake_provider.py`,
  `client_policy.py`): four requests over one Redis. A step of a request is one Redis command or
  one transaction with the local work around it; between two steps of a request any others come.
  Raw tokens, clocks and new row ids are in the labels. A request id used again abandons the
  request that held it.

  The history keeps what was asked for and handed out: the authorize queries with the state the
  provider got for them, the provider codes, the codes exchanged, the authorization codes and
  the bundles.
-/
import TemisLab.Lib.Base64
import TemisLab.Lib.OneTime
import TemisLab.Lib.Trace
import TemisLab.Sso.ExternalUsers
import TemisLab.Sso.Tokens

namespace TemisLab.OAuth

open TemisLab.Lib TemisLab.Sso

/-! ## Clients -/

/-- `ClientPolicy`. -/
structure ClientPolicy where
  clientId : String
  audience : String
  redirectUris : List String
  defaultRole : String
  deriving DecidableEq, Repr

def ClientPolicy.permitsRedirect (p : ClientPolicy) (redirectUri : String) : Bool :=
  p.redirectUris.contains redirectUri

def clients : List (String × ClientPolicy) :=
  [("temis-web",
    { clientId := "temis-web"
      audience := "temis-lab"
      redirectUris := ["http://localhost:3000/auth/callback"]
      defaultRole := "user" })]

/-- `client_by_id`; the error is the text of the `ValueError`. -/
def clientById (clientId : String) : Except String ClientPolicy :=
  match clients.lookup clientId with
  | none => .error "unknown client"
  | some client => .ok client

/-- `require_client`. -/
def requireClient (clientId redirectUri : String) : Except String ClientPolicy :=
  match clients.lookup clientId with
  | none => .error "unknown client"
  | some client =>
      if client.permitsRedirect redirectUri then .ok client
      else .error "redirect URI is not allowed"

/-- A client is filed under its own id. -/
theorem clientId_of_lookup {clientId : String} {client : ClientPolicy}
    (h : clients.lookup clientId = some client) : client.clientId = clientId := by
  simp only [clients, List.lookup_cons, List.lookup_nil] at h
  split at h
  · next hc =>
      cases h
      exact (beq_iff_eq.mp hc).symm
  · cases h

theorem requireClient_eq_ok {clientId redirectUri : String} {client : ClientPolicy}
    (h : requireClient clientId redirectUri = .ok client) :
    clients.lookup clientId = some client ∧ client.permitsRedirect redirectUri = true := by
  unfold requireClient at h
  split at h
  · cases h
  · next c hc =>
      split at h
      · next hp =>
          cases h
          exact ⟨hc, hp⟩
      · cases h

theorem clientById_eq_ok {clientId : String} {client : ClientPolicy}
    (h : clientById clientId = .ok client) : clients.lookup clientId = some client := by
  unfold clientById at h
  split at h
  · cases h
  · next c hc =>
      cases h
      exact hc

/-! ## The one-time store -/

/-- The namespaces of `RedisOneTimeStore` that the flow uses. -/
inductive Namespace where
  | oauth | providerCode | authorizationCode
  deriving DecidableEq, Repr

def Namespace.text : Namespace → String
  | .oauth => "oauth"
  | .providerCode => "provider-code"
  | .authorizationCode => "authorization-code"

/-- `_key`. -/
def key (env : Env) (ns : Namespace) (raw : String) : String :=
  "temis-lab:" ++ ns.text ++ ":" ++ env.sha256 raw

/-- A key tells its namespace. -/
theorem key_namespace {env : Env} {ns ns' : Namespace} {raw raw' : String}
    (h : key env ns raw = key env ns' raw') : ns = ns' := by
  have hl : (key env ns raw).toList = (key env ns' raw').toList := by rw [h]
  simp only [key, String.toList_append, List.append_assoc, List.append_cancel_left_eq] at hl
  -- the three names differ in their first letter
  cases ns <;> cases ns' <;> first | rfl | simp [Namespace.text] at hl

/-- Where SHA-256 does not collide, it tells its token, too. -/
theorem key_inj {env : Env} (henv : Function.Injective env.sha256) {ns ns' : Namespace}
    {raw raw' : String} : key env ns raw = key env ns' raw' ↔ ns = ns' ∧ raw = raw' := by
  refine ⟨?_, by rintro ⟨rfl, rfl⟩; rfl⟩
  intro h
  have hns : ns = ns' := key_namespace h
  subst hns
  have hdigest : env.sha256 raw = env.sha256 raw' := (String.append_right_inj _).mp h
  exact ⟨rfl, henv hdigest⟩

/-- A JSON object of texts. -/
abbrev Value := List (String × String)

/-- The hexadecimal value of a digit; other characters do not occur in a digest. -/
def hexValue (c : Char) : ℕ :=
  if c.isDigit then c.toNat - '0'.toNat else c.toNat - 'a'.toNat + 10

/-- `digest()` from `hexdigest()`: two digits an octet. -/
def unhex : List Char → List ℕ
  | a :: b :: rest => (hexValue a * 16 + hexValue b) :: unhex rest
  | _ => []

/-- `pkce_challenge`. -/
def pkceChallenge (env : Env) (verifier : String) : String :=
  String.ofList (Base64.encode (unhex (env.sha256 verifier).toList))

structure OAuthTransaction where
  clientId : String
  redirectUri : String
  codeChallenge : String
  provider : String
  clientState : String
  deriving DecidableEq, Repr

/-- `asdict(transaction)`. -/
def OAuthTransaction.asdict (t : OAuthTransaction) : Value :=
  [("client_id", t.clientId), ("redirect_uri", t.redirectUri),
    ("code_challenge", t.codeChallenge), ("provider", t.provider),
    ("client_state", t.clientState)]

/-- `OAuthTransaction(**value)`; `none` is the `TypeError` of a missing or unknown key. -/
def OAuthTransaction.ofDict (v : Value) : Option OAuthTransaction :=
  if v.length ≠ 5 then none
  else do
    let clientId ← v.lookup "client_id"
    let redirectUri ← v.lookup "redirect_uri"
    let codeChallenge ← v.lookup "code_challenge"
    let provider ← v.lookup "provider"
    let clientState ← v.lookup "client_state"
    some { clientId, redirectUri, codeChallenge, provider, clientState }

@[simp] theorem OAuthTransaction.ofDict_asdict (t : OAuthTransaction) :
    OAuthTransaction.ofDict t.asdict = some t := rfl

/-! ## The fake provider -/

structure ProviderIdentity where
  provider : String
  providerSubject : String
  deriving DecidableEq, Repr

/-- `FakeOAuthProvider.accounts`. -/
def accounts : List (String × ProviderIdentity) :=
  [("learner", ⟨"lab-provider", "learner-001"⟩), ("reviewer", ⟨"lab-provider", "reviewer-001"⟩)]

/-- What `FakeOAuthProvider.authorize` puts under a provider code. -/
def ProviderIdentity.result (i : ProviderIdentity) (state : String) : Value :=
  [("state", state), ("provider", i.provider), ("provider_subject", i.providerSubject)]

/-! ## The requests -/

/-- The query of `/oauth/authorize`. -/
structure AuthorizeQuery where
  clientId : String
  redirectUri : String
  state : String
  responseType : String := "code"
  codeChallenge : String
  codeChallengeMethod : String := "S256"
  deriving DecidableEq, Repr

/-- What a request answers. -/
inductive Answer where
  /-- 303 to an address with a query. -/
  | seeOther (location : String) (query : List (String × String))
  | bundle (b : TokenBundle)
  | refused (status : ℕ) (detail : String)
  /-- 422, a parameter FastAPI does not accept. -/
  | unprocessable
  /-- An exception no handler of the request catches. -/
  | raised (error : String)
  /-- `issue_bundle` raised. -/
  | unissued (error : TokenError)
  deriving DecidableEq, Repr

/-- `authorize` up to its Redis command. -/
def AuthorizeQuery.check (q : AuthorizeQuery) : Except Answer OAuthTransaction :=
  if q.state.length < 16 ∨ 256 < q.state.length ∨
      q.codeChallenge.length < 43 ∨ 128 < q.codeChallenge.length then
    .error .unprocessable
  else if q.responseType ≠ "code" ∨ q.codeChallengeMethod ≠ "S256" then
    .error (.refused 400 "authorization code with S256 required")
  else
    match requireClient q.clientId q.redirectUri with
    | .error error => .error (.refused 400 error)
    | .ok _ =>
        .ok { clientId := q.clientId, redirectUri := q.redirectUri,
              codeChallenge := q.codeChallenge, provider := "lab-provider",
              clientState := q.state }

/-- An accepted query names a client with one of its redirect URIs, and its transaction holds
    what it gave. -/
theorem AuthorizeQuery.check_eq_ok {q : AuthorizeQuery} {t : OAuthTransaction}
    (h : q.check = .ok t) :
    (∃ client, requireClient q.clientId q.redirectUri = .ok client) ∧
      t = { clientId := q.clientId, redirectUri := q.redirectUri,
            codeChallenge := q.codeChallenge, provider := "lab-provider",
            clientState := q.state } := by
  unfold check at h
  split at h
  · cases h
  · split at h
    · cases h
    · split at h
      · cases h
      · next client hc =>
          cases h
          exact ⟨⟨client, hc⟩, rfl⟩

/-- The names and values of a form, in the order of the body. -/
abbrev Form := List (String × String)

structure TokenRequest where
  grantType : String
  clientId : String
  redirectUri : String
  code : String
  codeVerifier : String
  deriving DecidableEq, Repr

/-- `TokenRequest(**…)` on the first value of each name; `none` is a `ValidationError`. -/
def TokenRequest.ofForm (form : Form) : Option TokenRequest := do
  let grantType ← form.lookup "grant_type"
  let clientId ← form.lookup "client_id"
  let redirectUri ← form.lookup "redirect_uri"
  let code ← form.lookup "code"
  let codeVerifier ← form.lookup "code_verifier"
  if 43 ≤ codeVerifier.length ∧ codeVerifier.length ≤ 128 then
    some { grantType, clientId, redirectUri, code, codeVerifier }
  else none

/-- The transaction and the provider subject `provider_callback` goes on with, after its two
    takes; `none` is the refusal. -/
def callbackResult (state : String) (transaction : Option OAuthTransaction)
    (providerResult : Option Value) : Option (OAuthTransaction × String) :=
  match transaction, providerResult with
  | some t, some result =>
      if result.lookup "state" ≠ some state ∨ result.lookup "provider" ≠ some t.provider then none
      else (result.lookup "provider_subject").map fun subject => (t, subject)
  | _, _ => none

/-- What `provider_callback` puts under an authorization code. -/
def codeGrant (userId : String) (policy : ClientPolicy) (t : OAuthTransaction) : Value :=
  [("user_id", userId), ("client_id", policy.clientId), ("redirect_uri", t.redirectUri),
    ("code_challenge", t.codeChallenge)]

/-- `valid` in `token`, on a grant that is not `None`. -/
def TokenRequest.valid (env : Env) (r : TokenRequest) (grant : Value) : Bool :=
  r.grantType = "authorization_code" && grant.lookup "client_id" = some r.clientId &&
    grant.lookup "redirect_uri" = some r.redirectUri &&
    grant.lookup "code_challenge" = some (pkceChallenge env r.codeVerifier)

/-! ## States and steps -/

/-- A run of `_oauth_user`: the tables it began on, its arguments, the id a new row would get
    and the user it returned. -/
structure Login where
  db : Db
  subject : String
  role : String
  uid : String
  userId : String

/-- What a request has still to do, with what it knows, or its answer. -/
inductive Task where
  /-- `provider_callback` has taken the transaction, if there was one. -/
  | exchange (state code : String) (transaction : Option OAuthTransaction)
  /-- `provider_callback` has checked what it took. -/
  | login (state code : String) (transaction : OAuthTransaction) (policy : ClientPolicy)
      (subject : String)
  /-- `provider_callback` has a user. -/
  | issueCode (state code : String) (transaction : OAuthTransaction) (policy : ClientPolicy)
      (login : Login)
  /-- `token` has a valid grant. -/
  | bundle (request : TokenRequest) (grant : Value) (policy : ClientPolicy)
  | answered (answer : Answer)

/-- A provider code: the state and the account it was asked for with. -/
structure Approval where
  code : String
  state : String
  account : String
  deriving DecidableEq, Repr

/-- An authorization code and where it came from. -/
structure Coded where
  code : String
  state : String
  providerCode : String
  transaction : OAuthTransaction
  policy : ClientPolicy
  login : Login

/-- A bundle and the request it answered. -/
structure Redeemed where
  request : TokenRequest
  bundle : TokenBundle

structure Sys where
  db : Db
  redis : OneTime String Value Time ℕ
  tasks : ℕ → Option Task
  begun : List (String × AuthorizeQuery)
  approved : List Approval
  exchanged : List String
  coded : List Coded
  redeemed : List Redeemed

def Sys.start (db : Db) : Sys := ⟨db, .empty, fun _ => none, [], [], [], [], []⟩

/-- Every raw token drawn so far. -/
def Sys.drawn (s : Sys) : List String :=
  s.begun.map Prod.fst ++ s.approved.map Approval.code ++ s.coded.map Coded.code

/-- A request goes on as `t`. -/
def Sys.goOn (s : Sys) (rid : ℕ) (t : Task) : Sys :=
  { s with tasks := Function.update s.tasks rid (some t) }

@[simp] theorem Sys.tasks_goOn_self (s : Sys) (rid : ℕ) (t : Task) :
    (s.goOn rid t).tasks rid = some t := Function.update_self ..

theorem Sys.tasks_goOn_of_ne (s : Sys) (rid : ℕ) (t : Task) (p : ℕ) (hp : p ≠ rid) :
    (s.goOn rid t).tasks p = s.tasks p := Function.update_of_ne hp ..

/-- A request answers. -/
def Sys.answer (s : Sys) (rid : ℕ) (a : Answer) : Sys := s.goOn rid (.answered a)

/-- What moves: a request arrives, a request goes on, a request dies (its client is gone, an
    outside call raised), or the tables change in any other way. `form` is `none` where
    `parse_qs` raises. -/
inductive Label where
  | authorize (rid : ℕ) (query : AuthorizeQuery) (raw : String) (now : Time)
  | fakeAuthorize (rid : ℕ) (state account raw : String) (now : Time)
  | callback (rid : ℕ) (state code : String) (now : Time)
  | exchange (rid : ℕ) (now : Time)
  | login (rid : ℕ) (uid : String)
  | issueCode (rid : ℕ) (raw : String) (now : Time)
  | token (rid : ℕ) (form : Option Form) (now : Time)
  | bundle (rid : ℕ) (fresh : String) (activeKid : Option String) (now : Time)
  | drop (rid : ℕ)
  | other (db : Db)

/-- `authorize`. -/
def authorize (env : Env) (s : Sys) (rid : ℕ) (query : AuthorizeQuery) (raw : String)
    (now : Time) : Sys :=
  match query.check with
  | .error a => s.answer rid a
  | .ok t =>
      { s.answer rid (.seeOther "/oauth/fake-provider/authorize" [("state", raw)]) with
        redis := s.redis.put (key env .oauth raw) t.asdict (now + 300)
        begun := (raw, query) :: s.begun }

/-- `fake_authorize`. -/
def fakeAuthorize (env : Env) (s : Sys) (rid : ℕ) (state account raw : String) (now : Time) :
    Sys :=
  match accounts.lookup account with
  | none => s.answer rid (.refused 400 "unknown fake-provider account")
  | some identity =>
      { s.answer rid (.seeOther "/oauth/provider/callback" [("state", state), ("code", raw)]) with
        redis := s.redis.put (key env .providerCode raw) (identity.result state) (now + 60)
        approved := ⟨raw, state, account⟩ :: s.approved }

/-- `provider_callback` as far as `consume_oauth`. -/
def callback (env : Env) (s : Sys) (rid : ℕ) (state code : String) (now : Time) : Sys :=
  let (value, redis) := s.redis.take (key env .oauth state) rid now
  match value with
  | none => { s with redis }.goOn rid (.exchange state code none)
  | some v =>
      match OAuthTransaction.ofDict v with
      | none => { s with redis }.answer rid (.raised "TypeError")
      | some t => { s with redis }.goOn rid (.exchange state code (some t))

/-- `FakeOAuthProvider.exchange`. -/
def providerExchange (env : Env) (s : Sys) (rid : ℕ) (code : String) (now : Time) :
    Option Value × Sys :=
  let (value, redis) := s.redis.take (key env .providerCode code) rid now
  (value,
    { s with redis, exchanged := if value.isSome then code :: s.exchanged else s.exchanged })

/-- `provider_callback` from `exchange` to `require_client`. -/
def exchange (env : Env) (s : Sys) (rid : ℕ) (state code : String)
    (transaction : Option OAuthTransaction) (now : Time) : Sys :=
  let (value, s') := providerExchange env s rid code now
  match callbackResult state transaction value with
  | none => s'.answer rid (.refused 400 "invalid oauth transaction")
  | some (t, subject) =>
      match requireClient t.clientId t.redirectUri with
      | .error error => s'.answer rid (.raised error)
      | .ok policy => s'.goOn rid (.login state code t policy subject)

/-- `_oauth_user` in `provider_callback`. -/
def login (env : Env) (s : Sys) (rid : ℕ) (state code : String) (t : OAuthTransaction)
    (policy : ClientPolicy) (subject uid : String) : Sys :=
  match oauthUser env s.db subject policy.defaultRole uid with
  | .error _ => s.answer rid (.raised "IntegrityError")
  | .ok (userId, db) =>
      { s with db }.goOn rid
        (.issueCode state code t policy ⟨s.db, subject, policy.defaultRole, uid, userId⟩)

/-- The end of `provider_callback`. -/
def issueCode (env : Env) (s : Sys) (rid : ℕ) (state code : String) (t : OAuthTransaction)
    (policy : ClientPolicy) (l : Login) (raw : String) (now : Time) : Sys :=
  { s.answer rid (.seeOther t.redirectUri [("code", raw), ("state", t.clientState)]) with
    redis := s.redis.put (key env .authorizationCode raw) (codeGrant l.userId policy t) (now + 60)
    coded := ⟨raw, state, code, t, policy, l⟩ :: s.coded }

/-- `token` as far as its checks. -/
def token (env : Env) (s : Sys) (rid : ℕ) (form : Option Form) (now : Time) : Sys :=
  match form with
  | none => s.answer rid (.raised "ValueError")
  | some form =>
      match TokenRequest.ofForm form with
      | none => s.answer rid (.refused 400 "invalid token request")
      | some r =>
          let (value, redis) := s.redis.take (key env .authorizationCode r.code) rid now
          match value with
          | none => { s with redis }.answer rid (.refused 401 "invalid authorization code")
          | some grant =>
              if r.valid env grant then
                match clientById r.clientId with
                | .error error => { s with redis }.answer rid (.raised error)
                | .ok policy => { s with redis }.goOn rid (.bundle r grant policy)
              else { s with redis }.answer rid (.refused 401 "invalid authorization code")

/-- `issue_bundle` in `token`. -/
def bundle (env : Env) (s : Sys) (rid : ℕ) (r : TokenRequest) (grant : Value)
    (policy : ClientPolicy) (fresh : String) (activeKid : Option String) (now : Time) : Sys :=
  match grant.lookup "user_id" with
  | none => s.answer rid (.raised "KeyError")
  | some userId =>
      match issueBundle env s.db userId policy.audience none fresh activeKid now with
      | .error e => s.answer rid (.unissued e)
      | .ok (b, db) =>
          { { s with db }.answer rid (.bundle b) with redeemed := ⟨r, b⟩ :: s.redeemed }

/-- One step. -/
def step (env : Env) (s : Sys) : Label → Sys
  | .authorize rid query raw now => authorize env s rid query raw now
  | .fakeAuthorize rid state account raw now => fakeAuthorize env s rid state account raw now
  | .callback rid state code now => callback env s rid state code now
  | .exchange rid now =>
      match s.tasks rid with
      | some (.exchange state code transaction) =>
          exchange env s rid state code transaction now
      | _ => s
  | .login rid uid =>
      match s.tasks rid with
      | some (.login state code t policy subject) => login env s rid state code t policy subject uid
      | _ => s
  | .issueCode rid raw now =>
      match s.tasks rid with
      | some (.issueCode state code t policy l) => issueCode env s rid state code t policy l raw now
      | _ => s
  | .token rid form now => token env s rid form now
  | .bundle rid fresh activeKid now =>
      match s.tasks rid with
      | some (.bundle r grant policy) => bundle env s rid r grant policy fresh activeKid now
      | _ => s
  | .drop rid => { s with tasks := Function.update s.tasks rid none }
  | .other db => { s with db }

/-- `secrets.token_urlsafe(32)` draws what no draw before it has. -/
def Fresh (s : Sys) : Label → Prop
  | .authorize _ _ raw _ | .fakeAuthorize _ _ _ raw _ | .issueCode _ raw _ => raw ∉ s.drawn
  | _ => True

instance (s : Sys) : (l : Label) → Decidable (Fresh s l)
  | .authorize _ _ raw _ => inferInstanceAs (Decidable (raw ∉ s.drawn))
  | .fakeAuthorize _ _ _ raw _ => inferInstanceAs (Decidable (raw ∉ s.drawn))
  | .issueCode _ raw _ => inferInstanceAs (Decidable (raw ∉ s.drawn))
  | .callback .. | .exchange .. | .login .. | .token .. | .bundle .. | .drop _ | .other _ =>
      .isTrue trivial

end TemisLab.OAuth
