/-
  The login and callback endpoints of the three identity providers (`api/oauth.py`,
  `api/naver_oauth.py`, `api/kakao_oauth.py`), interleaved at their awaits. A step runs from one
  await to the next; the responses of the providers, the clock and the random values are in the
  labels. Each `session_scope` block is one step and a block that raises changes no table.

  A callback consumes its flow before its first await and then asks the provider. `respond` is what
  it makes of one awaited response. The retry of `google_callback` (errors whose text has
  "not linked") runs through the same phases and ends at `_google_oauth_user`, which raises.
  `kakao_callback` raises on an unbound name after its consume.

  History: the logs of the flow stores, `redirected`, `answered` and `handed` (the bundles, with
  what their callbacks went by). `step_did` says once what a step can do.
-/
import TemisLab.External.Adapters
import TemisLab.Lib.Trace
import TemisLab.Sso.Requests
import Mathlib.Algebra.Order.Floor.Ring
import Mathlib.Data.Rat.Floor

namespace TemisLab.External

open TemisLab.Lib TemisLab.Sso TemisLab.Keyring

inductive Provider where
  | google | naver | kakao
  deriving DecidableEq, Repr

def Provider.name : Provider → String
  | .google => "google"
  | .naver => "naver"
  | .kakao => "kakao"

/-- The `redirect_uri` of a provider's logins. -/
def Provider.redirectUri (p : Provider) : String :=
  "http://localhost:8000/oauth/" ++ p.name ++ "/callback"

/-- The arguments of a callback with a cookie. -/
structure Request where
  provider : Provider
  state : String
  code : String
  presented : Presented
  deriving DecidableEq, Repr

/-- What an identity was taken from: an ID token with the key and the clock it was decoded at, or
    the response with the profile. -/
inductive Evidence where
  | idToken (encoded : String) (jwk : Dict) (clock : Time)
  | profile (response : Http)

/-- Where a callback is: what it awaits, or which block it has to run. -/
inductive Phase where
  | discovering
  | exchanging (metadata : ProviderMetadata)
  | fetching (metadata : ProviderMetadata) (encoded kid : String) (now : ℤ)
  | resolving (identity : ExternalIdentity) (evidence : Evidence)
  | naverExchanging
  | naverFetching (accessToken : String)
  | provisioning (identity : ExternalIdentity) (evidence : Evidence)
  | issuing (identity : ExternalIdentity) (evidence : Evidence) (userId : String)

/-- A callback that is not answered, with the flow it checks against. -/
structure Task where
  request : Request
  flow : ExternalFlow
  retry : Bool
  phase : Phase

inductive Answer where
  | bundle (bundle : TokenBundle)
  /-- `HTTPException`. -/
  | refused (status : ℕ) (detail : String)
  /-- An exception that nothing catches. -/
  | serverError
  deriving DecidableEq, Repr

/-- A bundle handed out, and what it was handed out for. -/
structure Handed where
  request : Request
  flow : ExternalFlow
  identity : ExternalIdentity
  evidence : Evidence
  bundle : TokenBundle

structure Server where
  db : Db
  flows : Provider → FlowStore
  jwks : JwksCache
  /-- `idp_session_store`. -/
  sessions : String → Option String
  tasks : ℕ → Option Task
  redirected : List (Provider × AuthorizationRequest)
  answered : List (ℕ × Answer)
  handed : List Handed

/-- `FlowStore(ttl_seconds=300)`, in each of the three modules. -/
def flowTtl : ℤ := 300

def Server.start (db : Db) : Server where
  db := db
  flows _ := .init flowTtl
  jwks _ := none
  sessions _ := none
  tasks _ := none
  redirected := []
  answered := []
  handed := []

inductive Step where
  /-- A login; Google's awaits the discovery document first. -/
  | login (p : Provider) (http : Http) (browserBinding verifier state nonce : String) (now : ℤ)
  | callback (rid : ℕ) (p : Provider) (state code : String) (cookie : Option String) (now : ℤ)
  /-- The response a callback awaits. -/
  | response (rid : ℕ) (http : Http) (clock : Time)
  /-- The block that finds the user: `resolve` and `sessions.issue` of Google, or
    `_naver_oauth_user`. -/
  | user (rid : ℕ) (uid sessionId : String)
  /-- `issue_bundle`. -/
  | bundle (rid : ℕ) (fresh : String) (activeKid : Option String) (now : Time)

/-! ## One awaited response -/

/-- `verify_google_id_token` from the key on. After it the retry calls `_google_oauth_user`. -/
def verify (o : Outside) (cfg : Settings) (t : Task) (metadata : ProviderMetadata)
    (encoded : String) (jwk : Dict) (clock : Time) : Except Failure Phase :=
  match decodeIdToken o cfg.googleClientId metadata.issuer encoded jwk clock with
  | .error failure => .error failure
  | .ok claims =>
      match identityOf cfg.googleClientId t.flow.nonce claims with
      | .error failure => .error failure
      | .ok identity =>
          if t.retry then .error .uncaught
          else .ok (.resolving identity (.idToken encoded jwk clock))

/-- The `now` that `verify_google_id_token` is given. -/
def Task.now (t : Task) (clock : Time) : ℤ :=
  if t.retry then ⌊clock⌋ + 60 else t.request.presented.now

/-- What a callback makes of the response it awaits: the key cache, and its next phase or what it
    raises. -/
def respond (env : Env) (o : Outside) (cfg : Settings) (jwks : JwksCache) (t : Task) (http : Http)
    (clock : Time) : JwksCache × Except Failure Phase :=
  match t.phase with
  | .discovering =>
      match googleDiscover o http with
      | .error failure => (jwks, .error failure)
      | .ok metadata => (jwks, .ok (.exchanging metadata))
  | .exchanging metadata =>
      match googleExchangeCode env http with
      | .error failure => (jwks, .error failure)
      | .ok encoded =>
          match idTokenKid o encoded with
          | .error failure => (jwks, .error failure)
          | .ok kid =>
              match jwks.key metadata.jwksUri kid (t.now clock) with
              | some jwk => (jwks, verify o cfg t metadata encoded jwk clock)
              | none => (jwks, .ok (.fetching metadata encoded kid (t.now clock)))
  | .fetching metadata encoded kid now =>
      match (JwksCache.refresh metadata.jwksUri now http).on jwks with
      | (.error failure, jwks') => (jwks', .error failure)
      | (.ok keys, jwks') =>
          match refreshedKey keys kid with
          | .error failure => (jwks', .error failure)
          | .ok jwk => (jwks', verify o cfg t metadata encoded jwk clock)
  | .naverExchanging =>
      match naverExchangeCode o http with
      | .error failure => (jwks, .error failure)
      | .ok token => (jwks, .ok (.naverFetching token))
  | .naverFetching _ =>
      match naverIdentity o http with
      | .error failure => (jwks, .error failure)
      | .ok identity => (jwks, .ok (.provisioning identity (.profile http)))
  | phase => (jwks, .ok phase)

/-! ## Steps -/

/-- The request is answered. -/
def Server.answer (s : Server) (rid : ℕ) (answer : Answer) : Server :=
  { s with
    tasks := Function.update s.tasks rid none
    answered := (rid, answer) :: s.answered }

def Server.move (s : Server) (rid : ℕ) (t : Task) (phase : Phase) : Server :=
  { s with tasks := Function.update s.tasks rid (some { t with phase }) }

/-- The `except` clauses of a callback. -/
def Server.raise (s : Server) (rid : ℕ) (t : Task) : Failure → Server
  | .uncaught => s.answer rid .serverError
  | .coreError text =>
      if t.retry then s.answer rid .serverError
      else match t.request.provider with
        | .google => s.answer rid (.refused 500 ("OAuth callback processing failed: " ++ text))
        | _ =>
            s.answer rid (.refused 500 ("OAuth callback processing failed internally: " ++ text))
  | .valueError text =>
      if t.retry then s.answer rid .serverError
      else if t.request.provider = .google && PyText.contains "not linked" text then
        match (s.flows .google).flows.live t.request.state with
        | none => s.answer rid (.refused 401 "Invalid state token")
        | some flow =>
            { s with
              tasks := Function.update s.tasks rid
                (some { t with flow, retry := true, phase := .discovering }) }
      else s.answer rid (.refused 401 text)

/-- The authorization request a login redirects to; Google's needs the discovery document. -/
def authorizationRequest (o : Outside) (cfg : Settings) (http : Http) (flow : ExternalFlow) :
    Provider → Except Failure AuthorizationRequest
  | .google => (googleDiscover o http).map fun metadata =>
      googleAuthorizationRequest cfg metadata flow
  | .naver => .ok (naverAuthorizationRequest cfg flow)
  | .kakao => .ok (kakaoAuthorizationRequest cfg flow)

/-- What a callback awaits first; `kakao_callback` uses a name that is not bound. -/
def Provider.first : Provider → Option Phase
  | .google => some .discovering
  | .naver => some .naverExchanging
  | .kakao => none

/-- A callback up to its first await. -/
def callback (s : Server) (rid : ℕ) (p : Provider) (state code : String) (cookie : Option String)
    (now : ℤ) : Server :=
  let binding := cookie.getD ""
  if binding = "" then
    s.answer rid (.refused 400 "Security browser binding cookie is missing")
  else
    match (s.flows p).consume state ⟨rid, now, binding⟩ with
    | .error text => s.answer rid (.refused 401 text)
    | .ok (flow, store) =>
        let s := { s with flows := Function.update s.flows p store }
        match p.first with
        | none => s.answer rid .serverError
        | some phase =>
            { s with
              tasks := Function.update s.tasks rid
                (some ⟨⟨p, state, code, ⟨rid, now, binding⟩⟩, flow, false, phase⟩) }

/-- The block that finds the user. -/
def findUser (env : Env) (s : Server) (rid : ℕ) (t : Task) (uid sessionId : String) : Server :=
  match t.phase with
  | .resolving identity evidence =>
      match resolveLink s.db identity.provider identity.subject with
      | none => s.raise rid t (.valueError "external identity is not linked")
      | some userId =>
          { s with sessions := Function.update s.sessions sessionId (some userId) }.move rid t
            (.issuing identity evidence userId)
  | .provisioning identity evidence =>
      match naverOauthUser env s.db identity uid with
      | .error _ => s.raise rid t .uncaught
      | .ok (userId, db) => { s with db }.move rid t (.issuing identity evidence userId)
  | _ => s

/-- `issue_bundle` and the redirect with the tokens. -/
def handOut (env : Env) (s : Server) (rid : ℕ) (t : Task) (fresh : String)
    (activeKid : Option String) (now : Time) : Server :=
  match t.phase with
  | .issuing identity evidence userId =>
      match issueBundle env s.db userId labClient none fresh activeKid now with
      | .error .activeUserRequired => s.answer rid (.refused 401 "active user required")
      | .error _ => s.answer rid .serverError
      | .ok (bundle, db) =>
          { s with
            db
            handed := ⟨t.request, t.flow, identity, evidence, bundle⟩ :: s.handed }.answer rid
              (.bundle bundle)
  | _ => s

def step (env : Env) (o : Outside) (cfg : Settings) (s : Server) : Step → Server
  | .login p http browserBinding verifier state nonce now =>
      match (s.flows p).issue env p.redirectUri now browserBinding verifier state nonce with
      | .error _ => s
      | .ok (flow, store) =>
          match authorizationRequest o cfg http flow p with
          | .error _ => s
          | .ok request =>
              { s with
                flows := Function.update s.flows p store
                redirected := (p, request) :: s.redirected }
  | .callback rid p state code cookie now => callback s rid p state code cookie now
  | .response rid http clock =>
      match s.tasks rid with
      | none => s
      | some t =>
          match respond env o cfg s.jwks t http clock with
          | (jwks, .error failure) => { s with jwks }.raise rid t failure
          | (jwks, .ok phase) => { s with jwks }.move rid t phase
  | .user rid uid sessionId =>
      match s.tasks rid with
      | none => s
      | some t => findUser env s rid t uid sessionId
  | .bundle rid fresh activeKid now =>
      match s.tasks rid with
      | none => s
      | some t => handOut env s rid t fresh activeKid now

/-- A generated state is new to the store it is put in. -/
def FreshState (s : Server) : Step → Prop
  | .login p _ _ _ state _ _ => state ∉ (s.flows p).flows.keys
  | _ => True

instance (s : Server) (l : Step) : Decidable (FreshState s l) := by
  unfold FreshState
  split <;> infer_instance

/-! ## What a step does -/

/-- The effect of a step. -/
inductive Did (env : Env) (o : Outside) (cfg : Settings) (s : Server) : Step → Server → Prop where
  | stayed (l : Step) : Did env o cfg s l s
  /-- The request ends without a bundle; it may have refreshed the key cache. -/
  | ended (l : Step) (rid : ℕ) (jwks : JwksCache) (answer : Answer) :
      Did env o cfg s l ({ s with jwks }.answer rid answer)
  | began (p : Provider) (http : Http) (browserBinding verifier state nonce : String) (now : ℤ)
      (flow : ExternalFlow) (store : FlowStore) (request : AuthorizationRequest)
      (hissue : (s.flows p).issue env p.redirectUri now browserBinding verifier state nonce =
        .ok (flow, store)) :
      Did env o cfg s (.login p http browserBinding verifier state nonce now)
        { s with
          flows := Function.update s.flows p store
          redirected := (p, request) :: s.redirected }
  | consumed (rid : ℕ) (p : Provider) (state code binding : String) (now : ℤ)
      (flow : ExternalFlow) (store : FlowStore) (phase : Phase)
      (hconsume : (s.flows p).consume state ⟨rid, now, binding⟩ = .ok (flow, store))
      (hfirst : p.first = some phase) :
      Did env o cfg s (.callback rid p state code (some binding) now)
        { s with
          flows := Function.update s.flows p store
          tasks := Function.update s.tasks rid
            (some ⟨⟨p, state, code, ⟨rid, now, binding⟩⟩, flow, false, phase⟩) }
  /-- The consume of a callback that raises after it. -/
  | dropped (rid : ℕ) (p : Provider) (state code binding : String) (now : ℤ)
      (flow : ExternalFlow) (store : FlowStore)
      (hconsume : (s.flows p).consume state ⟨rid, now, binding⟩ = .ok (flow, store)) :
      Did env o cfg s (.callback rid p state code (some binding) now)
        ({ s with flows := Function.update s.flows p store }.answer rid .serverError)
  | moved (rid : ℕ) (http : Http) (clock : Time) (t : Task) (jwks : JwksCache) (phase : Phase)
      (htask : s.tasks rid = some t)
      (hrespond : respond env o cfg s.jwks t http clock = (jwks, .ok phase)) :
      Did env o cfg s (.response rid http clock) ({ s with jwks }.move rid t phase)
  | retried (l : Step) (rid : ℕ) (jwks : JwksCache) (t : Task) (flow : ExternalFlow)
      (htask : s.tasks rid = some t) (hgoogle : t.request.provider = .google) :
      Did env o cfg s l
        { s with
          jwks
          tasks := Function.update s.tasks rid
            (some { t with flow, retry := true, phase := .discovering }) }
  | resolved (rid : ℕ) (uid sessionId : String) (t : Task) (identity : ExternalIdentity)
      (evidence : Evidence) (userId : String) (htask : s.tasks rid = some t)
      (hphase : t.phase = .resolving identity evidence)
      (hlink : resolveLink s.db identity.provider identity.subject = some userId) :
      Did env o cfg s (.user rid uid sessionId)
        ({ s with sessions := Function.update s.sessions sessionId (some userId) }.move rid t
          (.issuing identity evidence userId))
  | provisioned (rid : ℕ) (uid sessionId : String) (t : Task) (identity : ExternalIdentity)
      (evidence : Evidence) (userId : String) (db : Db) (htask : s.tasks rid = some t)
      (hphase : t.phase = .provisioning identity evidence)
      (huser : naverOauthUser env s.db identity uid = .ok (userId, db)) :
      Did env o cfg s (.user rid uid sessionId)
        ({ s with db }.move rid t (.issuing identity evidence userId))
  | handed (rid : ℕ) (fresh : String) (activeKid : Option String) (now : Time) (t : Task)
      (identity : ExternalIdentity) (evidence : Evidence) (userId : String) (bundle : TokenBundle)
      (db : Db) (htask : s.tasks rid = some t)
      (hphase : t.phase = .issuing identity evidence userId)
      (hissue : issueBundle env s.db userId labClient none fresh activeKid now = .ok (bundle, db)) :
      Did env o cfg s (.bundle rid fresh activeKid now)
        ({ s with
          db
          handed := ⟨t.request, t.flow, identity, evidence, bundle⟩ :: s.handed }.answer rid
            (.bundle bundle))

variable {env : Env} {o : Outside} {cfg : Settings} {s : Server}

/-! ## What a response does -/

/-- A token passes for the identity it names, and not in a retry. -/
theorem verify_eq_ok {t : Task} {metadata : ProviderMetadata} {encoded : String} {jwk : Dict}
    {clock : Time} {phase : Phase} (h : verify o cfg t metadata encoded jwk clock = .ok phase) :
    ∃ claims identity,
      decodeIdToken o cfg.googleClientId metadata.issuer encoded jwk clock = .ok claims ∧
        identityOf cfg.googleClientId t.flow.nonce claims = .ok identity ∧ t.retry = false ∧
          phase = .resolving identity (.idToken encoded jwk clock) := by
  unfold verify at h
  split at h
  · cases h
  · next claims hclaims =>
      split at h
      · cases h
      · next identity hidentity =>
          split at h
          · cases h
          · next hretry =>
              cases h
              exact ⟨claims, identity, hclaims, hidentity, Bool.eq_false_iff.mpr hretry, rfl⟩

/-- A response that a callback goes on from. -/
inductive Responded (o : Outside) (cfg : Settings) (t : Task) (http : Http) (clock : Time) :
    Phase → Prop where
  | discovered (metadata : ProviderMetadata) (hphase : t.phase = .discovering)
      (hdiscover : googleDiscover o http = .ok metadata) :
      Responded o cfg t http clock (.exchanging metadata)
  | missed (metadata : ProviderMetadata) (encoded kid : String)
      (hphase : t.phase = .exchanging metadata) :
      Responded o cfg t http clock (.fetching metadata encoded kid (t.now clock))
  | verified (metadata : ProviderMetadata) (encoded : String) (jwk : Dict) (phase : Phase)
      (hphase : t.phase = .exchanging metadata ∨
        ∃ encoded kid now, t.phase = .fetching metadata encoded kid now)
      (hverify : verify o cfg t metadata encoded jwk clock = .ok phase) :
      Responded o cfg t http clock phase
  | exchanged (token : String) (hphase : t.phase = .naverExchanging) :
      Responded o cfg t http clock (.naverFetching token)
  | fetched (token : String) (identity : ExternalIdentity) (hphase : t.phase = .naverFetching token)
      (hidentity : naverIdentity o http = .ok identity) :
      Responded o cfg t http clock (.provisioning identity (.profile http))
  /-- Nothing is awaited. -/
  | idle (hdiscovering : t.phase ≠ .discovering) : Responded o cfg t http clock t.phase

theorem respond_cases {t : Task} {jwks jwks' : JwksCache} {http : Http} {clock : Time}
    {phase : Phase} (h : respond env o cfg jwks t http clock = (jwks', .ok phase)) :
    Responded o cfg t http clock phase := by
  unfold respond at h
  split at h
  · next hphase =>
      split at h
      · cases h
      · next metadata hdiscover =>
          cases h
          exact .discovered metadata hphase hdiscover
  · next metadata hphase =>
      split at h
      · cases h
      · next encoded hexchange =>
          split at h
          · cases h
          · next kid hkid =>
              split at h
              · next jwk hjwk =>
                  obtain ⟨-, hverify⟩ := Prod.mk.inj h
                  exact .verified metadata encoded jwk phase (Or.inl hphase) hverify
              · cases h
                exact .missed metadata encoded kid hphase
  · next metadata encoded kid now hphase =>
      split at h
      · cases h
      · split at h
        · cases h
        · next jwk hjwk =>
            obtain ⟨-, hverify⟩ := Prod.mk.inj h
            exact .verified metadata encoded jwk phase (Or.inr ⟨encoded, kid, now, hphase⟩) hverify
  · next hphase =>
      split at h
      · cases h
      · next token htoken =>
          cases h
          exact .exchanged token hphase
  · next token hphase =>
      split at h
      · cases h
      · next identity hidentity =>
          cases h
          exact .fetched token identity hphase hidentity
  · next hdiscovering _ _ _ _ =>
      cases h
      exact .idle hdiscovering

/-! ## What a failure does -/

/-- Whatever a callback raises, it ends without a bundle or starts over as a retry. -/
theorem raise_did (l : Step) {rid : ℕ} {t : Task} (jwks : JwksCache)
    (htask : s.tasks rid = some t) (failure : Failure) :
    Did env o cfg s l ({ s with jwks }.raise rid t failure) := by
  cases failure with
  | uncaught => exact .ended l rid jwks _
  | coreError text =>
      simp only [Server.raise]
      split
      · exact .ended l rid jwks _
      · split <;> exact .ended l rid jwks _
  | valueError text =>
      simp only [Server.raise]
      split
      · exact .ended l rid jwks _
      · split
        · next hlinked =>
            rw [Bool.and_eq_true, decide_eq_true_eq] at hlinked
            split
            · exact .ended l rid jwks _
            · next flow hflow => exact .retried l rid jwks t flow htask hlinked.1
        · exact .ended l rid jwks _

/-- A callback whose state is not live again is answered, without a bundle, whatever it raises. -/
theorem raise_answers {rid : ℕ} {t : Task} (s : Server)
    (hlive : t.request.provider = .google → t.retry = false →
      (s.flows .google).flows.live t.request.state = none) (failure : Failure) :
    ∃ answer, (∀ bundle, answer ≠ .bundle bundle) ∧
      s.raise rid t failure = s.answer rid answer := by
  cases failure with
  | uncaught => exact ⟨_, by simp, rfl⟩
  | coreError text =>
      simp only [Server.raise]
      split
      · exact ⟨_, by simp, rfl⟩
      · split <;> exact ⟨_, by simp, rfl⟩
  | valueError text =>
      simp only [Server.raise]
      split
      · exact ⟨_, by simp, rfl⟩
      · next hretry =>
          split
          · next hlinked =>
              rw [Bool.and_eq_true, decide_eq_true_eq] at hlinked
              rw [hlive hlinked.1 (Bool.eq_false_iff.mpr hretry)]
              exact ⟨_, by simp, rfl⟩
          · exact ⟨_, by simp, rfl⟩

theorem callback_did (rid : ℕ) (p : Provider) (state code : String) (cookie : Option String)
    (now : ℤ) :
    Did env o cfg s (.callback rid p state code cookie now)
      (callback s rid p state code cookie now) := by
  unfold callback
  cases cookie with
  | none => exact .ended _ rid s.jwks _
  | some binding =>
      simp only [Option.getD_some]
      split
      · exact .ended _ rid s.jwks _
      · split
        · exact .ended _ rid s.jwks _
        · next flow store hconsume =>
            split
            · exact .dropped rid p state code binding now flow store hconsume
            · next phase hfirst =>
                exact .consumed rid p state code binding now flow store phase hconsume hfirst

theorem findUser_did {rid : ℕ} {t : Task} (htask : s.tasks rid = some t)
    (uid sessionId : String) :
    Did env o cfg s (.user rid uid sessionId) (findUser env s rid t uid sessionId) := by
  unfold findUser
  split
  · next identity evidence hphase =>
      split
      · exact raise_did _ s.jwks htask _
      · next userId hlink =>
          exact .resolved rid uid sessionId t identity evidence userId htask hphase hlink
  · next identity evidence hphase =>
      split
      · exact raise_did _ s.jwks htask _
      · next userId db huser =>
          exact .provisioned rid uid sessionId t identity evidence userId db htask hphase huser
  · exact .stayed _

theorem handOut_did {rid : ℕ} {t : Task} (htask : s.tasks rid = some t) (fresh : String)
    (activeKid : Option String) (now : Time) :
    Did env o cfg s (.bundle rid fresh activeKid now)
      (handOut env s rid t fresh activeKid now) := by
  unfold handOut
  split
  · next identity evidence userId hphase =>
      split
      · exact .ended _ rid s.jwks _
      · exact .ended _ rid s.jwks _
      · next bundle db hissue =>
          exact .handed rid fresh activeKid now t identity evidence userId bundle db htask hphase
            hissue
  · exact .stayed _

theorem step_did (env : Env) (o : Outside) (cfg : Settings) (s : Server) (l : Step) :
    Did env o cfg s l (step env o cfg s l) := by
  cases l with
  | login p http browserBinding verifier state nonce now =>
      simp only [step]
      split
      · exact .stayed _
      · next flow store hissue =>
          split
          · exact .stayed _
          · next request hrequest =>
              exact .began p http browserBinding verifier state nonce now flow store request hissue
  | callback rid p state code cookie now => exact callback_did rid p state code cookie now
  | response rid http clock =>
      simp only [step]
      split
      · exact .stayed _
      · next t htask =>
          split
          · next jwks failure hrespond => exact raise_did _ jwks htask failure
          · next jwks phase hrespond => exact .moved rid http clock t jwks phase htask hrespond
  | user rid uid sessionId =>
      simp only [step]
      split
      · exact .stayed _
      · next t htask => exact findUser_did htask uid sessionId
  | bundle rid fresh activeKid now =>
      simp only [step]
      split
      · exact .stayed _
      · next t htask => exact handOut_did htask fresh activeKid now

end TemisLab.External
