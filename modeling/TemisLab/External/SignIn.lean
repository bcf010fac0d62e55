/-
  Sign-in with Google. The callbacks of `External.Callbacks` and the other requests of the SSO run
  over the same tables, in any order, also while a callback awaits its provider.

  * `first_login_refused`: a valid callback need not complete. For an identity without a link the
    retry of `google_callback` looks up the flow that the consume removed, and answers 401.
  * `completes_iff_linked`: a valid callback ends with a bundle for the linked active user exactly
    if it finds a link, to a user who is active when the bundle is issued (and there is a signing
    key and the refresh token is new). Every later bundle for the identity is for the same user.
-/
import TemisLab.External.Logins
import TemisLab.Sso.Provisioning

namespace TemisLab.External.SignIn

open TemisLab.Lib TemisLab.Sso TemisLab.Sso.Provisioning

/-! ## The whole SSO -/

/-- The callbacks, and the other requests over their tables (`server.db`). -/
structure System where
  server : Server
  sys : Sys

def System.start (db : Db) : System := ⟨.start db, .start db⟩

/-- The providers whose links a request revokes. -/
def portalName : Portal → String
  | .naver => "naver"
  | .kakao => "kakao"

inductive Move where
  | external (l : Step)
  | request (l : Tx) (h : revokes l = false)
  | revoke (p : Portal) (userId : String) (accepted : Bool)

def System.request (env : Env) (w : System) (l : Tx) : System :=
  let sys := Sso.step env { w.sys with db := w.server.db } l
  ⟨{ w.server with db := sys.db }, sys⟩

def step (env : Env) (o : Outside) (cfg : Settings) (w : System) : Move → System
  | .external l => { w with server := External.step env o cfg w.server l }
  | .request l _ => w.request env l
  | .revoke p userId accepted => w.request env (.revokeLink (portalName p) userId accepted)

/-- The callback that a step is of. -/
def Step.rid : Step → Option ℕ
  | .login _ _ _ _ _ _ _ => none
  | .callback rid _ _ _ _ _ => some rid
  | .response rid _ _ => some rid
  | .user rid _ _ => some rid
  | .bundle rid _ _ _ => some rid

def Move.own (rid : ℕ) : Move → Option Step
  | .external l => if Step.rid l = some rid then some l else none
  | _ => none

/-! ## A callback -/

/-- The arguments of a `google_callback`, and what it is answered while it runs. -/
structure Visit where
  rid : ℕ
  state : String
  code : String
  now : ℤ
  discovery : Http
  discoveryClock : Time
  token : Http
  tokenClock : Time
  keys : Http
  keysClock : Time
  sessionId : String
  fresh : String
  activeKid : Option String
  issuedAt : Time

namespace Visit

/-- The call, with the cookie of the flow's browser. -/
def call (v : Visit) (flow : ExternalFlow) : Move :=
  .external (.callback v.rid .google v.state v.code (some flow.browserBinding) v.now)

def responses (v : Visit) : List Step :=
  [.response v.rid v.discovery v.discoveryClock, .response v.rid v.token v.tokenClock,
    .response v.rid v.keys v.keysClock]

/-- `resolve` and what follows up to the end of the block. -/
def resolve (v : Visit) : Move := .external (.user v.rid "" v.sessionId)

/-- `issue_bundle`. -/
def issue (v : Visit) : Move := .external (.bundle v.rid v.fresh v.activeKid v.issuedAt)

def request (v : Visit) (flow : ExternalFlow) : Request :=
  ⟨.google, v.state, v.code, ⟨v.rid, v.now, flow.browserBinding⟩⟩

end Visit

/-- What the provider answers: a discovery document, an ID token, and the key set with its key. -/
structure Answered (env : Env) (o : Outside) (cfg : Settings) (v : Visit) (flow : ExternalFlow)
    (metadata : ProviderMetadata) (encoded kid : String) (claims : Dict)
    (identity : ExternalIdentity) : Prop where
  discovery : googleDiscover o v.discovery = .ok metadata
  token : googleExchangeCode env v.token = .ok encoded
  header : idTokenKid o encoded = .ok kid
  keys : ∃ keys ttl jwk, keysOf v.keys = .ok keys ∧ lifetime v.keys = .ok ttl ∧
    refreshedKey keys kid = .ok jwk ∧
    decodeIdToken o cfg.googleClientId metadata.issuer encoded jwk v.keysClock = .ok claims
  identity : identityOf cfg.googleClientId flow.nonce claims = .ok identity

/-- A key of the cache that the callback may find verifies the ID token. -/
def CacheGenuine (o : Outside) (cfg : Settings) (v : Visit) (metadata : ProviderMetadata)
    (encoded kid : String) (claims : Dict) (w : System) : Prop :=
  ∀ jwk, w.server.jwks.key metadata.jwksUri kid v.now = some jwk →
    decodeIdToken o cfg.googleClientId metadata.issuer encoded jwk v.tokenClock = .ok claims

/-- A flow that a login issued is presented for the first time, in time and by its own browser, and
    the provider answers with an ID token for it. `during` is what runs up to the last response. -/
structure Valid (env : Env) (o : Outside) (cfg : Settings) (w : System) (v : Visit)
    (flow : ExternalFlow) (during : List Move) (identity : ExternalIdentity) : Prop where
  live : (w.server.flows .google).flows.live v.state = some flow
  inTime : v.now - flow.createdAt ≤ flowTtl
  own : during.filterMap (Move.own v.rid) = v.responses
  answered : ∃ metadata encoded kid claims,
    Answered env o cfg v flow metadata encoded kid claims identity ∧
      Along (step env o cfg) (fun w _ => CacheGenuine o cfg v metadata encoded kid claims w)
        (step env o cfg w (v.call flow)) during

/-- The callback, whose bundle is next in `w`, ends with one for the active user linked to the
    identity, and every later one for the identity is for the same user. -/
structure Completes (env : Env) (o : Outside) (cfg : Settings) (w : System) (v : Visit)
    (flow : ExternalFlow) (identity : ExternalIdentity) (userId : String) : Prop where
  handed : ∃ evidence bundle, bundle.accessToken.claims.sub = userId ∧
    (step env o cfg w v.issue).server.handed =
      ⟨v.request flow, flow, identity, evidence, bundle⟩ :: w.server.handed ∧
    (step env o cfg w v.issue).server.answered = (v.rid, .bundle bundle) :: w.server.answered
  active : (step env o cfg w v.issue).server.db.isActive userId = true
  linked : resolveLink (step env o cfg w v.issue).server.db "google" identity.subject = some userId
  later : ∀ ms, ∀ h ∈ (run (step env o cfg) (step env o cfg w v.issue) ms).server.handed,
    h.identity.provider = "google" → h.identity.subject = identity.subject → h.user = userId

/-- There is a signing key, and the refresh token is new. -/
def Ready (env : Env) (v : Visit) (w : System) : Prop :=
  v.activeKid ≠ none ∧ w.server.db.refreshGrants.get (tokenDigest env v.fresh) = none

/-- The callback finds the identity linked, to a user who is active when the bundle is issued. -/
def LinkedActive (w w' : System) (identity : ExternalIdentity) (userId : String) : Prop :=
  resolveLink w.server.db "google" identity.subject = some userId ∧
    w'.server.db.isActive userId = true

section Course

variable (env : Env) (o : Outside) (cfg : Settings)

/-- After the call and what runs up to the last response. -/
def found (w : System) (v : Visit) (flow : ExternalFlow) (during : List Move) : System :=
  run (step env o cfg) (step env o cfg w (v.call flow)) during

/-- After the lookup of the link too, and what runs up to the bundle. -/
def beforeBundle (w : System) (v : Visit) (flow : ExternalFlow) (during after : List Move) :
    System :=
  run (step env o cfg) (step env o cfg (found env o cfg w v flow during) v.resolve) after

end Course

/-! ## A first login -/

/-- Google's login of `twoLogins`, on empty tables. -/
def firstLogin : List Move :=
  [.external (.login .google discoveryDocument "browser-binding-456" "verifier-2" "state-2"
    "nonce-2" 100)]

def firstFlow : ExternalFlow :=
  ⟨"state-2", "nonce-2", "verifier-2", OAuth.pkceChallenge plainEnv "verifier-2",
    Provider.google.redirectUri, 100, "browser-binding-456"⟩

def firstVisit : Visit where
  rid := 2
  state := "state-2"
  code := "code-2"
  now := 160
  discovery := discoveryDocument
  discoveryClock := 160
  token := External.answered [("id_token", .str "id-token")]
  tokenClock := 161
  keys := External.answered [("keys", .list [.dict [("kid", .str "key-1")]])]
  keysClock := 162
  sessionId := "session-2"
  fresh := "refresh-2"
  activeKid := some "kid"
  issuedAt := 162

def firstResponses : List Move := firstVisit.responses.map .external

def firstIdentity : ExternalIdentity :=
  ⟨"google", "google-subject", some "learner@mail.test", false⟩

/-- The token claims of the lab's provider. -/
def firstClaims : Dict :=
  [("iss", .str expectedIssuer), ("aud", .str "google-client"), ("sub", .str "google-subject"),
    ("nonce", .str "nonce-2"), ("email", .str "learner@mail.test")]

theorem firstVisit_valid (db : Db) :
    Valid plainEnv labOutside labSettings
      (run (step plainEnv labOutside labSettings) (.start db) firstLogin) firstVisit firstFlow
      firstResponses firstIdentity := by
  refine ⟨by rfl, by decide, by rfl, ?_⟩
  refine ⟨⟨expectedIssuer, "https://g/auth", "https://g/token", "https://g/info",
    "https://g/revoke", "https://g/jwks"⟩, "id-token", "key-1", firstClaims, ?_, ?_⟩
  · refine ⟨by rfl, by rfl, by rfl, ⟨_, _, _, rfl, rfl, rfl, rfl⟩, by rfl⟩
  · exact (along_iff _ _ _).mpr fun pre l post _ jwk _ => rfl

/-- The identity's first login ends with 401. -/
theorem first_login_refused : ¬ ∀ env o cfg db ls v flow identity during after,
    let w := run (step env o cfg) (.start db) ls
    let w₁ := found env o cfg w v flow during
    let w₂ := beforeBundle env o cfg w v flow during after
    Valid env o cfg w v flow during identity → after.filterMap (Move.own v.rid) = [] →
      Ready env v w₂ →
      (∀ userId, resolveLink w₁.server.db "google" identity.subject = some userId →
        w₂.server.db.isActive userId = true) →
      ∃ userId, Completes env o cfg w₂ v flow identity userId := by
  intro h
  obtain ⟨userId, hcompletes⟩ := h plainEnv labOutside labSettings .empty firstLogin firstVisit
    firstFlow firstIdentity firstResponses [] (firstVisit_valid .empty) rfl
    ⟨by decide, by decide +kernel⟩ (by
      intro userId hlink
      have hnone : resolveLink (found plainEnv labOutside labSettings
          (run (step plainEnv labOutside labSettings) (.start .empty) firstLogin) firstVisit
          firstFlow firstResponses).server.db "google" firstIdentity.subject = none := by
        decide +kernel
      rw [hnone] at hlink
      cases hlink)
  obtain ⟨evidence, bundle, -, -, hanswered⟩ := hcompletes.handed
  have hrefused : (step plainEnv labOutside labSettings
      (beforeBundle plainEnv labOutside labSettings
        (run (step plainEnv labOutside labSettings) (.start .empty) firstLogin) firstVisit firstFlow
        firstResponses []) firstVisit.issue).server.answered =
      [(2, .refused 401 "Invalid state token")] := by decide +kernel
  rw [hrefused] at hanswered
  cases hanswered

/-! ## The steps of others -/

variable {env : Env} {o : Outside} {cfg : Settings} {s : Server} {w : System}

theorem tasks_answer {rid rid' : ℕ} (answer : Answer) (h : rid' ≠ rid) :
    (s.answer rid' answer).tasks rid = s.tasks rid := Function.update_of_ne h.symm _ _

theorem tasks_move {rid rid' : ℕ} (t : Task) (phase : Phase) (h : rid' ≠ rid) :
    (s.move rid' t phase).tasks rid = s.tasks rid := Function.update_of_ne h.symm _ _

theorem tasks_raise {rid rid' : ℕ} (t : Task) (failure : Failure) (h : rid' ≠ rid) :
    (s.raise rid' t failure).tasks rid = s.tasks rid := by
  cases failure with
  | uncaught => exact tasks_answer _ h
  | coreError text =>
      simp only [Server.raise]
      split
      · exact tasks_answer _ h
      · split <;> exact tasks_answer _ h
  | valueError text =>
      simp only [Server.raise]
      split
      · exact tasks_answer _ h
      · split
        · split
          · exact tasks_answer _ h
          · exact Function.update_of_ne h.symm _ _
        · exact tasks_answer _ h

/-- A step of another callback, or of none. -/
theorem tasks_other {rid : ℕ} {l : Step} (h : Step.rid l ≠ some rid) :
    (External.step env o cfg s l).tasks rid = s.tasks rid := by
  have hne : ∀ {rid'}, Step.rid l = some rid' → rid' ≠ rid := by
    rintro rid' hl rfl
    exact h hl
  cases l with
  | login p http browserBinding verifier state nonce now =>
      simp only [External.step]
      split
      · rfl
      · split <;> rfl
  | callback rid' p state code cookie now =>
      have hrid := hne rfl
      simp only [External.step, callback]
      split
      · exact tasks_answer _ hrid
      · split
        · exact tasks_answer _ hrid
        · split
          · exact tasks_answer _ hrid
          · exact Function.update_of_ne hrid.symm _ _
  | response rid' http clock =>
      have hrid := hne rfl
      simp only [External.step]
      split
      · rfl
      · split
        · exact tasks_raise _ _ hrid
        · exact tasks_move _ _ hrid
  | user rid' uid sessionId =>
      have hrid := hne rfl
      simp only [External.step]
      split
      · rfl
      · unfold findUser
        split
        · split
          · exact tasks_raise _ _ hrid
          · exact tasks_move _ _ hrid
        · split
          · exact tasks_raise _ _ hrid
          · exact tasks_move _ _ hrid
        · rfl
  | bundle rid' fresh activeKid now =>
      have hrid := hne rfl
      simp only [External.step]
      split
      · rfl
      · unfold handOut
        split
        · split <;> exact tasks_answer _ hrid
        · rfl

/-- What is not a step of the callback leaves it where it is. -/
theorem tasks_own_none {rid : ℕ} {m : Move} (h : Move.own rid m = none) :
    (step env o cfg w m).server.tasks rid = w.server.tasks rid := by
  cases m with
  | external l =>
      refine tasks_other ?_
      intro hl
      unfold Move.own at h
      dsimp only at h
      rw [if_pos hl] at h
      cases h
  | request l hl => rfl
  | revoke p userId accepted => rfl

theorem own_eq_some {rid : ℕ} {m : Move} {l : Step} (h : Move.own rid m = some l) :
    m = .external l := by
  unfold Move.own at h
  split at h
  · split at h
    · cases h
      rfl
    · cases h
  · cases h

/-- The callback is where it was after moves of others. -/
theorem tasks_run {rid : ℕ} {ms : List Move} (h : ms.filterMap (Move.own rid) = []) :
    (run (step env o cfg) w ms).server.tasks rid = w.server.tasks rid := by
  induction ms generalizing w with
  | nil => rfl
  | cons m ms ih =>
      have hm := List.filterMap_eq_nil_iff.mp h m List.mem_cons_self
      rw [List.filterMap_cons_none hm] at h
      exact (ih h).trans (tasks_own_none hm)

/-! ## Up to the last response -/

/-- The stores hold flows whose consume checks the format of the binding in vain. -/
def Formatted (s : Server) : Prop :=
  ∀ p, (s.flows p).ttlSeconds = flowTtl ∧ ∀ state flow, (s.flows p).flows.live state = some flow →
    bindingFormat flow.browserBinding = true

theorem formatted_update {s' : Server} {p : Provider} {store : FlowStore} (h : Formatted s)
    (hflows : s'.flows = Function.update s.flows p store) (httl : store.ttlSeconds = flowTtl)
    (hlive : ∀ state flow, store.flows.live state = some flow →
      bindingFormat flow.browserBinding = true) : Formatted s' := by
  intro q
  rw [hflows]
  by_cases hq : q = p
  · rw [hq, Function.update_self]
    exact ⟨httl, hlive⟩
  · rw [Function.update_of_ne hq]
    exact h q

theorem formatted_consume {s' : Server} {p : Provider} {state : String} {presented : Presented}
    {flow : ExternalFlow} {store : FlowStore} (h : Formatted s)
    (hconsume : (s.flows p).consume state presented = .ok (flow, store))
    (hflows : s'.flows = Function.update s.flows p store) : Formatted s' := by
  obtain ⟨-, -, rfl⟩ := FlowStore.consume_eq_ok hconsume
  refine formatted_update h hflows (h p).1 ?_
  intro state' flow' hlive
  exact (h p).2 state' flow' (slot_clear hlive).2

theorem formatted_step (s : Server) (l : Step) (h : Formatted s) :
    Formatted (External.step env o cfg s l) := by
  have hd := step_did env o cfg s l
  generalize External.step env o cfg s l = s' at hd ⊢
  cases hd with
  | began p http browserBinding verifier state nonce now flow store request hissue =>
      have hformat : bindingFormat browserBinding = true := by
        unfold FlowStore.issue at hissue
        split at hissue
        · next hformat => exact hformat
        · cases hissue
      obtain ⟨-, -, -, hbinding, rfl⟩ := FlowStore.issue_eq_ok hissue
      refine formatted_update h rfl (h p).1 ?_
      intro state' flow' hlive
      rcases slot_set hlive with ⟨-, hlive⟩ | ⟨-, rfl⟩
      · exact (h p).2 state' flow' hlive
      · rw [hbinding]
        exact hformat
  | consumed rid p state code binding now flow store phase hconsume hfirst =>
      exact formatted_consume h hconsume rfl
  | dropped rid p state code binding now flow store hconsume =>
      exact formatted_consume h hconsume rfl
  | _ => exact h

theorem formatted_run (db : Db) (ms : List Move) :
    Formatted (run (step env o cfg) (.start db) ms).server := by
  refine run_always (step env o cfg) (fun w => Formatted w.server) ?_ ?_ ms
  · intro w m h
    cases m with
    | external l => exact formatted_step w.server l h
    | request l hl => exact h
    | revoke p userId accepted => exact h
  · intro p
    exact ⟨rfl, fun state flow hlive => by cases hlive⟩

/-- The task of the callback in a phase. -/
def Visit.task (v : Visit) (flow : ExternalFlow) (phase : Phase) : Task :=
  ⟨v.request flow, flow, false, phase⟩

/-- The consume of a valid callback returns its flow. -/
theorem tasks_call (env : Env) (o : Outside) (cfg : Settings) {v : Visit} {flow : ExternalFlow}
    (hformatted : Formatted w.server)
    (hlive : (w.server.flows .google).flows.live v.state = some flow)
    (htime : v.now - flow.createdAt ≤ flowTtl) :
    (step env o cfg w (v.call flow)).server.tasks v.rid = some (v.task flow .discovering) := by
  obtain ⟨httl, hformat⟩ := hformatted .google
  have hbinding := hformat v.state flow hlive
  have hnonempty : flow.browserBinding ≠ "" := by
    intro he
    rw [he] at hbinding
    revert hbinding
    decide
  have hconsume : ∃ store, (w.server.flows .google).consume v.state
      ⟨v.rid, v.now, flow.browserBinding⟩ = .ok (flow, store) := by
    unfold FlowStore.consume
    rw [if_pos hbinding, hlive]
    dsimp only
    rw [httl, if_neg (not_lt.mpr htime), if_neg (not_not.mpr rfl)]
    exact ⟨_, rfl⟩
  obtain ⟨store, hconsume⟩ := hconsume
  show (callback w.server v.rid .google v.state v.code (some flow.browserBinding) v.now).tasks
    v.rid = _
  unfold callback
  simp only [Option.getD_some, if_neg hnonempty, hconsume]
  exact Function.update_self ..

theorem tasks_response {rid : ℕ} {http : Http} {clock : Time} {t : Task} {jwks : JwksCache}
    {phase : Phase} (htask : w.server.tasks rid = some t)
    (hrespond : respond env o cfg w.server.jwks t http clock = (jwks, .ok phase)) :
    (step env o cfg w (.external (.response rid http clock))).server.tasks rid =
      some { t with phase } := by
  show (External.step env o cfg w.server (.response rid http clock)).tasks rid = _
  simp only [External.step, htask, hrespond]
  exact Function.update_self ..

/-- Where a valid callback is, with the responses it has still to get. A key of the cache makes the
    last one idle. -/
inductive Awaits (v : Visit) (metadata : ProviderMetadata) (encoded kid : String)
    (identity : ExternalIdentity) : Phase → List Step → Prop where
  | discovering : Awaits v metadata encoded kid identity .discovering v.responses
  | exchanging : Awaits v metadata encoded kid identity (.exchanging metadata)
      [.response v.rid v.token v.tokenClock, .response v.rid v.keys v.keysClock]
  | fetching : Awaits v metadata encoded kid identity (.fetching metadata encoded kid v.now)
      [.response v.rid v.keys v.keysClock]
  | cached (evidence : Evidence) : Awaits v metadata encoded kid identity
      (.resolving identity evidence) [.response v.rid v.keys v.keysClock]
  | resolving (evidence : Evidence) : Awaits v metadata encoded kid identity
      (.resolving identity evidence) []

/-- The callback waits with `todo` still to come. -/
def Waits (v : Visit) (flow : ExternalFlow) (metadata : ProviderMetadata) (encoded kid : String)
    (identity : ExternalIdentity) (todo : List Step) (w : System) : Prop :=
  ∃ phase, w.server.tasks v.rid = some (v.task flow phase) ∧
    Awaits v metadata encoded kid identity phase todo

theorem verify_task (v : Visit) (phase : Phase) {flow : ExternalFlow} {metadata : ProviderMetadata}
    {encoded : String} {claims : Dict} {identity : ExternalIdentity} {jwk : Dict} {clock : Time}
    (hdecode : decodeIdToken o cfg.googleClientId metadata.issuer encoded jwk clock = .ok claims)
    (hidentity : identityOf cfg.googleClientId flow.nonce claims = .ok identity) :
    verify o cfg (v.task flow phase) metadata encoded jwk clock =
      .ok (.resolving identity (.idToken encoded jwk clock)) := by
  unfold verify
  rw [hdecode]
  dsimp only [Visit.task]
  rw [hidentity]
  rfl

/-- A response takes the callback one further. -/
theorem awaits_response {v : Visit} {flow : ExternalFlow} {metadata : ProviderMetadata}
    {encoded kid : String} {claims : Dict} {identity : ExternalIdentity} {jwks : JwksCache}
    (ha : Answered env o cfg v flow metadata encoded kid claims identity)
    (hcache : ∀ jwk, jwks.key metadata.jwksUri kid v.now = some jwk →
      decodeIdToken o cfg.googleClientId metadata.issuer encoded jwk v.tokenClock = .ok claims)
    {phase : Phase} {rid : ℕ} {http : Http} {clock : Time} {todo : List Step}
    (h : Awaits v metadata encoded kid identity phase (.response rid http clock :: todo)) :
    ∃ jwks' phase', respond env o cfg jwks (v.task flow phase) http clock = (jwks', .ok phase') ∧
      Awaits v metadata encoded kid identity phase' todo := by
  cases h with
  | discovering =>
      refine ⟨jwks, .exchanging metadata, ?_, .exchanging⟩
      simp only [respond, Visit.task, ha.discovery]
  | exchanging =>
      cases hkey : jwks.key metadata.jwksUri kid v.now with
      | none =>
          refine ⟨jwks, .fetching metadata encoded kid v.now, ?_, .fetching⟩
          have hnow : (v.task flow (.exchanging metadata)).now v.tokenClock = v.now := rfl
          simp only [respond, Visit.task, ha.token, ha.header] at hnow ⊢
          rw [hnow, hkey]
      | some jwk =>
          refine ⟨jwks, _, ?_, .cached (.idToken encoded jwk v.tokenClock)⟩
          have hnow : (v.task flow (.exchanging metadata)).now v.tokenClock = v.now := rfl
          have hverify := verify_task v (.exchanging metadata) (hcache jwk hkey) ha.identity
          simp only [respond, Visit.task, ha.token, ha.header] at hnow hverify ⊢
          rw [hnow, hkey]
          dsimp only
          rw [hverify]
  | fetching =>
      obtain ⟨keys, ttl, jwk, hkeys, hlife, hkey, hdecode⟩ := ha.keys
      refine ⟨Function.update jwks metadata.jwksUri (some (v.now + ttl, keys)), _, ?_,
        .resolving (.idToken encoded jwk v.keysClock)⟩
      have hverify :=
        verify_task v (.fetching metadata encoded kid v.now) hdecode ha.identity
      simp only [respond, Visit.task, JwksCache.on_refresh, hkeys, hlife, hkey] at hverify ⊢
      rw [hverify]
  | cached evidence => exact ⟨jwks, .resolving identity evidence, rfl, .resolving evidence⟩

/-- After its responses the callback looks for the link of the identity. -/
theorem resolving_of_valid {v : Visit} {flow : ExternalFlow} {during : List Move}
    {identity : ExternalIdentity} (hformatted : Formatted w.server)
    (h : Valid env o cfg w v flow during identity) :
    ∃ evidence, (found env o cfg w v flow during).server.tasks v.rid =
      some (v.task flow (.resolving identity evidence)) := by
  obtain ⟨metadata, encoded, kid, claims, ha, hcache⟩ := h.answered
  have hstart := tasks_call env o cfg hformatted h.live h.inTime
  have hend : Waits v flow metadata encoded kid identity [] (found env o cfg w v flow during) := by
    refine run_script (step env o cfg) (Move.own v.rid)
      (Waits v flow metadata encoded kid identity) ?_ ?_ hcache ?_
    · rintro w m todo - hown ⟨phase, htask, hawaits⟩
      exact ⟨phase, (tasks_own_none hown).trans htask, hawaits⟩
    · rintro w m l todo hgenuine hown ⟨phase, htask, hawaits⟩
      rw [own_eq_some hown]
      have hresponse : ∃ rid http clock, l = .response rid http clock ∧ rid = v.rid := by
        cases hawaits <;> exact ⟨_, _, _, rfl, rfl⟩
      obtain ⟨rid, http, clock, rfl, rfl⟩ := hresponse
      obtain ⟨jwks', phase', hrespond, hawaits'⟩ := awaits_response ha hgenuine hawaits
      exact ⟨phase', tasks_response htask hrespond, hawaits'⟩
    · rw [h.own]
      exact ⟨.discovering, hstart, .discovering⟩
  obtain ⟨phase, htask, hawaits⟩ := hend
  cases hawaits with
  | resolving evidence => exact ⟨evidence, htask⟩

/-! ## The link and the bundle -/

theorem step_resolve {v : Visit} {t : Task} (htask : w.server.tasks v.rid = some t) :
    step env o cfg w v.resolve =
      { w with server := findUser env w.server v.rid t "" v.sessionId } := by
  show System.mk (External.step env o cfg w.server (.user v.rid "" v.sessionId)) w.sys = _
  simp only [External.step, htask]

/-- A link is found. -/
theorem issuing_of_linked {v : Visit} {flow : ExternalFlow} {identity : ExternalIdentity}
    {evidence : Evidence} {userId : String} (hgoogle : identity.provider = "google")
    (htask : w.server.tasks v.rid = some (v.task flow (.resolving identity evidence)))
    (hlink : resolveLink w.server.db "google" identity.subject = some userId) :
    (step env o cfg w v.resolve).server.tasks v.rid =
        some (v.task flow (.issuing identity evidence userId)) ∧
      (step env o cfg w v.resolve).server.db = w.server.db := by
  rw [step_resolve htask]
  unfold findUser
  dsimp only [Visit.task]
  rw [hgoogle, hlink]
  exact ⟨Function.update_self .., rfl⟩

/-- A callback that is to be answered, and has no user. -/
def Userless (w : System) (rid : ℕ) : Prop :=
  ∀ t, w.server.tasks rid = some t → ∀ identity evidence userId,
    t.phase ≠ .issuing identity evidence userId

/-- Without a link the callback raises: it is answered or starts over. -/
theorem userless_of_unlinked {v : Visit} {flow : ExternalFlow} {identity : ExternalIdentity}
    {evidence : Evidence} (hgoogle : identity.provider = "google")
    (htask : w.server.tasks v.rid = some (v.task flow (.resolving identity evidence)))
    (hlink : resolveLink w.server.db "google" identity.subject = none) :
    Userless (step env o cfg w v.resolve) v.rid := by
  intro t ht
  rw [step_resolve htask] at ht
  unfold findUser at ht
  dsimp only [Visit.task] at ht
  rw [hgoogle, hlink] at ht
  simp only [Server.raise] at ht
  split at ht
  · next hretry => cases hretry
  · split at ht
    · split at ht
      · exact absurd rfl (slot_clear ht).1
      · rcases slot_set ht with ⟨hne, -⟩ | ⟨-, rfl⟩
        · exact absurd rfl hne
        · simp
    · exact absurd rfl (slot_clear ht).1

theorem step_issue {v : Visit} {t : Task} (htask : w.server.tasks v.rid = some t) :
    step env o cfg w v.issue =
      { w with server := handOut env w.server v.rid t v.fresh v.activeKid v.issuedAt } := by
  show System.mk (External.step env o cfg w.server
    (.bundle v.rid v.fresh v.activeKid v.issuedAt)) w.sys = _
  simp only [External.step, htask]

/-- Without a user no bundle is handed out. -/
theorem handed_userless {v : Visit} (h : Userless w v.rid) :
    (step env o cfg w v.issue).server.handed = w.server.handed := by
  cases htask : w.server.tasks v.rid with
  | none =>
      show (External.step env o cfg w.server
        (.bundle v.rid v.fresh v.activeKid v.issuedAt)).handed = _
      simp only [External.step, htask]
  | some t =>
      rw [step_issue htask]
      unfold handOut
      dsimp only
      split
      · next identity evidence userId hphase =>
          exact absurd hphase (h t htask identity evidence userId)
      · rfl

section Issue

variable {v : Visit} {flow : ExternalFlow} {identity : ExternalIdentity} {evidence : Evidence}
  {userId : String}

/-- The bundle for a user that was found. -/
theorem handed_issue (o : Outside) (cfg : Settings) {bundle : TokenBundle} {db : Db}
    (htask : w.server.tasks v.rid = some (v.task flow (.issuing identity evidence userId)))
    (hok : issueBundle env w.server.db userId labClient none v.fresh v.activeKid v.issuedAt =
      .ok (bundle, db)) : (step env o cfg w v.issue).server =
        { w.server with
          db
          handed := ⟨v.request flow, flow, identity, evidence, bundle⟩ :: w.server.handed }.answer
            v.rid (.bundle bundle) := by
  rw [step_issue htask]
  unfold handOut
  dsimp only [Visit.task]
  rw [hok]

theorem handed_refused
    (htask : w.server.tasks v.rid = some (v.task flow (.issuing identity evidence userId)))
    (hno : ∀ bundle db, issueBundle env w.server.db userId labClient none v.fresh v.activeKid
      v.issuedAt ≠ .ok (bundle, db)) :
    (step env o cfg w v.issue).server.handed = w.server.handed := by
  rw [step_issue htask]
  unfold handOut
  dsimp only [Visit.task]
  split
  · rfl
  · rfl
  · next bundle db hok => exact absurd hok (hno bundle db)

theorem issueBundle_ready : (∃ bundle db, issueBundle env w.server.db userId labClient none v.fresh
    v.activeKid v.issuedAt = .ok (bundle, db)) ↔
      w.server.db.isActive userId = true ∧ Ready env v w := by
  rw [issueBundle_iff]
  simp [Ready]

end Issue

/-! ## Google's links stay -/

/-- Google's links of `db` are links of `db'`. -/
def KeepsGoogle (db db' : Db) : Prop :=
  ∀ x u, resolveLink db "google" x = some u → resolveLink db' "google" x = some u

/-- Who has a user, or a bundle, by a Google identity has the one that the identity is linked to. -/
structure Linked (s : Server) : Prop where
  issuing : ∀ rid t identity evidence userId, s.tasks rid = some t →
    t.phase = .issuing identity evidence userId → identity.provider = "google" →
      resolveLink s.db "google" identity.subject = some userId
  handed : ∀ h ∈ s.handed, h.identity.provider = "google" →
    resolveLink s.db "google" h.identity.subject = some h.user

theorem linked_start (db : Db) : Linked (.start db) := by
  refine ⟨?_, ?_⟩
  · intro rid t identity evidence userId ht
    cases ht
  · intro h hh
    cases hh

/-- A step that hands nothing out, and gives no callback a user that is not linked. -/
theorem Linked.advance {s' : Server} (h : Linked s) (hdb : KeepsGoogle s.db s'.db)
    (hhanded : s'.handed = s.handed)
    (htasks : ∀ rid t identity evidence userId, s'.tasks rid = some t →
      t.phase = .issuing identity evidence userId →
        (∃ t₀, s.tasks rid = some t₀ ∧ t₀.phase = .issuing identity evidence userId) ∨
          resolveLink s'.db identity.provider identity.subject = some userId) : Linked s' := by
  refine ⟨?_, ?_⟩
  · intro rid t identity evidence userId ht hphase hgoogle
    rcases htasks rid t identity evidence userId ht hphase with ⟨t₀, ht₀, hphase₀⟩ | hlink
    · exact hdb _ _ (h.issuing rid t₀ identity evidence userId ht₀ hphase₀ hgoogle)
    · rw [hgoogle] at hlink
      exact hlink
  · intro b hb hgoogle
    rw [hhanded] at hb
    exact hdb _ _ (h.handed b hb hgoogle)

/-- The tables are as they were, and no callback is where it was not. -/
theorem Linked.same {s' : Server} (h : Linked s) (hdb : s'.db = s.db)
    (hhanded : s'.handed = s.handed)
    (htasks : ∀ rid t, s'.tasks rid = some t → s.tasks rid = some t) : Linked s' := by
  have hkept : KeepsGoogle s.db s'.db := by
    rw [hdb]
    exact fun _ _ hu => hu
  refine h.advance hkept hhanded ?_
  intro rid t identity evidence userId ht hphase
  exact Or.inl ⟨t, htasks rid t ht, hphase⟩

/-- One callback goes on, to a user that is linked or to no user. -/
theorem Linked.put {s' : Server} (h : Linked s) (hdb : KeepsGoogle s.db s'.db)
    (hhanded : s'.handed = s.handed) {rid : ℕ} {t : Task}
    (htasks : s'.tasks = Function.update s.tasks rid (some t))
    (hput : ∀ identity evidence userId, t.phase = .issuing identity evidence userId →
      (∃ t₀, s.tasks rid = some t₀ ∧ t₀.phase = .issuing identity evidence userId) ∨
        resolveLink s'.db identity.provider identity.subject = some userId) : Linked s' := by
  refine h.advance hdb hhanded ?_
  intro rid' t' identity evidence userId ht hphase
  rw [htasks] at ht
  rcases slot_set ht with ⟨-, ht⟩ | ⟨rfl, rfl⟩
  · exact Or.inl ⟨t', ht, hphase⟩
  · exact hput identity evidence userId hphase

/-- A response gives no user. -/
theorem respond_issuing {t : Task} {jwks jwks' : JwksCache} {http : Http} {clock : Time}
    {identity : ExternalIdentity} {evidence : Evidence} {userId : String}
    (h : respond env o cfg jwks t http clock = (jwks', .ok (.issuing identity evidence userId))) :
    t.phase = .issuing identity evidence userId := by
  generalize hphase : Phase.issuing identity evidence userId = phase at h
  cases respond_cases h with
  | verified metadata encoded jwk phase hawaits hverify =>
      obtain ⟨claims, identity, -, -, -, rfl⟩ := verify_eq_ok hverify
      cases hphase
  | idle hdiscovering => rfl
  | discovered | missed | exchanged | fetched => cases hphase

theorem linked_step (s : Server) (l : Step) (h : Linked s) :
    Linked (External.step env o cfg s l) := by
  have hd := step_did env o cfg s l
  generalize External.step env o cfg s l = s' at hd ⊢
  have hsame : KeepsGoogle s.db s.db := fun _ _ hu => hu
  cases hd with
  | stayed => exact h
  | ended l rid jwks answer => exact h.same rfl rfl fun _ _ ht => (slot_clear ht).2
  | began p http browserBinding verifier state nonce now flow store request hissue =>
      exact h.same rfl rfl fun _ _ ht => ht
  | dropped rid p state code binding now flow store hconsume =>
      exact h.same rfl rfl fun _ _ ht => (slot_clear ht).2
  | consumed rid p state code binding now flow store phase hconsume hfirst =>
      refine h.put hsame rfl rfl ?_
      intro identity evidence userId hphase
      cases p <;> cases hfirst <;> cases hphase
  | moved rid http clock t jwks phase htask hrespond =>
      refine h.put hsame rfl rfl ?_
      intro identity evidence userId hphase
      have hp : phase = .issuing identity evidence userId := hphase
      rw [hp] at hrespond
      exact Or.inl ⟨t, htask, respond_issuing hrespond⟩
  | retried l rid jwks t flow htask hgoogle =>
      refine h.put hsame rfl rfl ?_
      intro identity evidence userId hphase
      cases hphase
  | resolved rid uid sessionId t identity evidence userId htask hphase hlink =>
      refine h.put hsame rfl rfl ?_
      intro _ _ _ hissuing
      cases hissuing
      exact Or.inr hlink
  | provisioned rid uid sessionId t identity evidence userId db htask hphase huser =>
      obtain ⟨hlink, hkept⟩ := resolveLink_provisionUser huser
      refine h.put (fun x u hu => hkept _ x u hu) rfl rfl ?_
      intro _ _ _ hissuing
      cases hissuing
      exact Or.inr hlink
  | handed rid fresh activeKid now t₀ identity₀ evidence₀ userId₀ bundle db htask hphase₀ hissue =>
      obtain ⟨huser, hlinks⟩ := issueBundle_user hissue
      have hkept : KeepsGoogle s.db db := (KeepsLinks.of_same hlinks) "google"
      refine ⟨?_, ?_⟩
      · intro rid' t identity evidence userId ht hphase hgoogle
        exact hkept _ _ (h.issuing rid' t identity evidence userId (slot_clear ht).2 hphase hgoogle)
      · intro b hb hgoogle
        rcases List.mem_cons.mp hb with rfl | hb
        · show resolveLink db "google" identity₀.subject = some bundle.accessToken.claims.sub
          rw [huser]
          exact hkept _ _ (h.issuing rid t₀ identity₀ evidence₀ userId₀ htask hphase₀ hgoogle)
        · exact hkept _ _ (h.handed b hb hgoogle)

/-- The tables change at the requests of others, and Google's links stay: the routes that revoke
    are Naver's and Kakao's. -/
theorem keepsGoogle_request (env : Env) (s : Sys) {l : Tx}
    (hl : ∀ provider userId accepted, l = .revokeLink provider userId accepted →
      provider ≠ "google") : KeepsGoogle s.db (Sso.step env s l).db := by
  by_cases hrevokes : revokes l = true
  · cases l with
    | revokeLink provider userId accepted =>
        intro x u hu
        simp only [Sso.step]
        split
        · exact hu
        · next db hdb =>
            have hne := hl provider userId accepted rfl
            show resolveLink db "google" x = some u
            rw [resolveLink_revokeLink hdb hne.symm]
            exact hu
    | _ => cases hrevokes
  · exact keepsLinks_step env s (Bool.eq_false_iff.mpr hrevokes) "google"

theorem keepsGoogle_external (s : Server) (l : Step) :
    KeepsGoogle s.db (External.step env o cfg s l).db := by
  have hd := step_did env o cfg s l
  generalize External.step env o cfg s l = s' at hd ⊢
  cases hd with
  | provisioned rid uid sessionId t identity evidence userId db htask hphase huser =>
      exact fun x u hu => (resolveLink_provisionUser huser).2 "google" x u hu
  | handed rid fresh activeKid now t identity evidence userId bundle db htask hphase hissue =>
      exact (KeepsLinks.of_same (issueBundle_user hissue).2) "google"
  | _ => exact fun _ _ hu => hu

theorem keepsGoogle_step (env : Env) (o : Outside) (cfg : Settings) (w : System) (m : Move) :
    KeepsGoogle w.server.db (step env o cfg w m).server.db := by
  cases m with
  | external l => exact keepsGoogle_external w.server l
  | request l hl =>
      refine keepsGoogle_request env { w.sys with db := w.server.db } ?_
      rintro provider userId accepted rfl
      cases hl
  | revoke p userId accepted =>
      refine keepsGoogle_request env { w.sys with db := w.server.db } ?_
      rintro _ _ _ ⟨⟩
      cases p <;> decide

theorem keepsGoogle_run (w : System) (ms : List Move) :
    KeepsGoogle w.server.db (run (step env o cfg) w ms).server.db :=
  run_rel (step env o cfg) (fun w w' => KeepsGoogle w.server.db w'.server.db)
    (fun _ _ _ hu => hu) (fun _ _ _ h h' x u hu => h' x u (h x u hu))
    (keepsGoogle_step env o cfg) w ms

theorem linked_move (env : Env) (o : Outside) (cfg : Settings) (w : System) (m : Move)
    (h : Linked w.server) :
    Linked (step env o cfg w m).server := by
  have hkeeps := keepsGoogle_step env o cfg w m
  cases m with
  | external l => exact linked_step w.server l h
  | request l hl => exact h.advance hkeeps rfl fun rid t _ _ _ ht hphase => Or.inl ⟨t, ht, hphase⟩
  | revoke p userId accepted =>
      exact h.advance hkeeps rfl fun rid t _ _ _ ht hphase => Or.inl ⟨t, ht, hphase⟩

theorem linked_run {w : System} (h : Linked w.server) (ms : List Move) :
    Linked (run (step env o cfg) w ms).server :=
  run_always (step env o cfg) (fun w => Linked w.server) (linked_move env o cfg) h ms

/-- The bundles for one Google identity are for one user. -/
theorem user_of_linked {w : System} (h : Linked w.server) {x userId : String}
    (hlink : resolveLink w.server.db "google" x = some userId) (ms : List Move) {b : Handed}
    (hb : b ∈ (run (step env o cfg) w ms).server.handed) (hgoogle : b.identity.provider = "google")
    (hsubject : b.identity.subject = x) : b.user = userId := by
  have hone := (linked_run h ms).handed b hb hgoogle
  rw [hsubject, keepsGoogle_run w ms x userId hlink] at hone
  exact (Option.some.inj hone).symm

/-! ## A valid callback -/

theorem isActive_issue {db db' : Db} {userId v aud fresh : String} {activeKid : Option String}
    {now : Time} {b : TokenBundle}
    (h : issueBundle env db userId aud none fresh activeKid now = .ok (b, db'))
    (hactive : db.isActive v = true) : db'.isActive v = true := by
  obtain ⟨u, hu, hstatus⟩ := Db.isActive_iff.mp hactive
  obtain ⟨u', hu', hs, -⟩ := (Db.Steady.of_issueBundle h).users v u hu
  exact Db.isActive_iff.mpr ⟨u', hu', hs.trans hstatus⟩

/-- A callback that has a user whom `issue_bundle` answers completes. -/
theorem completes_of_issuing {v : Visit} {flow : ExternalFlow} {identity : ExternalIdentity}
    {evidence : Evidence} {userId : String} (hlinked : Linked w.server)
    (hgoogle : identity.provider = "google")
    (htask : w.server.tasks v.rid = some (v.task flow (.issuing identity evidence userId)))
    (hactive : w.server.db.isActive userId = true) (hready : Ready env v w) :
    Completes env o cfg w v flow identity userId := by
  obtain ⟨bundle, db, hok⟩ := issueBundle_ready.mpr ⟨hactive, hready⟩
  have hserver := handed_issue o cfg htask hok
  have hafter := linked_move env o cfg w v.issue hlinked
  have hlink := keepsGoogle_step env o cfg w v.issue _ _
    (hlinked.issuing v.rid _ identity evidence userId htask rfl hgoogle)
  refine ⟨⟨evidence, bundle, (issueBundle_user hok).1, ?_, ?_⟩, ?_, hlink, ?_⟩
  · rw [hserver]
    rfl
  · rw [hserver]
    rfl
  · rw [hserver]
    exact isActive_issue hok hactive
  · intro ms b hb hprovider hsubject
    exact user_of_linked hafter hlink ms hb hprovider hsubject

/-- A valid callback of Google completes exactly if it finds the identity linked to a user who is
    active when the bundle is issued. -/
theorem completes_iff_linked (env : Env) (o : Outside) (cfg : Settings) (db : Db) (ls : List Move)
    (v : Visit) (flow : ExternalFlow) (identity : ExternalIdentity) (during after : List Move) :
    let w := run (step env o cfg) (.start db) ls
    let w₁ := found env o cfg w v flow during
    let w₂ := beforeBundle env o cfg w v flow during after
    Valid env o cfg w v flow during identity → after.filterMap (Move.own v.rid) = [] →
      ((∃ userId, Completes env o cfg w₂ v flow identity userId) ↔
        (∃ userId, LinkedActive w₁ w₂ identity userId) ∧ Ready env v w₂) := by
  intro w w₁ w₂ hvalid hafter
  obtain ⟨evidence, hresolving⟩ := resolving_of_valid (formatted_run db ls) hvalid
  have hgoogle : identity.provider = "google" := by
    obtain ⟨metadata, encoded, kid, claims, ha, -⟩ := hvalid.answered
    exact (identityOf_eq_ok ha.identity).2.1
  have htasks : w₂.server.tasks v.rid = (step env o cfg w₁ v.resolve).server.tasks v.rid :=
    tasks_run hafter
  have hlinked : Linked w₂.server := by
    have hstart : Linked w.server := linked_run (w := .start db) (linked_start db) ls
    have hfound : Linked w₁.server :=
      linked_run (linked_move env o cfg w (v.call flow) hstart) during
    exact linked_run (linked_move env o cfg w₁ v.resolve hfound) after
  cases hlink : resolveLink w₁.server.db "google" identity.subject with
  | none =>
      have huserless : Userless w₂ v.rid := by
        intro t ht
        rw [htasks] at ht
        exact userless_of_unlinked hgoogle hresolving hlink t ht
      refine ⟨?_, ?_⟩
      · rintro ⟨userId, hcompletes⟩
        obtain ⟨evidence', bundle, -, hhanded, -⟩ := hcompletes.handed
        rw [handed_userless huserless] at hhanded
        exact absurd hhanded List.ne_cons_self
      · rintro ⟨⟨userId, hfound, -⟩, -⟩
        rw [hlink] at hfound
        cases hfound
  | some userId =>
      have hissuing : w₂.server.tasks v.rid =
          some (v.task flow (.issuing identity evidence userId)) :=
        htasks.trans (issuing_of_linked hgoogle hresolving hlink).1
      refine ⟨?_, ?_⟩
      · rintro ⟨userId', hcompletes⟩
        obtain ⟨evidence', bundle, -, hhanded, -⟩ := hcompletes.handed
        have hok : ∃ bundle db, issueBundle env w₂.server.db userId labClient none v.fresh
            v.activeKid v.issuedAt = .ok (bundle, db) := by
          by_contra hno
          push Not at hno
          rw [handed_refused hissuing hno] at hhanded
          exact absurd hhanded List.ne_cons_self
        obtain ⟨hactive, hready⟩ := issueBundle_ready.mp hok
        exact ⟨⟨userId, hlink, hactive⟩, hready⟩
      · rintro ⟨⟨userId', hfound, hactive⟩, hready⟩
        rw [hlink] at hfound
        cases hfound
        exact ⟨userId, completes_of_issuing hlinked hgoogle hissuing hactive hready⟩

/-- The learner with a link signs in. -/
theorem linked_login_completes : ∃ userId, Completes plainEnv labOutside labSettings
    (beforeBundle plainEnv labOutside labSettings
      (run (step plainEnv labOutside labSettings) (.start labDb) firstLogin) firstVisit firstFlow
      firstResponses []) firstVisit firstFlow firstIdentity userId :=
  (completes_iff_linked plainEnv labOutside labSettings labDb firstLogin firstVisit firstFlow
    firstIdentity firstResponses [] (firstVisit_valid labDb) rfl).mpr
      ⟨⟨"u1", by decide +kernel, by decide +kernel⟩, by decide, by decide +kernel⟩

end TemisLab.External.SignIn
