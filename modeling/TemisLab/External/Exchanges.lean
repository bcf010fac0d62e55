/-
  What the callbacks post to the token endpoints (`exchange_code` of the three adapters), in every
  interleaving of logins and callbacks. `sent` is history, and so is `discovered`: the states of the
  Google callbacks whose discovery succeeded.

  * `kakao_unsent`: the binding by PKCE fails. `kakao_callback` does not keep the flow that its
    consume returns and raises on `flow_data`, so the verifier is never sent.
  * `bound_iff_google`: it holds of every Google callback and of no Kakao callback. Each Google
    callback that discovered posts once, with the `redirect_uri` of its flow and the verifier of the
    challenge that its authorization redirect carried (`Bound`).
-/
import TemisLab.External.Logins

namespace TemisLab.External.Exchanges

open TemisLab.Lib TemisLab.Sso

/-- The client secrets of `settings`. -/
structure Secrets where
  googleClientSecret : String
  naverClientSecret : String
  kakaoClientSecret : String

/-- A form posted to a token endpoint. -/
structure TokenRequest where
  url : String
  data : List (String × String)
  deriving DecidableEq, Repr

/-- `GoogleOidcAdapter.exchange_code` up to its response. -/
def googleTokenRequest (cfg : Settings) (secrets : Secrets) (metadata : ProviderMetadata)
    (code : String) (flow : ExternalFlow) : TokenRequest where
  url := metadata.tokenEndpoint
  data :=
    [("grant_type", "authorization_code"), ("code", code), ("redirect_uri", flow.redirectUri),
      ("client_id", cfg.googleClientId), ("client_secret", secrets.googleClientSecret),
      ("code_verifier", flow.codeVerifier)]

/-- `NaverAdapter.exchange_code` up to its response. -/
def naverTokenRequest (cfg : Settings) (secrets : Secrets) (code state : String) :
    TokenRequest where
  url := "https://nid.naver.com/oauth2.0/token"
  data :=
    [("grant_type", "authorization_code"), ("client_id", cfg.naverClientId),
      ("client_secret", secrets.naverClientSecret), ("code", code), ("state", state)]

/-- `KakaoAdapter.exchange_code` up to its response. -/
def kakaoTokenRequest (cfg : Settings) (secrets : Secrets) (code : String) (flow : ExternalFlow) :
    TokenRequest where
  url := "https://kauth.kakao.com/oauth/token"
  data :=
    [("grant_type", "authorization_code"), ("client_id", cfg.kakaoRestApiKey),
      ("redirect_uri", flow.redirectUri), ("code", code), ("code_verifier", flow.codeVerifier)] ++
    if secrets.kakaoClientSecret = "" then []
    else [("client_secret", secrets.kakaoClientSecret)]

/-- A token request, with the provider and the state of the callback that sent it. -/
structure Sent where
  provider : Provider
  state : String
  request : TokenRequest
  deriving DecidableEq, Repr

/-- The Google callback whose discovery a step completes. -/
def discovers (o : Outside) (s : Server) : Step → Option (Task × ProviderMetadata)
  | .response rid http _ =>
      match s.tasks rid with
      | none => none
      | some t =>
          match t.phase, googleDiscover o http with
          | .discovering, .ok metadata => some (t, metadata)
          | _, _ => none
  | _ => none

/-- What a step posts: Google's callbacks after the discovery, Naver's after the consume. -/
def sends (o : Outside) (cfg : Settings) (secrets : Secrets) (s : Server) (l : Step) : List Sent :=
  match discovers o s l, l with
  | some (t, metadata), _ =>
      [⟨t.request.provider, t.request.state,
        googleTokenRequest cfg secrets metadata t.request.code t.flow⟩]
  | none, .callback rid .naver state code cookie now =>
      match (s.flows .naver).consume state ⟨rid, now, cookie.getD ""⟩ with
      | .error _ => []
      | .ok _ => [⟨.naver, state, naverTokenRequest cfg secrets code state⟩]
  | none, _ => []

structure Wire where
  server : Server
  discovered : List String
  sent : List Sent

def Wire.start (db : Db) : Wire := ⟨.start db, [], []⟩

def step (env : Env) (o : Outside) (cfg : Settings) (secrets : Secrets) (x : Wire) (l : Step) :
    Wire where
  server := External.step env o cfg x.server l
  discovered := ((discovers o x.server l).map fun d => d.1.request.state).toList ++ x.discovered
  sent := sends o cfg secrets x.server l ++ x.sent

/-- What the callbacks of a state sent. -/
def Wire.sentFor (x : Wire) (p : Provider) (state : String) : List TokenRequest :=
  (x.sent.filter fun e => e.provider = p && e.state = state).map Sent.request

/-- The callback of a state sent one token request, which carries the `redirect_uri` of the flow
    issued with the state and the verifier of the challenge in the redirect for the state. -/
structure Bound (env : Env) (x : Wire) (p : Provider) (state : String) (request : TokenRequest)
    (verifier : String) : Prop where
  once : x.sentFor p state = [request]
  codeVerifier : request.data.lookup "code_verifier" = some verifier
  issued : ∃ flow, .issued state flow ∈ (x.server.flows p).flows.log
  redirectUri : ∀ flow, .issued state flow ∈ (x.server.flows p).flows.log →
    request.data.lookup "redirect_uri" = some flow.redirectUri
  redirected : ∃ auth, (p, auth) ∈ x.server.redirected ∧
    auth.parameters.lookup "state" = some state
  challenge : ∀ auth, (p, auth) ∈ x.server.redirected →
    auth.parameters.lookup "state" = some state →
    auth.parameters.lookup "code_challenge" = some (OAuth.pkceChallenge env verifier)

/-- A Google callback that consumed the state and whose discovery succeeded, or a Kakao callback
    that consumed it. -/
def Exchanging (x : Wire) (p : Provider) (state : String) : Prop :=
  p ≠ .naver ∧ state ∈ (x.server.flows p).flows.spent ∧ (p = .google → state ∈ x.discovered)

/-- A login by Kakao that comes back with its own cookie. -/
def kakaoLogin : List Step :=
  [.login .kakao discoveryDocument "browser-binding-123" "verifier-1" "state-1" "nonce-1" 100,
    .callback 1 .kakao "state-1" "code-1" (some "browser-binding-123") 160]

def labSecrets : Secrets := ⟨"google-secret", "naver-secret", "kakao-secret"⟩

/-- Its callback sends nothing. -/
theorem kakao_unsent : ¬ ∀ env o cfg secrets db ls,
    Along (External.step env o cfg) FreshState (.start db) ls → ∀ p state,
      Exchanging (run (step env o cfg secrets) (.start db) ls) p state →
        ∃ request verifier,
          Bound env (run (step env o cfg secrets) (.start db) ls) p state request verifier := by
  intro h
  have hnone : (run (step plainEnv labOutside labSettings labSecrets) (.start labDb)
      kakaoLogin).sentFor .kakao "state-1" = [] := by decide +kernel
  obtain ⟨request, verifier, hbound⟩ :=
    h plainEnv labOutside labSettings labSecrets labDb kakaoLogin (by decide +kernel) .kakao
      "state-1" ⟨by decide, by decide +kernel, by decide⟩
  have honce := hbound.once
  rw [hnone] at honce
  cases honce

/-! ## The requests of the adapters -/

/-- The redirect carries the state and the challenge of its flow. -/
theorem authorizationRequest_carries {o : Outside} {cfg : Settings} {http : Http}
    {flow : ExternalFlow} {p : Provider} {auth : AuthorizationRequest}
    (h : authorizationRequest o cfg http flow p = .ok auth) :
    auth.parameters.lookup "state" = some flow.state ∧
      (p ≠ .naver → auth.parameters.lookup "code_challenge" = some flow.codeChallenge) := by
  cases p with
  | google =>
      unfold authorizationRequest at h
      cases hd : googleDiscover o http with
      | error failure =>
          rw [hd] at h
          cases h
      | ok metadata =>
          rw [hd] at h
          cases h
          exact ⟨rfl, fun _ => rfl⟩
  | naver =>
      cases h
      exact ⟨rfl, fun hp => absurd rfl hp⟩
  | kakao =>
      cases h
      exact ⟨rfl, fun _ => rfl⟩

/-- The request carries the `redirect_uri` and the verifier of the flow. -/
def TokenRequest.Carries (request : TokenRequest) (flow : ExternalFlow) : Prop :=
  request.data.lookup "redirect_uri" = some flow.redirectUri ∧
    request.data.lookup "code_verifier" = some flow.codeVerifier

theorem google_carries (cfg : Settings) (secrets : Secrets) (metadata : ProviderMetadata)
    (code : String) (flow : ExternalFlow) :
    (googleTokenRequest cfg secrets metadata code flow).Carries flow := ⟨rfl, rfl⟩

/-- What `KakaoAdapter` would post if its callback had the flow. -/
theorem kakao_carries (cfg : Settings) (secrets : Secrets) (code : String) (flow : ExternalFlow) :
    (kakaoTokenRequest cfg secrets code flow).Carries flow := ⟨rfl, rfl⟩

/-! ## The redirects of the logins -/

variable {env : Env} {o : Outside} {cfg : Settings} {secrets : Secrets} {s : Server}

/-- Flows and redirects belong together, and no state was issued twice. -/
structure Redirects (env : Env) (o : Outside) (cfg : Settings) (s : Server) : Prop where
  issued : ∀ p state flow, .issued state flow ∈ (s.flows p).flows.log →
    flow.codeChallenge = OAuth.pkceChallenge env flow.codeVerifier ∧
      ∃ http auth, flow.state = state ∧ (p, auth) ∈ s.redirected ∧
        authorizationRequest o cfg http flow p = .ok auth
  redirected : ∀ p auth, (p, auth) ∈ s.redirected → ∃ http flow,
    .issued flow.state flow ∈ (s.flows p).flows.log ∧
      authorizationRequest o cfg http flow p = .ok auth
  once : ∀ p, (s.flows p).flows.keys.Nodup

/-- What a step does to the flow stores and the redirects. -/
inductive Flows (env : Env) (o : Outside) (cfg : Settings) (s s' : Server) : Prop where
  | same (hflows : s'.flows = s.flows) (hredirected : s'.redirected = s.redirected)
  | redeemed (p : Provider) (state : String) (flow : ExternalFlow) (presented : Presented)
      (store : FlowStore)
      (hlog : store.flows.log = .redeemed state flow presented :: (s.flows p).flows.log)
      (hflows : s'.flows = Function.update s.flows p store)
      (hredirected : s'.redirected = s.redirected)
  | issued (p : Provider) (state : String) (flow : ExternalFlow) (store : FlowStore) (http : Http)
      (auth : AuthorizationRequest)
      (hnew : state ∉ (s.flows p).flows.keys) (hstate : flow.state = state)
      (hchallenge : flow.codeChallenge = OAuth.pkceChallenge env flow.codeVerifier)
      (hlog : store.flows.log = .issued state flow :: (s.flows p).flows.log)
      (hauth : authorizationRequest o cfg http flow p = .ok auth)
      (hflows : s'.flows = Function.update s.flows p store)
      (hredirected : s'.redirected = (p, auth) :: s.redirected)

theorem flows_did {l : Step} {s' : Server} (hd : Did env o cfg s l s')
    (hl : ∀ p http browserBinding verifier state nonce now,
      l ≠ .login p http browserBinding verifier state nonce now) : Flows env o cfg s s' := by
  have hlog : ∀ {p state presented flow store},
      (s.flows p).consume state presented = .ok (flow, store) →
        store.flows.log = .redeemed state flow presented :: (s.flows p).flows.log := by
    intro p state presented flow store hconsume
    obtain ⟨-, -, rfl⟩ := FlowStore.consume_eq_ok hconsume
    rfl
  cases hd with
  | began p http browserBinding verifier state nonce now =>
      exact absurd rfl (hl p http browserBinding verifier state nonce now)
  | consumed rid p state code binding now flow store phase hconsume hfirst =>
      exact .redeemed p state flow _ store (hlog hconsume) rfl rfl
  | dropped rid p state code binding now flow store hconsume =>
      exact .redeemed p state flow _ store (hlog hconsume) rfl rfl
  | _ => exact .same rfl rfl

theorem flows_step (env : Env) (o : Outside) (cfg : Settings) (s : Server) {l : Step}
    (hl : FreshState s l) :
    Flows env o cfg s (External.step env o cfg s l) := by
  cases l with
  | login p http browserBinding verifier state nonce now =>
      simp only [External.step]
      split
      · exact .same rfl rfl
      · next flow store hissue =>
          split
          · exact .same rfl rfl
          · next auth hauth =>
              have hchallenge := FlowStore.issue_pkce hissue
              obtain ⟨hstate, -, -, -, hstore⟩ := FlowStore.issue_eq_ok hissue
              exact .issued p state flow store http auth hl hstate hchallenge (by rw [hstore]; rfl)
                hauth rfl rfl
  | _ => exact flows_did (step_did env o cfg s _) (by simp)

/-- What a store holds after a step that changed one. -/
theorem log_update {s' : Server} {p : Provider} {store : FlowStore}
    (hflows : s'.flows = Function.update s.flows p store)
    {entry : Punch String ExternalFlow Presented}
    (hlog : store.flows.log = entry :: (s.flows p).flows.log) (q : Provider)
    (e : Punch String ExternalFlow Presented) :
    e ∈ (s'.flows q).flows.log ↔ e ∈ (s.flows q).flows.log ∨ (q = p ∧ e = entry) := by
  rw [hflows]
  by_cases hq : q = p
  · rw [hq, Function.update_self, hlog, List.mem_cons]
    tauto
  · rw [Function.update_of_ne hq]
    tauto

theorem redirects_start (env : Env) (o : Outside) (cfg : Settings) (db : Db) :
    Redirects env o cfg (.start db) := by
  refine ⟨?_, ?_, fun p => List.nodup_nil⟩
  · intro p state flow h
    cases h
  · intro p auth h
    cases h

theorem Redirects.step (h : Redirects env o cfg s) {l : Step} (hl : FreshState s l) :
    Redirects env o cfg (External.step env o cfg s l) := by
  have hf := flows_step env o cfg s hl
  generalize External.step env o cfg s l = s' at hf ⊢
  cases hf with
  | same hflows hredirected =>
      refine ⟨?_, ?_, ?_⟩
      · rw [hflows, hredirected]
        exact h.issued
      · rw [hflows, hredirected]
        exact h.redirected
      · rw [hflows]
        exact h.once
  | redeemed p state flow presented store hlog hflows hredirected =>
      have hmem := log_update hflows hlog
      refine ⟨?_, ?_, ?_⟩
      · intro q state' flow' hissued
        rw [hredirected]
        rcases (hmem q _).mp hissued with hissued | ⟨-, he⟩
        · exact h.issued q state' flow' hissued
        · cases he
      · intro q auth hauth
        rw [hredirected] at hauth
        obtain ⟨http, flow', hissued, hrequest⟩ := h.redirected q auth hauth
        exact ⟨http, flow', (hmem q _).mpr (Or.inl hissued), hrequest⟩
      · intro q
        rw [hflows]
        by_cases hq : q = p
        · rw [hq, Function.update_self]
          unfold Tickets.keys
          rw [hlog]
          exact h.once p
        · rw [Function.update_of_ne hq]
          exact h.once q
  | issued p state flow store http auth hnew hstate hchallenge hlog hauth hflows hredirected =>
      have hmem := log_update hflows hlog
      refine ⟨?_, ?_, ?_⟩
      · intro q state' flow' hissued
        rw [hredirected]
        rcases (hmem q _).mp hissued with hissued | ⟨hq, he⟩
        · obtain ⟨hc, http', auth', hstate', hin, hrequest⟩ := h.issued q state' flow' hissued
          exact ⟨hc, http', auth', hstate', List.mem_cons_of_mem _ hin, hrequest⟩
        · cases he
          rw [hq]
          exact ⟨hchallenge, http, auth, hstate, List.mem_cons_self, hauth⟩
      · intro q auth' hin
        rw [hredirected] at hin
        rcases List.mem_cons.mp hin with he | hin
        · cases he
          refine ⟨http, flow, (hmem p _).mpr (Or.inr ⟨rfl, ?_⟩), hauth⟩
          rw [hstate]
        · obtain ⟨http', flow', hissued, hrequest⟩ := h.redirected q auth' hin
          exact ⟨http', flow', (hmem q _).mpr (Or.inl hissued), hrequest⟩
      · intro q
        rw [hflows]
        by_cases hq : q = p
        · rw [hq, Function.update_self]
          unfold Tickets.keys
          rw [hlog]
          exact List.nodup_cons.mpr ⟨hnew, h.once p⟩
        · rw [Function.update_of_ne hq]
          exact h.once q

/-! ## The callbacks that wait -/

/-- No callback is a retry. -/
def NoRetry (s : Server) : Prop := ∀ rid t, s.tasks rid = some t → t.retry = false

/-- Only Google's callbacks wait for a discovery. -/
theorem google_of_discovering (h : Inv o cfg s) {rid : ℕ} {t : Task} (ht : s.tasks rid = some t)
    (hphase : t.phase = .discovering) : t.request.provider = .google := by
  have hfits := (h.tasks rid t ht).fits
  unfold Task.Fits at hfits
  rw [hphase] at hfits
  exact hfits

/-- The state of a callback that is not a retry was consumed. -/
theorem spent_of_task (h : Inv o cfg s) (hretry : NoRetry s) {rid : ℕ} {t : Task}
    (ht : s.tasks rid = some t) :
    t.request.state ∈ (s.flows t.request.provider).flows.spent :=
  Tickets.mem_spent.mpr ⟨_, _, (h.tasks rid t ht).redeemed (hretry rid t ht)⟩

/-- Two callbacks that consumed one state are one. -/
theorem rid_unique (h : Inv o cfg s) (hretry : NoRetry s) {rid rid' : ℕ} {t t' : Task}
    (ht : s.tasks rid = some t) (ht' : s.tasks rid' = some t')
    (hprovider : t.request.provider = t'.request.provider)
    (hstate : t.request.state = t'.request.state) : rid = rid' := by
  have hheld := h.tasks rid t ht
  have hheld' := h.tasks rid' t' ht'
  have hmem := hheld.redeemed (hretry rid t ht)
  rw [hprovider, hstate] at hmem
  have hone := ((h.stores _).1.unique hmem (hheld'.redeemed (hretry rid' t' ht'))).2
  rw [← hheld.rid, ← hheld'.rid, hone]

/-- A callback that raises is answered: its state stays spent, so it does not start over. -/
theorem raise_ends (h : Inv o cfg s) (hretry : NoRetry s) {rid : ℕ} {t : Task}
    (ht : s.tasks rid = some t) (jwks : JwksCache) (failure : Failure) :
    ∃ answer, (∀ bundle, answer ≠ .bundle bundle) ∧
      { s with jwks }.raise rid t failure = { s with jwks }.answer rid answer := by
  refine raise_answers { s with jwks } ?_ failure
  intro hgoogle _
  have hspent := spent_of_task h hretry ht
  rw [hgoogle] at hspent
  cases hlive : (s.flows .google).flows.live t.request.state with
  | none => rfl
  | some flow => exact absurd hspent (Tickets.Sound.live (h.stores .google).1 _ _ hlive).2

/-- No response leads back to the discovery. -/
theorem respond_discovering {t : Task} {jwks jwks' : JwksCache} {http : Http} {clock : Time} :
    respond env o cfg jwks t http clock ≠ (jwks', .ok .discovering) := by
  intro h
  generalize hphase : Phase.discovering = phase at h
  cases respond_cases h with
  | verified metadata encoded jwk phase hawaits hverify =>
      obtain ⟨claims, identity, -, -, -, rfl⟩ := verify_eq_ok hverify
      cases hphase
  | idle hdiscovering => exact hdiscovering hphase.symm
  | discovered | missed | exchanged | fetched => cases hphase

/-- Where a callback that is not answered after a step came from. -/
inductive Came (env : Env) (o : Outside) (cfg : Settings) (s : Server) (l : Step) (rid : ℕ) :
    Task → Prop where
  | kept (t : Task) (h : s.tasks rid = some t) : Came env o cfg s l rid t
  | consumed (p : Provider) (state code binding : String) (now : ℤ) (flow : ExternalFlow)
      (store : FlowStore) (phase : Phase)
      (hconsume : (s.flows p).consume state ⟨rid, now, binding⟩ = .ok (flow, store)) :
      Came env o cfg s l rid ⟨⟨p, state, code, ⟨rid, now, binding⟩⟩, flow, false, phase⟩
  | moved (t : Task) (phase : Phase) (h : s.tasks rid = some t) (hphase : phase ≠ .discovering) :
      Came env o cfg s l rid { t with phase }

theorem came_callback {rid rid' : ℕ} {p : Provider} {state code : String}
    {cookie : Option String} {now : ℤ} {l : Step} {t : Task}
    (ht : (callback s rid' p state code cookie now).tasks rid = some t) :
    Came env o cfg s l rid t := by
  unfold callback at ht
  dsimp only at ht
  split at ht
  · exact .kept t (slot_clear ht).2
  · split at ht
    · exact .kept t (slot_clear ht).2
    · next flow store hconsume =>
        split at ht
        · exact .kept t (slot_clear ht).2
        · next phase hfirst =>
            rcases slot_set ht with ⟨-, hkept⟩ | ⟨rfl, rfl⟩
            · exact .kept t hkept
            · exact .consumed p state code _ now flow store phase hconsume

theorem came_findUser (h : Inv o cfg s) (hretry : NoRetry s) {rid rid' : ℕ} {t₀ t : Task}
    (htask : s.tasks rid' = some t₀) {uid sessionId : String} {l : Step}
    (ht : (findUser env s rid' t₀ uid sessionId).tasks rid = some t) :
    Came env o cfg s l rid t := by
  have hraise : ∀ failure, (s.raise rid' t₀ failure).tasks rid = some t → s.tasks rid = some t := by
    intro failure ht
    obtain ⟨answer, -, hanswer⟩ := raise_ends h hretry htask s.jwks failure
    have hend : s.raise rid' t₀ failure = s.answer rid' answer := hanswer
    rw [hend] at ht
    exact (slot_clear ht).2
  have hmove : ∀ identity evidence userId,
      Function.update s.tasks rid' (some { t₀ with phase := .issuing identity evidence userId })
        rid = some t → Came env o cfg s l rid t := by
    intro identity evidence userId ht
    rcases slot_set ht with ⟨-, hkept⟩ | ⟨rfl, rfl⟩
    · exact .kept t hkept
    · exact .moved t₀ _ htask (by simp)
  unfold findUser at ht
  split at ht
  · split at ht
    · exact .kept t (hraise _ ht)
    · exact hmove _ _ _ ht
  · split at ht
    · exact .kept t (hraise _ ht)
    · exact hmove _ _ _ ht
  · exact .kept t ht

theorem tasks_handOut {rid rid' : ℕ} {t₀ t : Task} {fresh : String} {activeKid : Option String}
    {now : Time} (ht : (handOut env s rid' t₀ fresh activeKid now).tasks rid = some t) :
    s.tasks rid = some t := by
  unfold handOut at ht
  split at ht
  · split at ht <;> exact (slot_clear ht).2
  · exact ht

theorem came_step (h : Inv o cfg s) (hretry : NoRetry s) (l : Step) {rid : ℕ} {t : Task}
    (ht : (External.step env o cfg s l).tasks rid = some t) : Came env o cfg s l rid t := by
  cases l with
  | login p http browserBinding verifier state nonce now =>
      simp only [External.step] at ht
      split at ht
      · exact .kept t ht
      · split at ht <;> exact .kept t ht
  | callback rid' p state code cookie now => exact came_callback ht
  | response rid' http clock =>
      simp only [External.step] at ht
      split at ht
      · exact .kept t ht
      · next t₀ htask =>
          split at ht
          · next jwks failure hrespond =>
              obtain ⟨answer, -, hanswer⟩ := raise_ends h hretry htask jwks failure
              rw [hanswer] at ht
              exact .kept t (slot_clear ht).2
          · next jwks phase hrespond =>
              rcases slot_set ht with ⟨-, hkept⟩ | ⟨rfl, rfl⟩
              · exact .kept t hkept
              · refine .moved t₀ phase htask ?_
                rintro rfl
                exact respond_discovering hrespond
  | user rid' uid sessionId =>
      simp only [External.step] at ht
      split at ht
      · exact .kept t ht
      · next t₀ htask => exact came_findUser h hretry htask ht
  | bundle rid' fresh activeKid now =>
      simp only [External.step] at ht
      split at ht
      · exact .kept t ht
      · exact .kept t (tasks_handOut ht)

/-! ## The token requests -/

theorem discovers_eq_some {l : Step} {t : Task} {metadata : ProviderMetadata}
    (h : discovers o s l = some (t, metadata)) : ∃ rid http clock, l = .response rid http clock ∧
      s.tasks rid = some t ∧ t.phase = .discovering ∧ googleDiscover o http = .ok metadata := by
  unfold discovers at h
  split at h
  · next rid http clock =>
      split at h
      · cases h
      · next t' ht =>
          split at h
          · next hphase hdiscover =>
              cases h
              exact ⟨rid, http, clock, rfl, ht, hphase, hdiscover⟩
          · cases h
  · cases h

/-- Without a discovery only Naver's callbacks post. -/
theorem sends_of_none {l : Step} (h : discovers o s l = none) {e : Sent}
    (he : e ∈ sends o cfg secrets s l) : e.provider = .naver := by
  unfold sends at he
  rw [h] at he
  split at he
  · next hsome => cases hsome
  · split at he
    · cases he
    · rw [List.mem_singleton.mp he]
  · cases he

theorem sends_of_some (cfg : Settings) (secrets : Secrets) {l : Step} {t : Task}
    {metadata : ProviderMetadata} (h : discovers o s l = some (t, metadata)) :
    sends o cfg secrets s l =
      [⟨t.request.provider, t.request.state,
        googleTokenRequest cfg secrets metadata t.request.code t.flow⟩] := by
  unfold sends
  rw [h]

/-- A callback that discovered goes on to the exchange. -/
theorem step_discovers {rid : ℕ} {http : Http} {clock : Time} {t : Task}
    {metadata : ProviderMetadata} (ht : s.tasks rid = some t) (hphase : t.phase = .discovering)
    (hdiscover : googleDiscover o http = .ok metadata) :
    External.step env o cfg s (.response rid http clock) = s.move rid t (.exchanging metadata) := by
  simp only [External.step, ht, respond, hphase, hdiscover]

/-- A step keeps the redemptions of every store. -/
theorem redeemed_step {l : Step} (hl : FreshState s l) {p : Provider} {state : String}
    {flow : ExternalFlow} {presented : Presented}
    (h : .redeemed state flow presented ∈ (s.flows p).flows.log) :
    .redeemed state flow presented ∈ ((External.step env o cfg s l).flows p).flows.log := by
  have hf := flows_step env o cfg s hl
  generalize External.step env o cfg s l = s' at hf ⊢
  cases hf with
  | same hflows hredirected =>
      rw [hflows]
      exact h
  | redeemed q state' flow' presented' store hlog hflows hredirected =>
      exact (log_update hflows hlog p _).mpr (Or.inl h)
  | issued q state' flow' store http auth hnew hstate hchallenge hlog hauth hflows hredirected =>
      exact (log_update hflows hlog p _).mpr (Or.inl h)

theorem sentFor_step (x : Wire) (l : Step) (p : Provider) (state : String) :
    (step env o cfg secrets x l).sentFor p state =
      (((sends o cfg secrets x.server l).filter fun e => e.provider = p && e.state = state).map
        Sent.request) ++ x.sentFor p state := by
  unfold Wire.sentFor step
  rw [List.filter_append, List.map_append]

/-- Posts of other callbacks. -/
theorem sentFor_other {x : Wire} {l : Step} {p : Provider} {state : String}
    (h : ∀ e ∈ sends o cfg secrets x.server l, ¬(e.provider = p ∧ e.state = state)) :
    (step env o cfg secrets x l).sentFor p state = x.sentFor p state := by
  rw [sentFor_step, List.filter_eq_nil_iff.mpr, List.map_nil, List.nil_append]
  intro e he
  rw [Bool.and_eq_true, decide_eq_true_eq, decide_eq_true_eq]
  exact h e he

/-- What the history tells: a callback that waits for the discovery has sent nothing, one that
    discovered has sent the request of its flow, and Kakao's never send. -/
structure Traced (env : Env) (o : Outside) (cfg : Settings) (secrets : Secrets) (x : Wire) :
    Prop where
  server : Inv o cfg x.server
  redirects : Redirects env o cfg x.server
  noRetry : NoRetry x.server
  waiting : ∀ rid t, x.server.tasks rid = some t → t.phase = .discovering →
    t.request.state ∉ x.discovered
  sent : ∀ state ∈ x.discovered, ∃ flow presented metadata code,
    .redeemed state flow presented ∈ (x.server.flows .google).flows.log ∧
      x.sentFor .google state = [googleTokenRequest cfg secrets metadata code flow]
  unsent : ∀ state, state ∉ x.discovered → x.sentFor .google state = []
  kakao : ∀ state, x.sentFor .kakao state = []

theorem traced_start (env : Env) (o : Outside) (cfg : Settings) (secrets : Secrets) (db : Db) :
    Traced env o cfg secrets (.start db) := by
  refine ⟨inv_start o cfg db, redirects_start env o cfg db, ?_, ?_, ?_, fun _ _ => rfl,
    fun _ => rfl⟩
  · intro rid t ht
    cases ht
  · intro rid t ht
    cases ht
  · intro state hstate
    cases hstate

theorem noRetry_step (h : Inv o cfg s) (hretry : NoRetry s) (l : Step) :
    NoRetry (External.step env o cfg s l) := by
  intro rid t ht
  cases came_step h hretry l ht with
  | kept t ht => exact hretry rid t ht
  | consumed => rfl
  | moved t' phase ht' hphase => exact hretry rid t' ht'

/-- A discovered state was consumed. -/
theorem Traced.spent {x : Wire} (h : Traced env o cfg secrets x) {state : String}
    (hstate : state ∈ x.discovered) : state ∈ (x.server.flows .google).flows.spent := by
  obtain ⟨flow, presented, -, -, hredeemed, -⟩ := h.sent state hstate
  exact Tickets.mem_spent.mpr ⟨flow, presented, hredeemed⟩

/-- A callback that waits after a step for a discovery that was not completed by it. -/
theorem Traced.waits {x : Wire} (h : Traced env o cfg secrets x) {l : Step}
    (hl : FreshState x.server l) {rid : ℕ} {t : Task}
    (ht : (External.step env o cfg x.server l).tasks rid = some t)
    (hphase : t.phase = .discovering) :
    t.request.state ∉ x.discovered ∧
      (x.server.tasks rid = some t ∨ t.request.state ∉ (x.server.flows .google).flows.spent) := by
  have hgoogle := google_of_discovering (inv_step x.server l h.server hl) ht hphase
  cases came_step h.server h.noRetry l ht with
  | kept t ht => exact ⟨h.waiting rid t ht hphase, Or.inl ht⟩
  | consumed p state code binding now flow store phase hconsume =>
      have hp : p = .google := hgoogle
      rw [hp] at hconsume
      have hnew := (h.server.stores .google).1.consume_new hconsume
      exact ⟨fun hd => hnew (h.spent hd), Or.inr hnew⟩
  | moved t phase ht hne => exact absurd hphase hne

theorem Traced.quiet {x : Wire} (h : Traced env o cfg secrets x) {l : Step}
    (hl : FreshState x.server l) (hnone : discovers o x.server l = none) :
    Traced env o cfg secrets (step env o cfg secrets x l) := by
  have hdiscovered : (step env o cfg secrets x l).discovered = x.discovered := by
    unfold step
    rw [hnone]
    rfl
  have hsent : ∀ p state, p ≠ .naver →
      (step env o cfg secrets x l).sentFor p state = x.sentFor p state := by
    intro p state hp
    refine sentFor_other ?_
    rintro e he ⟨hprovider, -⟩
    exact hp (hprovider.symm.trans (sends_of_none hnone he))
  refine ⟨inv_step x.server l h.server hl, h.redirects.step hl,
    noRetry_step h.server h.noRetry l, ?_, ?_, ?_, ?_⟩
  · intro rid t ht hphase
    rw [hdiscovered]
    exact (h.waits hl ht hphase).1
  · intro state hstate
    rw [hdiscovered] at hstate
    obtain ⟨flow, presented, metadata, code, hredeemed, hone⟩ := h.sent state hstate
    refine ⟨flow, presented, metadata, code, redeemed_step hl hredeemed, ?_⟩
    rw [hsent _ _ (by simp)]
    exact hone
  · intro state hstate
    rw [hdiscovered] at hstate
    rw [hsent _ _ (by simp)]
    exact h.unsent state hstate
  · intro state
    rw [hsent _ _ (by simp)]
    exact h.kakao state

/-- The step that completes a discovery. -/
theorem Traced.discover {x : Wire} (h : Traced env o cfg secrets x) {l : Step}
    (hl : FreshState x.server l) {t : Task} {metadata : ProviderMetadata}
    (hsome : discovers o x.server l = some (t, metadata)) :
    Traced env o cfg secrets (step env o cfg secrets x l) := by
  obtain ⟨rid, http, clock, hresponse, ht, hphase, hdiscover⟩ := discovers_eq_some hsome
  have hgoogle := google_of_discovering h.server ht hphase
  have hnew := h.waiting rid t ht hphase
  have hdiscovered : (step env o cfg secrets x l).discovered =
      t.request.state :: x.discovered := by
    unfold step
    rw [hsome]
    rfl
  have hsends := sends_of_some cfg secrets hsome
  have hother : ∀ p state, ¬(t.request.provider = p ∧ t.request.state = state) →
      (step env o cfg secrets x l).sentFor p state = x.sentFor p state := by
    intro p state hne
    refine sentFor_other ?_
    rw [hsends]
    simpa using hne
  refine ⟨inv_step x.server l h.server hl, h.redirects.step hl,
    noRetry_step h.server h.noRetry l, ?_, ?_, ?_, ?_⟩
  · intro rid' t' ht' hphase'
    rw [hdiscovered, List.mem_cons, not_or]
    obtain ⟨hwaits, hfrom⟩ := h.waits hl ht' hphase'
    refine ⟨?_, hwaits⟩
    intro hstate
    rcases hfrom with hkept | hunspent
    · -- the callback that discovered has moved on, and no other one consumed its state
      have hgoogle' := google_of_discovering h.server hkept hphase'
      have hrid := rid_unique h.server h.noRetry hkept ht (hgoogle'.trans hgoogle.symm) hstate
      rw [hrid, hresponse] at ht'
      have hmoved : (External.step env o cfg x.server (.response rid http clock)).tasks rid =
          some { t with phase := .exchanging metadata } := by
        rw [step_discovers ht hphase hdiscover]
        exact Function.update_self ..
      have he := Option.some.inj (hmoved.symm.trans ht')
      rw [← he] at hphase'
      cases hphase'
    · have hspent := spent_of_task h.server h.noRetry ht
      rw [hgoogle, ← hstate] at hspent
      exact hunspent hspent
  · intro state hstate
    rw [hdiscovered] at hstate
    by_cases hst : t.request.state = state
    · have hredeemed := (h.server.tasks rid t ht).redeemed (h.noRetry rid t ht)
      rw [hgoogle, hst] at hredeemed
      refine ⟨t.flow, t.request.presented, metadata, t.request.code,
        redeemed_step hl hredeemed, ?_⟩
      rw [sentFor_step, hsends, h.unsent state (hst ▸ hnew)]
      simp [hgoogle, hst]
    · rcases List.mem_cons.mp hstate with he | hstate
      · exact absurd he.symm hst
      · obtain ⟨flow, presented, metadata', code, hredeemed, hone⟩ := h.sent state hstate
        refine ⟨flow, presented, metadata', code, redeemed_step hl hredeemed, ?_⟩
        rw [hother _ _ fun he => hst he.2]
        exact hone
  · intro state hstate
    rw [hdiscovered, List.mem_cons, not_or] at hstate
    rw [hother _ _ fun he => hstate.1 he.2.symm]
    exact h.unsent state hstate.2
  · intro state
    rw [hother _ _ fun he => by rw [hgoogle] at he; cases he.1]
    exact h.kakao state

theorem traced_step (x : Wire) (l : Step) (h : Traced env o cfg secrets x)
    (hl : FreshState x.server l) : Traced env o cfg secrets (step env o cfg secrets x l) := by
  cases hd : discovers o x.server l with
  | none => exact h.quiet hl hd
  | some d => exact h.discover hl hd

/-- The states of the logins are new in the run with the history too. -/
theorem along_server {x : Wire} {ls : List Step}
    (h : Along (External.step env o cfg) FreshState x.server ls) :
    Along (step env o cfg secrets) (fun x l => FreshState x.server l) x ls := by
  induction ls generalizing x with
  | nil => trivial
  | cons l ls ih => exact ⟨h.1, ih h.2⟩

theorem traced_run {db : Db} {ls : List Step}
    (h : Along (External.step env o cfg) FreshState (.start db) ls) :
    Traced env o cfg secrets (run (step env o cfg secrets) (.start db) ls) :=
  run_invariant (step env o cfg secrets) (Traced env o cfg secrets) traced_step
    (traced_start env o cfg secrets db) (along_server h)

/-- The request of a Google callback that discovered is bound. -/
theorem Traced.bound {x : Wire} (h : Traced env o cfg secrets x) {state : String}
    (hdiscovered : state ∈ x.discovered) :
    ∃ request verifier, Bound env x .google state request verifier := by
  obtain ⟨flow, presented, metadata, code, hredeemed, hone⟩ := h.sent state hdiscovered
  have hsub := (Tickets.Sound.redeemed (h.server.stores .google).1 _ _ _ hredeemed).2
  have hissued := hsub.subset (List.mem_cons_of_mem _ List.mem_cons_self)
  have hunique : ∀ flow', .issued state flow' ∈ (x.server.flows .google).flows.log →
      flow' = flow := fun flow' hissued' =>
    Tickets.issued_unique (h.redirects.once .google) hissued' hissued
  obtain ⟨hchallenge, http, auth, hstate, hauth, hrequest⟩ :=
    h.redirects.issued .google state flow hissued
  obtain ⟨huri, hverifier⟩ := google_carries cfg secrets metadata code flow
  refine ⟨_, flow.codeVerifier, hone, hverifier, ⟨flow, hissued⟩, ?_, ⟨auth, hauth, ?_⟩, ?_⟩
  · intro flow' hissued'
    rw [hunique flow' hissued']
    exact huri
  · rw [(authorizationRequest_carries hrequest).1, hstate]
  · intro auth' hauth' hlookup
    obtain ⟨http', flow', hissued', hrequest'⟩ := h.redirects.redirected .google auth' hauth'
    obtain ⟨hstate', hcarried⟩ := authorizationRequest_carries hrequest'
    rw [hlookup] at hstate'
    rw [← Option.some.inj hstate'] at hissued'
    rw [hcarried (by simp), hunique flow' hissued', hchallenge]

/-- PKCE is bound at the token endpoint for each of Google's callbacks and for none of Kakao's. -/
theorem bound_iff_google (env : Env) (o : Outside) (cfg : Settings) (secrets : Secrets) (db : Db)
    (ls : List Step) (hfresh : Along (External.step env o cfg) FreshState (.start db) ls)
    (p : Provider) (state : String) :
    let x := run (step env o cfg secrets) (.start db) ls
    Exchanging x p state → ((∃ request verifier, Bound env x p state request verifier) ↔
      p = .google) := by
  intro x hx
  have htraced : Traced env o cfg secrets x := traced_run hfresh
  refine ⟨?_, ?_⟩
  · rintro ⟨request, verifier, hbound⟩
    cases p with
    | google => rfl
    | naver => exact absurd rfl hx.1
    | kakao =>
        have honce := hbound.once
        rw [htraced.kakao state] at honce
        cases honce
  · rintro rfl
    exact htraced.bound (hx.2.2 rfl)

/-- The Google callback of the two logins. -/
theorem two_logins_bound : ∃ request verifier,
    Bound plainEnv (run (step plainEnv labOutside labSettings labSecrets) (.start labDb) twoLogins)
      .google "state-2" request verifier :=
  (bound_iff_google plainEnv labOutside labSettings labSecrets labDb twoLogins (by decide +kernel)
    .google "state-2" ⟨by decide, by decide +kernel, fun _ => by decide +kernel⟩).mpr rfl

end TemisLab.External.Exchanges
