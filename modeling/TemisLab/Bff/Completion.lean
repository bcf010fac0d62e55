/-
  One login from the redirect of the BFF to its session, among everything else that reaches the two
  servers. Its twelve steps come in their order; between them any others come, with any content, as
  long as none presents a one-time token of this login that is still live.

  * `Attempt`: what a login sends and draws, and when; `Attempt.script`: its steps.
  * `Attempt.At`: where it stands after its first steps. The steps of others keep that
    (`kept_other`), its own take it one further (`at_own`).
  * `login_completes`: it ends in a session of the user that its account is for.

  The account has a user when it is looked up (`Served`). `_oauth_user` looks it up and inserts it
  in two statements, so of two first logins of one account at a time the second one ends in an
  `IntegrityError`.
-/
import TemisLab.Bff.Handshake

namespace TemisLab.Bff

open TemisLab.Lib TemisLab.Sso

/-! ## A login and its steps -/

/-- What one login sends and draws on both servers, the ids of its requests, and when its steps
    are. -/
structure Attempt where
  browser : ℕ
  returnTo : String
  path : String
  state : String
  verifier : String
  begunAt : Time
  authorizeRid : ℕ
  providerState : String
  askedAt : Time
  approveRid : ℕ
  account : String
  providerCode : String
  approvedAt : Time
  callbackRid : ℕ
  calledBackAt : Time
  exchangedAt : Time
  uid : String
  code : String
  codedAt : Time
  rid : ℕ
  returnedAt : Time
  tokenRid : ℕ
  postedAt : Time
  fresh : String
  activeKid : Option String
  bundledAt : Time
  sessionId : String
  csrfToken : String
  createdAt : Time

namespace Attempt

/-- The query that `begin` sends the browser to the SSO with. -/
def query (v : Attempt) (cfg : Config) (env : Env) : OAuth.AuthorizeQuery where
  clientId := cfg.clientId
  redirectUri := cfg.redirectUri
  state := v.state
  codeChallenge := OAuth.pkceChallenge env v.verifier

/-- What `authorize` keeps of it. -/
def transaction (v : Attempt) (cfg : Config) (env : Env) : OAuth.OAuthTransaction where
  clientId := cfg.clientId
  redirectUri := cfg.redirectUri
  codeChallenge := OAuth.pkceChallenge env v.verifier
  provider := "lab-provider"
  clientState := v.state

/-- The request that the BFF's body parses into. -/
def request (v : Attempt) (cfg : Config) : OAuth.TokenRequest where
  grantType := "authorization_code"
  clientId := cfg.clientId
  redirectUri := cfg.redirectUri
  code := v.code
  codeVerifier := v.verifier

/-- What the BFF keeps of the login. -/
def loginTransaction (v : Attempt) : LoginTransaction := ⟨v.verifier, v.path⟩

/-- The steps of the login. -/
def script (v : Attempt) (cfg : Config) (env : Env) : List RealmStep :=
  [.bff (.login v.browser v.returnTo v.state v.verifier v.begunAt),
    .sso (.authorize v.authorizeRid (v.query cfg env) v.providerState v.askedAt),
    .sso (.fakeAuthorize v.approveRid v.providerState v.account v.providerCode v.approvedAt),
    .sso (.callback v.callbackRid v.providerState v.providerCode v.calledBackAt),
    .sso (.exchange v.callbackRid v.exchangedAt), .sso (.login v.callbackRid v.uid),
    .sso (.issueCode v.callbackRid v.code v.codedAt),
    .bff (.callback v.rid v.browser v.state v.code v.returnedAt),
    .post v.rid v.tokenRid v.postedAt,
    .sso (.bundle v.tokenRid v.fresh v.activeKid v.bundledAt), .respond v.rid,
    .bff (.create v.rid v.sessionId v.csrfToken v.createdAt)]

/-- The draws of the SSO's state and the provider code. -/
def draws (v : Attempt) : OAuth.Label → Bool
  | .authorize _ _ raw _ => raw = v.providerState
  | .fakeAuthorize _ _ _ raw _ => raw = v.providerCode
  | _ => false

/-- A step of a request of the login, or one that draws what the login draws. -/
def mine (v : Attempt) : RealmStep → Bool
  | .sso l => l.owner = some v.callbackRid || l.owner = some v.tokenRid || v.draws l
  | .bff (.login _ _ state _ _) => state = v.state
  | .bff (.callback rid _ _ _ _) => rid = v.rid
  | .bff (.exchanged rid _) => rid = v.rid
  | .bff (.create rid sessionId _ _) => rid = v.rid || sessionId = v.sessionId
  | .post rid ssoRid _ => rid = v.rid || ssoRid = v.callbackRid || ssoRid = v.tokenRid
  | .respond rid => rid = v.rid
  | .fail rid => rid = v.rid

/-- The keys of the SSO's one-time values that the login uses. -/
def keys (v : Attempt) (env : Env) : List String :=
  [OAuth.key env .oauth v.providerState, OAuth.key env .providerCode v.providerCode,
    OAuth.key env .authorizationCode v.code]

end Attempt

/-! ## One-time values that are presented -/

/-- The key of the one-time value that a step of the SSO presents. -/
def ssoPresents (env : Env) (s : OAuth.Sys) : OAuth.Label → Option String
  | .callback _ state _ _ => some (OAuth.key env .oauth state)
  | .exchange rid _ =>
      match s.tasks rid with
      | some (.exchange _ code _) => some (OAuth.key env .providerCode code)
      | _ => none
  | .token _ form _ =>
      (form.bind OAuth.TokenRequest.ofForm).map fun r => OAuth.key env .authorizationCode r.code
  | _ => none

/-- The key of the SSO's one-time value that a step presents. -/
def Realm.presents (cfg : Config) (env : Env) (x : Realm) : RealmStep → Option String
  | .sso l => ssoPresents env x.sso l
  | .post rid _ _ =>
      match x.bff.tasks rid with
      | some (.exchanging _ _ code transaction) =>
          (OAuth.requestOf (tokenBody cfg code transaction.verifier)).map fun r =>
            OAuth.key env .authorizationCode r.code
      | _ => none
  | _ => none

/-- The state of a login that a step presents to the BFF. -/
def returnsWith : RealmStep → Option String
  | .bff (.callback _ _ state _ _) => some state
  | _ => none

namespace Attempt

/-- Nobody else presents a token of the login while it is live. -/
def Spared (v : Attempt) (cfg : Config) (env : Env) (x : Realm) (l : RealmStep) : Prop :=
  v.mine l = false →
    (∀ k ∈ v.keys env, x.presents cfg env l = some k → x.sso.redis.live k = none) ∧
      (returnsWith l = some v.state → x.bff.redis.live (oauthKey env v.state) = none)

/-- What the database has to offer: a user of the account when it is looked up, and at the end an
    active user, a signing key and a refresh token that is new. -/
def Served (v : Attempt) (env : Env) (subject : String) (x : Realm) : RealmStep → Prop
  | .sso (.login rid _) => rid = v.callbackRid →
      (userByEmail env x.sso.db (subject ++ "@oauth.lab.invalid")).isSome = true
  | .sso (.bundle rid fresh activeKid _) => rid = v.tokenRid →
      (∀ c ∈ x.sso.coded, c.code = v.code → x.sso.db.isActive c.login.userId = true) ∧
        activeKid ≠ none ∧ x.sso.db.refreshGrants.get (tokenDigest env fresh) = none
  | _ => True

/-- The login is for a registered client, its texts have the lengths that are asked for, its account
    is one of the provider's, and its steps come in time. -/
structure Honest (v : Attempt) (cfg : Config) (env : Env) (policy : OAuth.ClientPolicy)
    (subject : String) : Prop where
  path : cfg.safeReturnPath v.returnTo = some v.path
  client : OAuth.requireClient cfg.clientId cfg.redirectUri = .ok policy
  state : 16 ≤ v.state.length ∧ v.state.length ≤ 256
  challenge : 43 ≤ (OAuth.pkceChallenge env v.verifier).length ∧
    (OAuth.pkceChallenge env v.verifier).length ≤ 128
  verifier : 43 ≤ v.verifier.length ∧ v.verifier.length ≤ 128
  account : OAuth.accounts.lookup v.account = some ⟨"lab-provider", subject⟩
  code : v.code ≠ ""
  calledBack : v.calledBackAt < v.askedAt + 300
  exchanged : v.exchangedAt < v.approvedAt + 60
  returned : v.returnedAt < v.begunAt + 300
  posted : v.postedAt < v.codedAt + 60

end Attempt

/-! ## Where a login stands -/

/-- The code of the login, for the user that `_oauth_user` gave its account. -/
structure Attempt.Codes (v : Attempt) (cfg : Config) (env : Env) (policy : OAuth.ClientPolicy)
    (subject : String) (x : Realm) (c : OAuth.Coded) : Prop where
  coded : c ∈ x.sso.coded
  code : c.code = v.code
  transaction : c.transaction = v.transaction cfg env
  policy : c.policy = policy
  subject : c.login.subject = subject
  ran : c.login.Ran env

/-- The login has ended in a session of the user of its account, with the tokens of its bundle. -/
structure Attempt.Completed (v : Attempt) (cfg : Config) (env : Env)
    (encode : AccessToken → String) (policy : OAuth.ClientPolicy) (subject : String) (x : Realm)
    (c : OAuth.Coded) (b : TokenBundle) : Prop where
  codes : v.Codes cfg env policy subject x c
  redeemed : ⟨v.request cfg, b⟩ ∈ x.sso.redeemed
  user : b.userId = c.login.userId
  session : x.bff.sessions (sessionKey env v.sessionId) =
    some ((tokensIn encode b).session v.csrfToken, v.createdAt + cfg.sessionTtl)
  answered : ⟨v.browser, v.state, .session v.sessionId v.path⟩ ∈ x.bff.answered

section Stands

variable (v : Attempt) (cfg : Config) (env : Env) (encode : AccessToken → String)
  (policy : OAuth.ClientPolicy) (subject : String) (x : Realm)

/-- The BFF has the transaction of the login. -/
def Attempt.Waits : Prop :=
  x.bff.redis.live (oauthKey env v.state) = some (v.loginTransaction, v.begunAt + 300)

/-- The SSO has it. -/
def Attempt.Asked : Prop :=
  x.sso.redis.live (OAuth.key env .oauth v.providerState) =
    some ((v.transaction cfg env).asdict, v.askedAt + 300)

/-- The provider code is good. -/
def Attempt.Approved : Prop :=
  x.sso.redis.live (OAuth.key env .providerCode v.providerCode) =
    some (OAuth.ProviderIdentity.result ⟨"lab-provider", subject⟩ v.providerState,
      v.approvedAt + 60)

/-- The code is good. -/
def Attempt.Coded (c : OAuth.Coded) : Prop :=
  v.Codes cfg env policy subject x c ∧
    x.sso.redis.live (OAuth.key env .authorizationCode v.code) =
      some (OAuth.codeGrant c.login.userId policy (v.transaction cfg env), v.codedAt + 60)

/-- The BFF's callback awaits the answer to its exchange. -/
def Attempt.Exchanging : Prop :=
  x.bff.tasks v.rid = some (.exchanging v.browser v.state v.code v.loginTransaction)

/-- After the first `n` steps of the login. -/
def Attempt.At : ℕ → Prop
  | 0 => True
  | 1 => v.Waits env x
  | 2 => v.Waits env x ∧ v.Asked cfg env x
  | 3 => v.Waits env x ∧ v.Asked cfg env x ∧ v.Approved env subject x
  | 4 => v.Waits env x ∧ v.Approved env subject x ∧
      x.sso.tasks v.callbackRid =
        some (.exchange v.providerState v.providerCode (some (v.transaction cfg env)))
  | 5 => v.Waits env x ∧
      x.sso.tasks v.callbackRid =
        some (.login v.providerState v.providerCode (v.transaction cfg env) policy subject)
  | 6 => v.Waits env x ∧ ∃ l : OAuth.Login, l.subject = subject ∧ l.Ran env ∧
      x.sso.tasks v.callbackRid =
        some (.issueCode v.providerState v.providerCode (v.transaction cfg env) policy l)
  | 7 => v.Waits env x ∧ ∃ c, v.Coded cfg env policy subject x c
  | 8 => v.Exchanging x ∧ x.posted v.rid = none ∧ ∃ c, v.Coded cfg env policy subject x c
  | 9 => v.Exchanging x ∧ x.posted v.rid = some v.tokenRid ∧
      ∃ c, v.Codes cfg env policy subject x c ∧
        x.sso.tasks v.tokenRid =
          some (.bundle (v.request cfg)
            (OAuth.codeGrant c.login.userId policy (v.transaction cfg env)) policy)
  | 10 => v.Exchanging x ∧ x.posted v.rid = some v.tokenRid ∧
      ∃ c b, v.Codes cfg env policy subject x c ∧ ⟨v.request cfg, b⟩ ∈ x.sso.redeemed ∧
        b.userId = c.login.userId ∧ x.sso.tasks v.tokenRid = some (.answered (.bundle b))
  | 11 => ∃ c b, v.Codes cfg env policy subject x c ∧ ⟨v.request cfg, b⟩ ∈ x.sso.redeemed ∧
      b.userId = c.login.userId ∧
      x.bff.tasks v.rid =
        some (.creating v.browser v.state v.loginTransaction (tokensIn encode b))
  | _ => ∃ c b, v.Completed cfg env encode policy subject x c b

end Stands

/-! ## The steps of others -/

/-- What is kept while others move. -/
structure Attempt.Kept (v : Attempt) (env : Env) (x x' : Realm) : Prop where
  sso : ∀ k ∈ v.keys env, ∀ w, x.sso.redis.live k = some w → x'.sso.redis.live k = some w
  bff : ∀ w, x.bff.redis.live (oauthKey env v.state) = some w →
    x'.bff.redis.live (oauthKey env v.state) = some w
  callbackTask : x'.sso.tasks v.callbackRid = x.sso.tasks v.callbackRid
  tokenTask : x'.sso.tasks v.tokenRid = x.sso.tasks v.tokenRid
  task : x'.bff.tasks v.rid = x.bff.tasks v.rid
  unposted : x.posted v.rid = none → x'.posted v.rid = none
  posted : x.posted v.rid = some v.tokenRid → x'.posted v.rid = some v.tokenRid
  coded : x.sso.coded ⊆ x'.sso.coded
  redeemed : x.sso.redeemed ⊆ x'.sso.redeemed
  session : x'.bff.sessions (sessionKey env v.sessionId) =
    x.bff.sessions (sessionKey env v.sessionId)
  answered : x.bff.answered ⊆ x'.bff.answered

variable {cfg : Config} {env : Env} {encode : AccessToken → String}
  {policy : OAuth.ClientPolicy} {subject : String} {v : Attempt} {x x' : Realm}

theorem Attempt.Kept.refl (x : Realm) : v.Kept env x x :=
  ⟨fun _ _ _ h => h, fun _ h => h, rfl, rfl, rfl, fun h => h, fun h => h, List.Subset.refl _,
    List.Subset.refl _, rfl, List.Subset.refl _⟩

theorem Attempt.Codes.kept {c : OAuth.Coded} (h : v.Codes cfg env policy subject x c)
    (hk : v.Kept env x x') : v.Codes cfg env policy subject x' c :=
  { h with coded := hk.coded h.coded }

theorem Attempt.Coded.kept {c : OAuth.Coded} (h : v.Coded cfg env policy subject x c)
    (hk : v.Kept env x x') : v.Coded cfg env policy subject x' c :=
  ⟨h.1.kept hk, hk.sso _ (by simp [keys]) _ h.2⟩

/-- Where the login stands it stays. -/
theorem Attempt.At.kept {n : ℕ} (h : v.At cfg env encode policy subject x n)
    (hk : v.Kept env x x') : v.At cfg env encode policy subject x' n := by
  have hwaits : v.Waits env x → v.Waits env x' := hk.bff _
  have hasked : v.Asked cfg env x → v.Asked cfg env x' := hk.sso _ (by simp [keys]) _
  have happroved : v.Approved env subject x → v.Approved env subject x' :=
    hk.sso _ (by simp [keys]) _
  have hexchanging : v.Exchanging x → v.Exchanging x' := hk.task.trans
  match n with
  | 0 => trivial
  | 1 => exact hwaits h
  | 2 => exact ⟨hwaits h.1, hasked h.2⟩
  | 3 => exact ⟨hwaits h.1, hasked h.2.1, happroved h.2.2⟩
  | 4 => exact ⟨hwaits h.1, happroved h.2.1, hk.callbackTask.trans h.2.2⟩
  | 5 => exact ⟨hwaits h.1, hk.callbackTask.trans h.2⟩
  | 6 =>
      obtain ⟨hw, l, hsubject, hran, htask⟩ := h
      exact ⟨hwaits hw, l, hsubject, hran, hk.callbackTask.trans htask⟩
  | 7 =>
      obtain ⟨hw, c, hc⟩ := h
      exact ⟨hwaits hw, c, hc.kept hk⟩
  | 8 =>
      obtain ⟨he, hp, c, hc⟩ := h
      exact ⟨hexchanging he, hk.unposted hp, c, hc.kept hk⟩
  | 9 =>
      obtain ⟨he, hp, c, hc, htask⟩ := h
      exact ⟨hexchanging he, hk.posted hp, c, hc.kept hk, hk.tokenTask.trans htask⟩
  | 10 =>
      obtain ⟨he, hp, c, b, hc, hr, hb, htask⟩ := h
      exact ⟨hexchanging he, hk.posted hp, c, b, hc.kept hk, hk.redeemed hr, hb,
        hk.tokenTask.trans htask⟩
  | 11 =>
      obtain ⟨c, b, hc, hr, hb, htask⟩ := h
      exact ⟨c, b, hc.kept hk, hk.redeemed hr, hb, hk.task.trans htask⟩
  | n + 12 =>
      obtain ⟨c, b, hc⟩ := h
      exact ⟨c, b, hc.codes.kept hk, hk.redeemed hc.redeemed, hc.user,
        hk.session.trans hc.session, hk.answered hc.answered⟩

/-- A one-time value of the SSO stays until it is presented. -/
theorem ssoLive_step {s : OAuth.Sys} (hs : s.Inv env) {l : OAuth.Label} (hl : OAuth.Fresh s l)
    {k : String} {w : OAuth.Value × Time} (hlive : s.redis.live k = some w)
    (hk : ssoPresents env s l ≠ some k) : (OAuth.step env s l).redis.live k = some w := by
  have hne : ∀ {k'}, ssoPresents env s l = some k' → k ≠ k' := by
    rintro k' hp rfl
    exact hk hp
  cases l with
  | authorize rid query raw now =>
      simp only [OAuth.step, OAuth.authorize]
      split
      · exact hlive
      · exact OneTime.live_put_of_new (hs.issued_eq_none hl .oauth) _ _ hlive
  | fakeAuthorize rid state account raw now =>
      simp only [OAuth.step, OAuth.fakeAuthorize]
      split
      · exact hlive
      · exact OneTime.live_put_of_new (hs.issued_eq_none hl .providerCode) _ _ hlive
  | callback rid state code now =>
      have htake := (OneTime.live_take_of_ne (hne rfl) s.redis rid now).trans hlive
      simp only [OAuth.step, OAuth.callback]
      split
      · exact htake
      · split <;> exact htake
  | exchange rid now =>
      simp only [OAuth.step]
      split
      · next state code transaction htask =>
          have hp : ssoPresents env s (.exchange rid now) =
              some (OAuth.key env .providerCode code) := by
            simp only [ssoPresents, htask]
          have htake := (OneTime.live_take_of_ne (hne hp) s.redis rid now).trans hlive
          unfold OAuth.exchange
          dsimp only [OAuth.providerExchange]
          split
          · exact htake
          · split <;> exact htake
      · exact hlive
  | login rid uid =>
      simp only [OAuth.step]
      split
      · unfold OAuth.login
        split <;> exact hlive
      · exact hlive
  | issueCode rid raw now =>
      simp only [OAuth.step]
      split
      · exact OneTime.live_put_of_new (hs.issued_eq_none hl .authorizationCode) _ _ hlive
      · exact hlive
  | token rid form now =>
      by_contra hgone
      have hchange : (OAuth.token env s rid form now).redis.live k ≠ s.redis.live k := by
        rw [hlive]
        exact hgone
      obtain ⟨r, hr, rfl⟩ := OAuth.token_live hchange
      refine hk ?_
      simp only [ssoPresents, Option.mem_def.mp hr, Option.map_some]
  | bundle rid fresh activeKid now =>
      rw [OAuth.redis_step_bundle]
      exact hlive
  | drop rid => exact hlive
  | other db => exact hlive

theorem coded_step (s : OAuth.Sys) (l : OAuth.Label) : s.coded ⊆ (OAuth.step env s l).coded := by
  cases l with
  | issueCode rid raw now =>
      simp only [OAuth.step]
      split
      · exact List.subset_cons_self _ _
      · exact List.Subset.refl _
  | _ =>
      simp only [OAuth.step, OAuth.authorize, OAuth.fakeAuthorize, OAuth.callback, OAuth.exchange,
        OAuth.providerExchange, OAuth.login, OAuth.token, OAuth.bundle]
      repeat' split
      all_goals exact List.Subset.refl _

/-- A login transaction of the BFF stays until its state comes back. -/
theorem bffLive_step (henv : Function.Injective env.sha256) {s : Server} (hs : Traced env s)
    {l : Step} (hl : FreshState s l) {state : String} {w : LoginTransaction × Time}
    (hlive : s.redis.live (oauthKey env state) = some w)
    (hback : returnsWith (.bff l) ≠ some state) :
    (Bff.step cfg env s l).redis.live (oauthKey env state) = some w := by
  have hne : ∀ state', state' ≠ state → oauthKey env state ≠ oauthKey env state' :=
    fun state' h he => h (oauthKey_inj henv he).symm
  have hd := step_did cfg env s l
  generalize Bff.step cfg env s l = s' at hd ⊢
  cases hd with
  | began browser returnTo state' verifier path now hpath =>
      obtain ⟨b, hb, hkey, -⟩ := hs.live _ w.1 w.2 hlive
      have hstate : state' ≠ state := by
        rintro rfl
        exact hl b hb (oauthKey_inj henv hkey)
      exact (Function.update_of_ne (hne state' hstate) _ _).trans hlive
  | took rid browser state' code now transaction hread =>
      have hstate : state' ≠ state := fun he => hback (congrArg some he)
      exact (OneTime.live_take_of_ne (hne state' hstate) s.redis rid now).trans hlive
  | missed rid browser state' code now hread =>
      have hstate : state' ≠ state := fun he => hback (congrArg some he)
      exact (OneTime.live_take_of_ne (hne state' hstate) s.redis rid now).trans hlive
  | _ => exact hlive

/-- The callback that a step of the BFF is of. -/
def stepRid : Step → Option ℕ
  | .login _ _ _ _ _ => none
  | .callback rid _ _ _ _ => some rid
  | .exchanged rid _ => some rid
  | .create rid _ _ _ => some rid

theorem bffTask_step {s : Server} {l : Step} {rid : ℕ} (h : stepRid l ≠ some rid) :
    (Bff.step cfg env s l).tasks rid = s.tasks rid := by
  have hne : ∀ {rid'}, stepRid l = some rid' → rid ≠ rid' := by
    rintro rid' hl rfl
    exact h hl
  have hd := step_did cfg env s l
  generalize Bff.step cfg env s l = s' at hd ⊢
  cases hd with
  | stayed => rfl
  | began => rfl
  | _ => exact Function.update_of_ne (hne rfl) _ _

theorem answered_step (s : Server) (l : Step) :
    s.answered ⊆ (Bff.step cfg env s l).answered := by
  have hd := step_did cfg env s l
  generalize Bff.step cfg env s l = s' at hd ⊢
  cases hd with
  | stayed => exact List.Subset.refl _
  | began => exact List.Subset.refl _
  | took => exact List.Subset.refl _
  | passed => exact List.Subset.refl _
  | _ => exact List.subset_cons_self _ _

/-- Only the request that draws its id creates a session. -/
theorem session_step (henv : Function.Injective env.sha256) {s : Server} {l : Step}
    {sessionId : String}
    (h : ∀ rid sessionId' csrfToken now, l = .create rid sessionId' csrfToken now →
      sessionId' ≠ sessionId) :
    (Bff.step cfg env s l).sessions (sessionKey env sessionId) =
      s.sessions (sessionKey env sessionId) := by
  have hd := step_did cfg env s l
  generalize Bff.step cfg env s l = s' at hd ⊢
  cases hd with
  | created rid browser state transaction tokens sessionId' csrfToken now htask =>
      refine Function.update_of_ne ?_ _ _
      intro he
      exact h rid sessionId' csrfToken now rfl (sessionKey_inj henv he).symm
  | _ => rfl

theorem unposted_eq_none {posted : ℕ → Option ℕ} {arrived : Option ℕ} {rid : ℕ}
    (h : posted rid = none) : unposted posted arrived rid = none := by
  unfold unposted
  rw [h]
  exact ite_self none

theorem unposted_eq_some {posted : ℕ → Option ℕ} {arrived : Option ℕ} {rid ssoRid : ℕ}
    (h : posted rid = some ssoRid) (ha : arrived ≠ some ssoRid) :
    unposted posted arrived rid = some ssoRid := by
  unfold unposted
  rw [h, if_neg (Ne.symm ha)]

theorem owner_of_arrives {l : OAuth.Label} {rid : ℕ} (h : arrives l = some rid) :
    l.owner = some rid := by
  cases l with
  | authorize => exact h
  | fakeAuthorize => exact h
  | callback => exact h
  | token => exact h
  | _ => cases h

/-- Another request of the SSO moves. -/
theorem kept_serve (hx : x.Linked cfg env encode) (l : OAuth.Label) (hl : OAuth.Fresh x.sso l)
    (hcallback : l.owner ≠ some v.callbackRid) (htoken : l.owner ≠ some v.tokenRid)
    (hpresents : ∀ k ∈ v.keys env, ssoPresents env x.sso l = some k → x.sso.redis.live k = none)
    {posted : ℕ → Option ℕ} (hnone : x.posted v.rid = none → posted v.rid = none)
    (hsome : x.posted v.rid = some v.tokenRid → posted v.rid = some v.tokenRid) :
    v.Kept env x { x with sso := OAuth.step env x.sso l, posted } where
  sso k hk w hlive := by
    refine ssoLive_step hx.sso hl hlive ?_
    intro hp
    rw [hpresents k hk hp] at hlive
    cases hlive
  bff _ hlive := hlive
  callbackTask := OAuth.tasks_step_of_other hcallback
  tokenTask := OAuth.tasks_step_of_other htoken
  task := rfl
  unposted := hnone
  posted := hsome
  coded := coded_step x.sso l
  redeemed := redeemed_step env x.sso l
  session := rfl
  answered := List.Subset.refl _

/-- Another request of the BFF moves. -/
theorem kept_move (henv : Function.Injective env.sha256) (hx : x.Linked cfg env encode) (l : Step)
    (hl : FreshState x.bff l) (hrid : stepRid l ≠ some v.rid)
    (hsession : ∀ rid sessionId csrfToken now, l = .create rid sessionId csrfToken now →
      sessionId ≠ v.sessionId)
    (hback : returnsWith (.bff l) = some v.state →
      x.bff.redis.live (oauthKey env v.state) = none)
    {posted : ℕ → Option ℕ} (hposted : posted v.rid = x.posted v.rid) (made : List Made) :
    v.Kept env x { x with bff := Bff.step cfg env x.bff l, posted, made } where
  sso _ _ _ hlive := hlive
  bff w hlive := by
    refine bffLive_step henv hx.bff hl hlive ?_
    intro he
    rw [hback he] at hlive
    cases hlive
  callbackTask := rfl
  tokenTask := rfl
  task := bffTask_step hrid
  unposted := hposted.trans
  posted := hposted.trans
  coded := List.Subset.refl _
  redeemed := List.Subset.refl _
  session := session_step henv hsession
  answered := answered_step x.bff l

/-- Who is not the login keeps what it has. -/
theorem kept_other (henv : Function.Injective env.sha256) (hx : x.Linked cfg env encode)
    {l : RealmStep} (hl : NewTokens env x l) (hmine : v.mine l = false)
    (hspared : v.Spared cfg env x l) : v.Kept env x (x.step cfg env encode l) := by
  obtain ⟨hpresents, hback⟩ := hspared hmine
  cases l with
  | sso l =>
      simp only [Attempt.mine, Bool.or_eq_false_iff, decide_eq_false_iff_not] at hmine
      obtain ⟨⟨hcallback, htoken⟩, -⟩ := hmine
      refine kept_serve hx l hl hcallback htoken hpresents unposted_eq_none ?_
      exact fun hp => unposted_eq_some hp fun ha => htoken (owner_of_arrives ha)
  | bff l =>
      cases l with
      | login browser returnTo state verifier now =>
          exact kept_move henv hx (.login browser returnTo state verifier now)
            (fun g hg => (hl g hg).1) (fun h => by cases h) (fun _ _ _ _ h => by cases h) hback
            rfl _
      | callback rid browser state code now =>
          simp only [Attempt.mine, decide_eq_false_iff_not] at hmine
          refine kept_move henv hx (.callback rid browser state code now) trivial
            (fun h => hmine (Option.some.inj h)) (fun _ _ _ _ h => by cases h) hback ?_ _
          exact Function.update_of_ne (Ne.symm hmine) _ _
      | exchanged rid outcome => exact .refl x
      | create rid sessionId csrfToken now =>
          simp only [Attempt.mine, Bool.or_eq_false_iff, decide_eq_false_iff_not] at hmine
          refine kept_move henv hx (.create rid sessionId csrfToken now) trivial
            (fun h => hmine.1 (Option.some.inj h)) ?_ hback rfl _
          rintro _ _ _ _ h
          cases h
          exact hmine.2
  | post rid ssoRid now =>
      simp only [Attempt.mine, Bool.or_eq_false_iff, decide_eq_false_iff_not] at hmine
      obtain ⟨⟨hrid, hcallback⟩, htoken⟩ := hmine
      simp only [Realm.step]
      split
      · next browser state code transaction htask hnone =>
          refine kept_serve hx
            (.token ssoRid (OAuth.formOf (tokenBody cfg code transaction.verifier)) now) trivial
            (fun h => hcallback (Option.some.inj h))
            (fun h => htoken (Option.some.inj h)) ?_ ?_ ?_
          · intro k hk hp
            refine hpresents k hk ?_
            simp only [Realm.presents, htask]
            exact hp
          · intro hp
            rw [Function.update_of_ne (Ne.symm hrid)]
            exact unposted_eq_none hp
          · intro hp
            rw [Function.update_of_ne (Ne.symm hrid)]
            exact unposted_eq_some hp fun ha => htoken (Option.some.inj ha)
      · exact .refl x
  | respond rid =>
      simp only [Attempt.mine, decide_eq_false_iff_not] at hmine
      simp only [Realm.step]
      split
      · next a ha =>
          refine kept_move henv hx (.exchanged rid (exchangedOf encode a)) trivial
            (fun h => hmine (Option.some.inj h)) (fun _ _ _ _ h => by cases h)
            (fun h => by cases h) ?_ _
          exact Function.update_of_ne (Ne.symm hmine) _ _
      · exact .refl x
  | fail rid =>
      simp only [Attempt.mine, decide_eq_false_iff_not] at hmine
      refine kept_move henv hx (.exchanged rid .raised) trivial
        (fun h => hmine (Option.some.inj h)) (fun _ _ _ _ h => by cases h)
        (fun h => by cases h) ?_ _
      exact Function.update_of_ne (Ne.symm hmine) _ _

/-! ## The steps of the login -/

namespace Attempt

theorem Honest.check (hv : v.Honest cfg env policy subject) :
    (v.query cfg env).check = .ok (v.transaction cfg env) := by
  unfold OAuth.AuthorizeQuery.check Attempt.query
  dsimp only
  rw [if_neg (by have := hv.state; have := hv.challenge; omega), if_neg (by simp), hv.client]
  rfl

/-- `begin`. -/
theorem Honest.begins (hv : v.Honest cfg env policy subject) (x : Realm) :
    v.Waits env (x.step cfg env encode
      (.bff (.login v.browser v.returnTo v.state v.verifier v.begunAt))) := by
  simp only [Realm.step, Bff.step, hv.path]
  exact OneTime.live_put_self ..

/-- `authorize`. -/
theorem Honest.asks (hv : v.Honest cfg env policy subject)
    (h : v.At cfg env encode policy subject x 1) :
    v.At cfg env encode policy subject (x.step cfg env encode
      (.sso (.authorize v.authorizeRid (v.query cfg env) v.providerState v.askedAt))) 2 := by
  refine ⟨h, ?_⟩
  simp only [Realm.step, OAuth.step, OAuth.authorize, hv.check]
  exact OneTime.live_put_self ..

/-- `fake_authorize`. -/
theorem Honest.approves (hv : v.Honest cfg env policy subject)
    (h : v.At cfg env encode policy subject x 2) :
    v.At cfg env encode policy subject (x.step cfg env encode
      (.sso (.fakeAuthorize v.approveRid v.providerState v.account v.providerCode v.approvedAt)))
      3 := by
  obtain ⟨hwaits, hasked⟩ := h
  have hne : OAuth.key env .oauth v.providerState ≠ OAuth.key env .providerCode v.providerCode :=
    fun he => by cases OAuth.key_namespace he
  simp only [Realm.step, OAuth.step, OAuth.fakeAuthorize, hv.account]
  exact ⟨hwaits, (OneTime.live_put_of_ne hne _ _ _).trans hasked, OneTime.live_put_self ..⟩

/-- `provider_callback` takes its transaction. -/
theorem Honest.callsBack (hv : v.Honest cfg env policy subject)
    (h : v.At cfg env encode policy subject x 3) :
    v.At cfg env encode policy subject (x.step cfg env encode
      (.sso (.callback v.callbackRid v.providerState v.providerCode v.calledBackAt))) 4 := by
  obtain ⟨hwaits, hasked, happroved⟩ := h
  have hne : OAuth.key env .providerCode v.providerCode ≠ OAuth.key env .oauth v.providerState :=
    fun he => by cases OAuth.key_namespace he
  have hread : (x.sso.redis.take (OAuth.key env .oauth v.providerState) v.callbackRid
      v.calledBackAt).1 = some (v.transaction cfg env).asdict :=
    OneTime.read_of_live hasked hv.calledBack
  simp only [Realm.step, OAuth.step, OAuth.callback, hread, OAuth.OAuthTransaction.ofDict_asdict]
  exact ⟨hwaits, (OneTime.live_take_of_ne hne _ _ _).trans happroved,
    OAuth.Sys.tasks_goOn_self ..⟩

/-- `provider_callback` exchanges the provider's code. -/
theorem Honest.exchanges (hv : v.Honest cfg env policy subject)
    (h : v.At cfg env encode policy subject x 4) :
    v.At cfg env encode policy subject (x.step cfg env encode
      (.sso (.exchange v.callbackRid v.exchangedAt))) 5 := by
  obtain ⟨hwaits, happroved, htask⟩ := h
  have hread : (x.sso.redis.take (OAuth.key env .providerCode v.providerCode) v.callbackRid
      v.exchangedAt).1 =
        some (OAuth.ProviderIdentity.result ⟨"lab-provider", subject⟩ v.providerState) :=
    OneTime.read_of_live happroved hv.exchanged
  have hresult : OAuth.callbackResult v.providerState (some (v.transaction cfg env))
      (some (OAuth.ProviderIdentity.result ⟨"lab-provider", subject⟩ v.providerState)) =
        some (v.transaction cfg env, subject) :=
    (if_neg (not_or.mpr ⟨not_not_intro rfl, not_not_intro rfl⟩)).trans rfl
  have hclient : OAuth.requireClient (v.transaction cfg env).clientId
      (v.transaction cfg env).redirectUri = .ok policy := hv.client
  simp only [Realm.step, OAuth.step, htask, OAuth.exchange, OAuth.providerExchange, hread,
    hresult, hclient]
  exact ⟨hwaits, OAuth.Sys.tasks_goOn_self ..⟩

/-- `_oauth_user`. -/
theorem signsIn (h : v.At cfg env encode policy subject x 5)
    (hserved : v.Served env subject x (.sso (.login v.callbackRid v.uid))) :
    v.At cfg env encode policy subject (x.step cfg env encode
      (.sso (.login v.callbackRid v.uid))) 6 := by
  obtain ⟨hwaits, htask⟩ := h
  obtain ⟨user, hfound⟩ := Option.isSome_iff_exists.mp (hserved rfl)
  have huser : oauthUser env x.sso.db subject policy.defaultRole v.uid =
      .ok (user.id, x.sso.db) := by
    simp only [oauthUser, hfound]
  simp only [Realm.step, OAuth.step, htask, OAuth.login, huser]
  exact ⟨hwaits, ⟨x.sso.db, subject, policy.defaultRole, v.uid, user.id⟩, rfl, ⟨x.sso.db, huser⟩,
    OAuth.Sys.tasks_goOn_self ..⟩

/-- The end of `provider_callback`. -/
theorem codes (h : v.At cfg env encode policy subject x 6) :
    v.At cfg env encode policy subject (x.step cfg env encode
      (.sso (.issueCode v.callbackRid v.code v.codedAt))) 7 := by
  obtain ⟨hwaits, l, hsubject, hran, htask⟩ := h
  simp only [Realm.step, OAuth.step, htask, OAuth.issueCode]
  refine ⟨hwaits, ⟨v.code, v.providerState, v.providerCode, v.transaction cfg env, policy, l⟩,
    ?_, OneTime.live_put_self ..⟩
  exact ⟨List.mem_cons_self, rfl, rfl, rfl, hsubject, hran⟩

/-- The browser is back at the BFF. -/
theorem Honest.returns (hv : v.Honest cfg env policy subject)
    (h : v.At cfg env encode policy subject x 7) :
    v.At cfg env encode policy subject (x.step cfg env encode
      (.bff (.callback v.rid v.browser v.state v.code v.returnedAt))) 8 := by
  obtain ⟨hwaits, c, hc⟩ := h
  have hread : (x.bff.redis.take (oauthKey env v.state) v.rid v.returnedAt).1 =
      some v.loginTransaction := OneTime.read_of_live hwaits hv.returned
  simp only [Realm.step, Bff.step, hread]
  obtain ⟨hcodes, hlive⟩ := hc
  exact ⟨Function.update_self .., Function.update_self .., c,
    { hcodes with coded := hcodes.coded }, hlive⟩

/-- `token` as far as its checks. -/
theorem Honest.posts (hv : v.Honest cfg env policy subject)
    (h : v.At cfg env encode policy subject x 8) :
    v.At cfg env encode policy subject (x.step cfg env encode
      (.post v.rid v.tokenRid v.postedAt)) 9 := by
  obtain ⟨hexchanging, hposted, c, hc, hlive⟩ := h
  have hwait : x.bff.tasks v.rid =
      some (.exchanging v.browser v.state v.code v.loginTransaction) := hexchanging
  obtain ⟨-, hid, hredirect⟩ := registered_plain hv.client
  obtain ⟨hlookup, -⟩ := OAuth.requireClient_eq_ok hv.client
  have hrequest : OAuth.requestOf (tokenBody cfg v.code v.loginTransaction.verifier) =
      some (v.request cfg) := requestOf_tokenBody hid hredirect hv.code hv.verifier
  obtain ⟨form, hform, hparsed⟩ := Option.bind_eq_some_iff.mp hrequest
  have hread : (x.sso.redis.take (OAuth.key env .authorizationCode (v.request cfg).code)
      v.tokenRid v.postedAt).1 =
        some (OAuth.codeGrant c.login.userId policy (v.transaction cfg env)) :=
    OneTime.read_of_live hlive hv.posted
  have hvalid : (v.request cfg).valid env
      (OAuth.codeGrant c.login.userId policy (v.transaction cfg env)) = true :=
    valid_codeGrant_self (OAuth.clientId_of_lookup hlookup)
  have hclient : OAuth.clientById (v.request cfg).clientId = .ok policy := by
    unfold OAuth.clientById Attempt.request
    dsimp only
    rw [hlookup]
  simp only [Realm.step, hwait, hposted, OAuth.step, hform, OAuth.token, hparsed, hread, hvalid,
    if_true, hclient]
  refine ⟨hexchanging, Function.update_self .., c, ?_, OAuth.Sys.tasks_goOn_self ..⟩
  exact { hc with coded := hc.coded }

/-- `issue_bundle`. -/
theorem bundles (h : v.At cfg env encode policy subject x 9)
    (hserved : v.Served env subject x
      (.sso (.bundle v.tokenRid v.fresh v.activeKid v.bundledAt))) :
    v.At cfg env encode policy subject (x.step cfg env encode
      (.sso (.bundle v.tokenRid v.fresh v.activeKid v.bundledAt))) 10 := by
  obtain ⟨hexchanging, hposted, c, hc, htask⟩ := h
  obtain ⟨hactive, hkid, hnew⟩ := hserved rfl
  obtain ⟨b, db, hb⟩ : ∃ b db, issueBundle env x.sso.db c.login.userId policy.audience none
      v.fresh v.activeKid v.bundledAt = .ok (b, db) :=
    issueBundle_iff.mpr ⟨hactive c hc.coded hc.code, hkid, fun _ => hnew⟩
  obtain ⟨-, -, -, -, -, huser, -, -⟩ := issueBundle_eq_ok hb
  have hgrant : (OAuth.codeGrant c.login.userId policy (v.transaction cfg env)).lookup "user_id" =
      some c.login.userId := rfl
  simp only [Realm.step, OAuth.step, htask, OAuth.bundle, hgrant, hb]
  refine ⟨hexchanging, unposted_eq_some hposted (by simp [arrives]), c, b, ?_,
    List.mem_cons_self, huser, OAuth.Sys.tasks_goOn_self ..⟩
  exact { hc with coded := hc.coded }

/-- The BFF hears from its exchange. -/
theorem hears (h : v.At cfg env encode policy subject x 10) :
    v.At cfg env encode policy subject (x.step cfg env encode (.respond v.rid)) 11 := by
  obtain ⟨hexchanging, hposted, c, b, hc, hredeemed, huser, htask⟩ := h
  have hwait : x.bff.tasks v.rid =
      some (.exchanging v.browser v.state v.code v.loginTransaction) := hexchanging
  have hanswer : (x.posted v.rid).bind x.sso.tasks = some (.answered (.bundle b)) := by
    rw [hposted, Option.bind_some, htask]
  have hcheck : checkTokens (exchangedOf encode (.bundle b)) = .ok (tokensIn encode b) := rfl
  simp only [Realm.step, hanswer, Bff.step, hwait, hcheck]
  exact ⟨c, b, { hc with coded := hc.coded }, hredeemed, huser, Function.update_self ..⟩

/-- The session is created. -/
theorem creates (h : v.At cfg env encode policy subject x 11) :
    v.At cfg env encode policy subject (x.step cfg env encode
      (.bff (.create v.rid v.sessionId v.csrfToken v.createdAt))) 12 := by
  obtain ⟨c, b, hc, hredeemed, huser, htask⟩ := h
  simp only [Realm.step, Bff.step, htask]
  refine ⟨c, b, { hc with coded := hc.coded }, hredeemed, huser, ?_, List.mem_cons_self⟩
  exact Function.update_self ..

end Attempt

/-- The login takes its next step. -/
theorem at_own (hv : v.Honest cfg env policy subject) {n : ℕ} {l : RealmStep}
    (h : v.At cfg env encode policy subject x n) (hl : (v.script cfg env)[n]? = some l)
    (hserved : v.Served env subject x l) :
    v.At cfg env encode policy subject (x.step cfg env encode l) (n + 1) := by
  match n with
  | 0 =>
      cases hl
      exact hv.begins x
  | 1 =>
      cases hl
      exact hv.asks h
  | 2 =>
      cases hl
      exact hv.approves h
  | 3 =>
      cases hl
      exact hv.callsBack h
  | 4 =>
      cases hl
      exact hv.exchanges h
  | 5 =>
      cases hl
      exact Attempt.signsIn h hserved
  | 6 =>
      cases hl
      exact Attempt.codes h
  | 7 =>
      cases hl
      exact hv.returns h
  | 8 =>
      cases hl
      exact hv.posts h
  | 9 =>
      cases hl
      exact Attempt.bundles h hserved
  | 10 =>
      cases hl
      exact Attempt.hears h
  | 11 =>
      cases hl
      exact Attempt.creates h
  | n + 12 => cases hl

/-! ## The whole login -/

/-- Whatever else is sent to the two servers between its steps: a login whose steps come in their
    order and in time, and whose live tokens nobody else presents, ends in a session of the user of
    its account, with the tokens the SSO issued for its own code. -/
theorem login_completes (cfg : Config) (env : Env) (encode : AccessToken → String)
    (henv : Function.Injective env.sha256) (db : Db) (policy : OAuth.ClientPolicy)
    (subject : String) (v : Attempt) (hv : v.Honest cfg env policy subject) (ls : List RealmStep)
    (hscript : ls.filter v.mine = v.script cfg env)
    (hnew : Along (Realm.step cfg env encode) (NewTokens env) (.start db) ls)
    (hspared : Along (Realm.step cfg env encode) (v.Spared cfg env) (.start db) ls)
    (hserved : Along (Realm.step cfg env encode) (v.Served env subject) (.start db) ls) :
    ∃ c b, v.Completed cfg env encode policy subject
      (run (Realm.step cfg env encode) (.start db) ls) c b := by
  -- what is still to come of the script says where the login stands
  let Stands (todo : List RealmStep) (x : Realm) : Prop :=
    x.Linked cfg env encode ∧
      ∃ n, (v.script cfg env).drop n = todo ∧ v.At cfg env encode policy subject x n
  have hend : Stands [] (run (Realm.step cfg env encode) (.start db) ls) := by
    refine run_script (Realm.step cfg env encode) (Option.guard v.mine) Stands ?_ ?_
      ((hnew.and hspared).and hserved) ?_
    · rintro x l todo ⟨⟨hnew, hspared⟩, -⟩ hown ⟨hx, n, hn, hat⟩
      have hmine : v.mine l = false := by simpa using hown
      exact ⟨linked_step henv x l hx hnew, n, hn, hat.kept (kept_other henv hx hnew hmine hspared)⟩
    · rintro x l a todo ⟨⟨hnew, -⟩, hserved⟩ hown ⟨hx, n, hn, hat⟩
      obtain ⟨rfl, -⟩ := Option.guard_eq_some_iff.mp hown
      have hl : (v.script cfg env)[n]? = some l := by
        rw [← List.head?_drop, hn, List.head?_cons]
      refine ⟨linked_step henv x l hx hnew, n + 1, ?_, at_own hv hat hl hserved⟩
      rw [← List.tail_drop, hn, List.tail_cons]
    · rw [List.filterMap_eq_filter, hscript]
      exact ⟨linked_start db, 0, rfl, trivial⟩
  obtain ⟨-, n, hn, hat⟩ := hend
  have hlength : 12 ≤ n := List.drop_eq_nil_iff.mp hn
  obtain ⟨m, rfl⟩ := Nat.exists_eq_add_of_le' hlength
  exact hat

/-! ## A sample run -/

instance (v : Attempt) (cfg : Config) (env : Env) (x : Realm) (l : RealmStep) :
    Decidable (v.Spared cfg env x l) :=
  inferInstanceAs (Decidable (_ = false → _ ∧ _))

instance (v : Attempt) (env : Env) (subject : String) (x : Realm) :
    (l : RealmStep) → Decidable (v.Served env subject x l)
  | .sso (.login _ _) => inferInstanceAs (Decidable (_ = _ → _ = _))
  | .sso (.bundle _ _ _ _) => inferInstanceAs (Decidable (_ = _ → _ ∧ _ ∧ _))
  | .sso (.authorize ..) | .sso (.fakeAuthorize ..) | .sso (.callback ..) | .sso (.exchange ..)
  | .sso (.issueCode ..) | .sso (.token ..) | .sso (.drop _) | .sso (.other _) | .bff _ | .post ..
  | .respond _ | .fail _ => .isTrue trivial

/-- The login of browser 1 in `redeemedLogin`. -/
def labAttempt : Attempt where
  browser := 1
  returnTo := "/"
  path := "/"
  state := "client-state-value"
  verifier := OAuth.sampleVerifier
  begunAt := 0
  authorizeRid := 0
  providerState := "state"
  askedAt := 0
  approveRid := 1
  account := "learner"
  providerCode := "provider-code"
  approvedAt := 1
  callbackRid := 2
  calledBackAt := 2
  exchangedAt := 2
  uid := "u1"
  code := "code"
  codedAt := 3
  rid := 7
  returnedAt := 4
  tokenRid := 3
  postedAt := 4
  fresh := "refresh"
  activeKid := some "kid"
  bundledAt := 5
  sessionId := "session"
  csrfToken := "csrf"
  createdAt := 6

/-- Between its steps another browser begins a login and guesses a code, and the tokens that are
    used up are presented again. -/
def crowdedLogin : List RealmStep :=
  approvedLogin ++
    [.sso (.callback 9 "state" "provider-code" 3),
      .bff (.login 2 "/" "another-state-value"
        "fedcba9876543210fedcba9876543210fedcba9876543210fedcba9876543210" 3),
      .bff (.callback 8 2 "another-state-value" "guess" 4), .post 8 4 4,
      .bff (.callback 7 1 "client-state-value" "code" 4),
      .bff (.callback 10 2 "client-state-value" "code" 4), .post 7 3 4,
      .sso (.token 11 (OAuth.formOf (tokenBody labConfig "code" OAuth.sampleVerifier)) 4),
      .respond 8, .sso (.bundle 3 "refresh" (some "kid") 5), .respond 7,
      .bff (.create 7 "session" "csrf" 6)]

/-- The tables with the learner's user. -/
def learnerDb : Db :=
  ((createActive plainEnv .empty "u1" "learner-001@oauth.lab.invalid" "user").map Prod.snd).getD
    .empty

theorem crowded_login_completes :
    ∃ c b, labAttempt.Completed labConfig plainEnv AccessToken.kid
      { clientId := "temis-web", audience := "temis-lab"
        redirectUris := ["http://localhost:3000/auth/callback"], defaultRole := "user" }
      "learner-001"
      (run (Realm.step labConfig plainEnv AccessToken.kid) (.start learnerDb) crowdedLogin) c
        b := by
  refine login_completes labConfig plainEnv AccessToken.kid Function.injective_id learnerDb _ _
    labAttempt ?_ crowdedLogin (by rfl) (by decide +kernel) (by decide +kernel)
    (by decide +kernel)
  exact ⟨rfl, rfl, by decide, by decide +kernel, by decide, rfl, by decide, by decide +kernel,
    by decide +kernel, by decide +kernel, by decide +kernel⟩

end TemisLab.Bff
