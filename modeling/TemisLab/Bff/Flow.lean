/-
  The login of the BFF (`temis_bff/oauth.py`, `app.py`, `sessions.py`): `GET /login` and
  `GET /auth/callback` of any number of browsers over one Redis. A step of a request is one
  Redis command, or the answer of the token exchange, with the local work around it; between two
  steps of a request any others come. Raw tokens, clocks and what the exchange answers are in the
  labels. A request id used again abandons the request that held it.

  `safe_return_path` is a parameter. The history keeps what `begin` handed to which browser, and
  which browser was answered with which session.

  `step_did` says once what a step does; `Traced` leads each live transaction, and each one that a
  callback has taken, back to the login that put it.
-/
import TemisLab.Lib.Slots
import TemisLab.OAuth.CodeFlow

namespace TemisLab.Bff

open TemisLab.Lib TemisLab.Sso

/-- The arguments of `BffOAuthFlow` and `RedisSessionStore`, and `safe_return_path`, where `none`
    is a `RequestRejected`. -/
structure Config where
  authorizeEndpoint : String
  clientId : String
  redirectUri : String
  sessionTtl : Time := 3600
  safeReturnPath : String → Option String

structure LoginTransaction where
  verifier : String
  returnTo : String
  deriving DecidableEq, Repr

structure BffSession where
  userId : String
  accessToken : String
  refreshToken : String
  csrfToken : String
  deriving DecidableEq, Repr

/-- The key of a login transaction. -/
def oauthKey (env : Env) (state : String) : String := "temis-bff:oauth:" ++ env.sha256 state

/-- The key of a session. -/
def sessionKey (env : Env) (sessionId : String) : String :=
  "temis-bff:session:" ++ env.sha256 sessionId

/-- The address and the query `begin` makes. -/
def authorizeUrl (cfg : Config) (env : Env) (state verifier : String) :
    String × List (String × String) :=
  (cfg.authorizeEndpoint,
    [("client_id", cfg.clientId), ("redirect_uri", cfg.redirectUri), ("response_type", "code"),
      ("code_challenge", OAuth.pkceChallenge env verifier), ("code_challenge_method", "S256"),
      ("state", state)])

/-- What `exchange` gives: a `dict`, an `OAuthFailed` with its text, or another exception. -/
inductive Exchanged where
  | tokens (payload : List (String × String))
  | oauthFailed (detail : String)
  | raised
  deriving DecidableEq, Repr

/-- The three values of a token response that the session is made of. -/
structure Tokens where
  userId : String
  accessToken : String
  refreshToken : String
  deriving DecidableEq, Repr

/-- `complete` from the exchange on; the error is the text of its `OAuthFailed`. -/
def checkTokens : Exchanged → Except String Tokens
  | .tokens payload =>
      match payload.lookup "user_id", payload.lookup "access_token",
          payload.lookup "refresh_token" with
      | some userId, some accessToken, some refreshToken =>
          .ok { userId, accessToken, refreshToken }
      | _, _, _ => .error "token response is incomplete"
  | .oauthFailed detail => .error detail
  | .raised => .error "token exchange failed"

def Tokens.session (t : Tokens) (csrfToken : String) : BffSession where
  userId := t.userId
  accessToken := t.accessToken
  refreshToken := t.refreshToken
  csrfToken := csrfToken

/-- How a callback is answered. -/
inductive Answer where
  /-- 303 to the return path, with the session cookie. -/
  | session (sessionId returnTo : String)
  /-- 401 with the text of the `OAuthFailed`. -/
  | refused (detail : String)
  deriving DecidableEq, Repr

/-- What a callback has still to do, with the browser and the state it came with. -/
inductive Task where
  | exchanging (browser : ℕ) (state code : String) (transaction : LoginTransaction)
  | creating (browser : ℕ) (state : String) (transaction : LoginTransaction) (tokens : Tokens)
  deriving DecidableEq, Repr

/-- A login that was redirected: its browser and its state, its transaction, and where to. -/
structure Begun where
  browser : ℕ
  state : String
  transaction : LoginTransaction
  location : String × List (String × String)
  deriving DecidableEq, Repr

/-- A callback that was answered. -/
structure Answered where
  browser : ℕ
  state : String
  answer : Answer
  deriving DecidableEq, Repr

structure Server where
  redis : OneTime String LoginTransaction Time ℕ
  sessions : String → Option (BffSession × Time)
  tasks : ℕ → Option Task
  begun : List Begun
  answered : List Answered

def Server.start : Server := ⟨.empty, fun _ => none, fun _ => none, [], []⟩

/-- A step of a request. -/
inductive Step where
  | login (browser : ℕ) (returnTo state verifier : String) (now : Time)
  | callback (rid browser : ℕ) (state code : String) (now : Time)
  | exchanged (rid : ℕ) (outcome : Exchanged)
  | create (rid : ℕ) (sessionId csrfToken : String) (now : Time)
  deriving DecidableEq, Repr

/-- A request is answered. -/
def Server.answer (s : Server) (rid browser : ℕ) (state : String) (answer : Answer) : Server :=
  { s with
    tasks := Function.update s.tasks rid none
    answered := ⟨browser, state, answer⟩ :: s.answered }

def step (cfg : Config) (env : Env) (s : Server) : Step → Server
  | .login browser returnTo state verifier now =>
      match cfg.safeReturnPath returnTo with
      | none => s
      | some path =>
          { s with
            redis := s.redis.put (oauthKey env state) ⟨verifier, path⟩ (now + 300)
            begun :=
              ⟨browser, state, ⟨verifier, path⟩, authorizeUrl cfg env state verifier⟩ :: s.begun }
  | .callback rid browser state code now =>
      let (raw, redis) := s.redis.take (oauthKey env state) rid now
      match raw with
      | none => { s with redis }.answer rid browser state (.refused "invalid or reused state")
      | some transaction =>
          { s with
            redis
            tasks := Function.update s.tasks rid
              (some (.exchanging browser state code transaction)) }
  | .exchanged rid outcome =>
      match s.tasks rid with
      | some (.exchanging browser state _ transaction) =>
          match checkTokens outcome with
          | .error detail => s.answer rid browser state (.refused detail)
          | .ok tokens =>
              { s with
                tasks := Function.update s.tasks rid
                  (some (.creating browser state transaction tokens)) }
      | _ => s
  | .create rid sessionId csrfToken now =>
      match s.tasks rid with
      | some (.creating browser state transaction tokens) =>
          { s with
            sessions := Function.update s.sessions (sessionKey env sessionId)
              (some (tokens.session csrfToken, now + cfg.sessionTtl)) }.answer rid browser state
            (.session sessionId transaction.returnTo)
      | _ => s

/-- A generated state is new. -/
def FreshState (s : Server) : Step → Prop
  | .login _ _ state _ _ => ∀ b ∈ s.begun, b.state ≠ state
  | _ => True

instance (s : Server) (l : Step) : Decidable (FreshState s l) := by
  unfold FreshState
  split <;> infer_instance

/-! ## What a step does -/

/-- The effect of a step on everything but the sessions. -/
inductive Did (cfg : Config) (env : Env) (s : Server) : Step → Server → Prop where
  | stayed (l : Step) : Did cfg env s l s
  | began (browser : ℕ) (returnTo state verifier path : String) (now : Time)
      (hpath : cfg.safeReturnPath returnTo = some path) :
      Did cfg env s (.login browser returnTo state verifier now)
        { s with
          redis := s.redis.put (oauthKey env state) ⟨verifier, path⟩ (now + 300)
          begun := ⟨browser, state, ⟨verifier, path⟩, authorizeUrl cfg env state verifier⟩ ::
            s.begun }
  | took (rid browser : ℕ) (state code : String) (now : Time) (transaction : LoginTransaction)
      (hread : s.redis.read (oauthKey env state) now = some transaction) :
      Did cfg env s (.callback rid browser state code now)
        { s with
          redis := (s.redis.take (oauthKey env state) rid now).2
          tasks := Function.update s.tasks rid
            (some (.exchanging browser state code transaction)) }
  | missed (rid browser : ℕ) (state code : String) (now : Time)
      (hread : s.redis.read (oauthKey env state) now = none) :
      Did cfg env s (.callback rid browser state code now)
        (Server.answer { s with redis := (s.redis.take (oauthKey env state) rid now).2 } rid browser
          state (.refused "invalid or reused state"))
  | refused (rid browser : ℕ) (state code : String) (transaction : LoginTransaction)
      (outcome : Exchanged) (detail : String)
      (htask : s.tasks rid = some (.exchanging browser state code transaction))
      (hcheck : checkTokens outcome = .error detail) :
      Did cfg env s (.exchanged rid outcome) (s.answer rid browser state (.refused detail))
  | passed (rid browser : ℕ) (state code : String) (transaction : LoginTransaction)
      (outcome : Exchanged) (tokens : Tokens)
      (htask : s.tasks rid = some (.exchanging browser state code transaction))
      (hcheck : checkTokens outcome = .ok tokens) :
      Did cfg env s (.exchanged rid outcome)
        { s with
          tasks := Function.update s.tasks rid
            (some (.creating browser state transaction tokens)) }
  | created (rid browser : ℕ) (state : String) (transaction : LoginTransaction) (tokens : Tokens)
      (sessionId csrfToken : String) (now : Time)
      (htask : s.tasks rid = some (.creating browser state transaction tokens)) :
      Did cfg env s (.create rid sessionId csrfToken now)
        (Server.answer
          { s with
            sessions := Function.update s.sessions (sessionKey env sessionId)
              (some (tokens.session csrfToken, now + cfg.sessionTtl)) }
          rid browser state (.session sessionId transaction.returnTo))

theorem step_did (cfg : Config) (env : Env) (s : Server) (l : Step) :
    Did cfg env s l (step cfg env s l) := by
  cases l with
  | login browser returnTo state verifier now =>
      simp only [step]
      split
      · exact .stayed _
      · next path hpath => exact .began browser returnTo state verifier path now hpath
  | callback rid browser state code now =>
      cases hread : s.redis.read (oauthKey env state) now with
      | none =>
          have htake : (s.redis.take (oauthKey env state) rid now).1 = none := hread
          simp only [step, htake]
          exact .missed rid browser state code now hread
      | some transaction =>
          have htake : (s.redis.take (oauthKey env state) rid now).1 = some transaction := hread
          simp only [step, htake]
          exact .took rid browser state code now transaction hread
  | exchanged rid outcome =>
      simp only [step]
      split
      · next browser state code transaction htask =>
          split
          · next detail hcheck =>
              exact .refused rid browser state code transaction outcome detail htask hcheck
          · next tokens hcheck =>
              exact .passed rid browser state code transaction outcome tokens htask hcheck
      · exact .stayed _
  | create rid sessionId csrfToken now =>
      simp only [step]
      split
      · next browser state transaction tokens htask =>
          exact .created rid browser state transaction tokens sessionId csrfToken now htask
      · exact .stayed _

/-- Logins are not forgotten. -/
theorem begun_step {cfg : Config} {env : Env} (s : Server) (l : Step) :
    s.begun ⊆ (step cfg env s l).begun := by
  have hd := step_did cfg env s l
  generalize step cfg env s l = s' at hd ⊢
  cases hd with
  | began browser returnTo state verifier path now hpath => exact List.subset_cons_self _ _
  | _ => exact List.Subset.refl _

theorem begun_run {cfg : Config} {env : Env} (s : Server) (ls : List Step) :
    s.begun ⊆ (run (step cfg env) s ls).begun :=
  run_rel (step cfg env) (fun s t => s.begun ⊆ t.begun) (fun _ => List.Subset.refl _)
    (fun _ _ _ h h' => List.Subset.trans h h') begun_step s ls

/-! ## Where a transaction comes from -/

/-- Where SHA-256 does not collide, a key tells its state. -/
theorem oauthKey_inj {env : Env} (henv : Function.Injective env.sha256) {state state' : String}
    (h : oauthKey env state = oauthKey env state') : state = state' := by
  have hdigest : env.sha256 state = env.sha256 state' := (String.append_right_inj _).mp h
  exact henv hdigest

/-- The browser, the state and the transaction of a callback that is not answered. -/
def Task.origin : Task → ℕ × String × LoginTransaction
  | .exchanging browser state _ transaction => (browser, state, transaction)
  | .creating browser state transaction _ => (browser, state, transaction)

/-- States are handed out once; a live transaction, and one that was taken, was put by the login
    that handed its state out. -/
structure Traced (env : Env) (s : Server) : Prop where
  states : (s.begun.map Begun.state).Nodup
  live : ∀ k v d, s.redis.live k = some (v, d) →
    ∃ b ∈ s.begun, oauthKey env b.state = k ∧ b.transaction = v
  tasks : ∀ rid t, s.tasks rid = some t →
    ∃ b ∈ s.begun, b.state = t.origin.2.1 ∧ b.transaction = t.origin.2.2

theorem traced_start (env : Env) : Traced env .start := by
  refine ⟨List.nodup_nil, ?_, ?_⟩
  · intro k v d h
    cases h
  · intro rid t h
    cases h

/-- Live transactions after a take were live before. -/
theorem live_take {s : Server} {k k' : String} {rid : ℕ} {now : Time} {v : LoginTransaction}
    {d : Time} (h : (s.redis.take k rid now).2.live k' = some (v, d)) :
    s.redis.live k' = some (v, d) := (slot_clear h).2

/-- The login that put what a callback takes. -/
theorem Traced.taken {env : Env} (henv : Function.Injective env.sha256) {s : Server}
    (h : Traced env s) {state : String} {now : Time} {transaction : LoginTransaction}
    (hread : s.redis.read (oauthKey env state) now = some transaction) :
    ∃ b ∈ s.begun, b.state = state ∧ b.transaction = transaction := by
  obtain ⟨d, hlive⟩ := OneTime.live_of_read hread
  obtain ⟨b, hb, hkey, ht⟩ := h.live _ _ _ hlive
  exact ⟨b, hb, oauthKey_inj henv hkey, ht⟩

theorem traced_step {cfg : Config} {env : Env} (henv : Function.Injective env.sha256) (s : Server)
    (l : Step) (h : Traced env s) (hl : FreshState s l) : Traced env (step cfg env s l) := by
  have hd := step_did cfg env s l
  generalize step cfg env s l = s' at hd ⊢
  cases hd with
  | stayed => exact h
  | began browser returnTo state verifier path now hpath =>
      have hsub : s.begun ⊆ ⟨browser, state, ⟨verifier, path⟩,
          authorizeUrl cfg env state verifier⟩ :: s.begun := List.subset_cons_self _ _
      refine ⟨?_, ?_, ?_⟩
      · rw [List.map_cons, List.nodup_cons]
        refine ⟨?_, h.states⟩
        intro hmem
        obtain ⟨b, hb, he⟩ := List.mem_map.mp hmem
        exact hl b hb he
      · intro k v d hlive
        rcases slot_set hlive with ⟨-, hlive⟩ | ⟨hk, he⟩
        · obtain ⟨b, hb, hkey, ht⟩ := h.live k v d hlive
          exact ⟨b, hsub hb, hkey, ht⟩
        · cases he
          exact ⟨_, List.mem_cons_self, hk.symm, rfl⟩
      · intro rid t ht
        obtain ⟨b, hb, hs⟩ := h.tasks rid t ht
        exact ⟨b, hsub hb, hs⟩
  | took rid browser state code now transaction hread =>
      refine ⟨h.states, fun k v d hlive => h.live k v d (live_take hlive), ?_⟩
      intro rid' t ht
      rcases slot_set ht with ⟨-, ht⟩ | ⟨-, rfl⟩
      · exact h.tasks rid' t ht
      · exact h.taken henv hread
  | missed rid browser state code now hread =>
      refine ⟨h.states, fun k v d hlive => h.live k v d (live_take hlive), ?_⟩
      exact fun rid' t ht => h.tasks rid' t (slot_clear ht).2
  | refused rid browser state code transaction outcome detail htask hcheck =>
      exact ⟨h.states, h.live, fun rid' t ht => h.tasks rid' t (slot_clear ht).2⟩
  | passed rid browser state code transaction outcome tokens htask hcheck =>
      refine ⟨h.states, h.live, ?_⟩
      intro rid' t ht
      rcases slot_set ht with ⟨-, ht⟩ | ⟨-, rfl⟩
      · exact h.tasks rid' t ht
      · have htaken := h.tasks rid _ htask
        exact htaken
  | created rid browser state transaction tokens sessionId csrfToken now htask =>
      exact ⟨h.states, h.live, fun rid' t ht => h.tasks rid' t (slot_clear ht).2⟩

theorem traced_run {cfg : Config} {env : Env} (henv : Function.Injective env.sha256)
    {ls : List Step} (h : Along (step cfg env) FreshState .start ls) :
    Traced env (run (step cfg env) .start ls) :=
  run_invariant (step cfg env) (Traced env) (traced_step henv) (traced_start env) h

end TemisLab.Bff
