/-
  The calls of `BffOAuthFlow` under any interleaving, over the machine of the login: what each call
  of `complete` hands to the exchange, how it ends, and the sessions that are created of it.

  A call that waits for its exchange can also be cancelled: `asyncio.CancelledError` is no
  `Exception`, so `except Exception` lets it through.

  * `Inv`: a state that was presented has no transaction any more, and what a call took is what the
    login of its state put.
  * `inv_step`: one lemma for each label, made of what a label does to the history.
  * `transactions_one_time`: at most one exchange a state, with its verifier; what is returned, and
    what a failure leaves.
-/
import TemisLab.Bff.Browsers

namespace TemisLab.Bff

open TemisLab.Lib TemisLab.Sso

/-- What a call of `complete` ends because of. -/
inductive Cause where
  | unknownState
  | outcome (exchanged : Exchanged)
  | cancellation
  deriving DecidableEq, Repr

/-- What it raises. -/
inductive CallError where
  | oauthFailed (detail : String)
  | cancelledError
  deriving DecidableEq, Repr

/-- How it ends. -/
inductive Result where
  | returned (tokens : List (String × String)) (returnTo : String)
  | raised (error : CallError)
  deriving DecidableEq, Repr

/-- The end of `complete` on the outcome of its exchange. -/
def resultOf (returnTo : String) (outcome : Exchanged) : Result :=
  match checkTokens outcome with
  | .error detail => .raised (.oauthFailed detail)
  | .ok _ =>
      match outcome with
      | .tokens payload => .returned payload returnTo
      | .oauthFailed detail => .raised (.oauthFailed detail)
      | .raised => .raised (.oauthFailed "token exchange failed")

/-- `{"user_id", "access_token", "refresh_token"} <= tokens.keys()`. -/
def HasTokens (tokens : List (String × String)) : Prop :=
  ∀ key ∈ ["user_id", "access_token", "refresh_token"], (tokens.lookup key).isSome = true

instance (tokens : List (String × String)) : Decidable (HasTokens tokens) :=
  inferInstanceAs (Decidable (∀ key ∈ ["user_id", "access_token", "refresh_token"],
    (tokens.lookup key).isSome = true))

/-- A call that reached the exchange, and what it called it with. -/
structure Exchange where
  call : ℕ
  state : String
  code : String
  verifier : String
  deriving DecidableEq, Repr

/-- A call of `complete` that is over. -/
structure Completed where
  call : ℕ
  state : String
  cause : Cause
  result : Result
  deriving DecidableEq, Repr

def Completed.Failed (f : Completed) : Prop := ∀ tokens path, f.result ≠ .returned tokens path

/-- A session, and the call whose tokens it holds. -/
structure Created where
  call : ℕ
  sessionId : String
  deriving DecidableEq, Repr

/-- The server with the history of its calls: which were made, with which states, and what came of
    them. -/
structure World where
  server : Server
  started : List ℕ
  presented : List String
  exchanges : List Exchange
  completed : List Completed
  created : List Created

def World.start : World := ⟨.start, [], [], [], [], []⟩

/-- What happens: a step of the login, or the cancellation of a call that waits for its exchange. -/
inductive Label where
  | flow (l : Step)
  | cancelled (call : ℕ)
  deriving DecidableEq, Repr

/-- A call of `complete` as far as the exchange. Each call has an id of its own. -/
def World.callback (cfg : Config) (env : Env) (w : World) (call browser : ℕ)
    (state code : String) (now : Time) : World :=
  if call ∈ w.started then w
  else
    let w' := { w with
      server := Bff.step cfg env w.server (.callback call browser state code now)
      started := call :: w.started
      presented := state :: w.presented }
    match w.server.redis.read (oauthKey env state) now with
    | some transaction =>
        { w' with exchanges := ⟨call, state, code, transaction.verifier⟩ :: w.exchanges }
    | none =>
        { w' with
          completed :=
            ⟨call, state, .unknownState, .raised (.oauthFailed "invalid or reused state")⟩ ::
              w.completed }

/-- The rest of it. -/
def World.exchanged (cfg : Config) (env : Env) (w : World) (call : ℕ) (outcome : Exchanged) :
    World :=
  match w.server.tasks call with
  | some (.exchanging _ state _ transaction) =>
      { w with
        server := Bff.step cfg env w.server (.exchanged call outcome)
        completed :=
          ⟨call, state, .outcome outcome, resultOf transaction.returnTo outcome⟩ :: w.completed }
  | _ => w

/-- `sessions.create` in `callback`. -/
def World.create (cfg : Config) (env : Env) (w : World) (call : ℕ) (sessionId csrfToken : String)
    (now : Time) : World :=
  match w.server.tasks call with
  | some (.creating _ _ _ _) =>
      { w with
        server := Bff.step cfg env w.server (.create call sessionId csrfToken now)
        created := ⟨call, sessionId⟩ :: w.created }
  | _ => w

/-- A cancellation while the call waits. -/
def World.cancel (w : World) (call : ℕ) : World :=
  match w.server.tasks call with
  | some (.exchanging _ state _ _) =>
      { w with
        server := { w.server with tasks := Function.update w.server.tasks call none }
        completed := ⟨call, state, .cancellation, .raised .cancelledError⟩ :: w.completed }
  | _ => w

def World.step (cfg : Config) (env : Env) (w : World) : Label → World
  | .flow (.login browser returnTo state verifier now) =>
      { w with server := Bff.step cfg env w.server (.login browser returnTo state verifier now) }
  | .flow (.callback call browser state code now) => w.callback cfg env call browser state code now
  | .flow (.exchanged call outcome) => w.exchanged cfg env call outcome
  | .flow (.create call sessionId csrfToken now) => w.create cfg env call sessionId csrfToken now
  | .cancelled call => w.cancel call

/-- A state that is drawn is new: no login has it, and no one has presented it. -/
def World.Fresh (w : World) : Label → Prop
  | .flow (.login _ _ state _ _) =>
      (∀ b ∈ w.server.begun, b.state ≠ state) ∧ state ∉ w.presented
  | _ => True

instance (w : World) (l : Label) : Decidable (w.Fresh l) := by
  unfold World.Fresh
  split <;> infer_instance

/-! ## The invariant -/

/-- What a call that is not over has done: one that waits is not completed, and one that creates a
    session has returned. -/
def World.Pending (w : World) (call : ℕ) : Task → Prop
  | .exchanging .. => ∀ f ∈ w.completed, f.call ≠ call
  | .creating .. => ∃ f ∈ w.completed, f.call = call ∧ ¬ f.Failed

/-- How a call ends follows from its cause, with the return path of the login of its state. -/
def World.Explained (w : World) (f : Completed) : Prop :=
  match f.cause with
  | .unknownState => ∃ detail, f.result = .raised (.oauthFailed detail)
  | .outcome exchanged => ∃ b ∈ w.server.begun, b.state = f.state ∧
      f.result = resultOf b.transaction.returnTo exchanged
  | .cancellation => f.result = .raised .cancelledError

structure World.Inv (cfg : Config) (env : Env) (w : World) : Prop where
  traced : Traced env w.server
  location : ∀ b ∈ w.server.begun, b.location = authorizeUrl cfg env b.state b.transaction.verifier
  spent : ∀ state ∈ w.presented, w.server.redis.live (oauthKey env state) = none
  once : (w.exchanges.map Exchange.state).Nodup
  exchanged : ∀ e ∈ w.exchanges, e.state ∈ w.presented ∧
    ∃ b ∈ w.server.begun, b.state = e.state ∧ b.transaction.verifier = e.verifier
  pending : ∀ call t, w.server.tasks call = some t →
    call ∈ w.started ∧ t.origin.2.1 ∈ w.presented ∧ w.Pending call t
  calls : (w.completed.map Completed.call).Nodup
  known : ∀ f ∈ w.completed, f.call ∈ w.started ∧ f.state ∈ w.presented
  explained : ∀ f ∈ w.completed, w.Explained f
  created : ∀ c ∈ w.created, ∃ f ∈ w.completed, f.call = c.call ∧ ¬ f.Failed
  sessions : ∀ k v, w.server.sessions k = some v → ∃ c ∈ w.created, sessionKey env c.sessionId = k

section Steps

variable {cfg : Config} {env : Env} {w : World}

theorem inv_start : World.Inv cfg env .start where
  traced := traced_start env
  location := fun b hb => by cases hb
  spent := fun state h => by cases h
  once := List.nodup_nil
  exchanged := fun e h => by cases h
  pending := fun call t h => by cases h
  calls := List.nodup_nil
  known := fun f h => by cases h
  explained := fun f h => by cases h
  created := fun c h => by cases h
  sessions := fun k v h => by cases h

/-- A dictionary that `complete` takes has the three keys. -/
theorem checkTokens_eq_ok {outcome : Exchanged} {tokens : Tokens}
    (h : checkTokens outcome = .ok tokens) : ∃ payload, outcome = .tokens payload ∧
      HasTokens payload := by
  cases outcome with
  | tokens payload =>
      refine ⟨payload, rfl, ?_⟩
      simp only [checkTokens] at h
      split at h
      · next u a r hu ha hr =>
          intro key hkey
          simp only [List.mem_cons, List.not_mem_nil, or_false] at hkey
          rcases hkey with rfl | rfl | rfl
          · rw [hu]
            rfl
          · rw [ha]
            rfl
          · rw [hr]
            rfl
      · cases h
  | oauthFailed detail => cases h
  | raised => cases h

theorem resultOf_error {outcome : Exchanged} {detail : String}
    (h : checkTokens outcome = .error detail) (path : String) :
    resultOf path outcome = .raised (.oauthFailed detail) := by
  unfold resultOf
  rw [h]

theorem resultOf_ok {outcome : Exchanged} {tokens : Tokens} (h : checkTokens outcome = .ok tokens)
    (path : String) : ∃ payload, resultOf path outcome = .returned payload path ∧
      HasTokens payload := by
  obtain ⟨payload, rfl, hkeys⟩ := checkTokens_eq_ok h
  refine ⟨payload, ?_, hkeys⟩
  unfold resultOf
  rw [h]

/-- A result of an exchange is a return with the keys, or an `OAuthFailed`. -/
theorem resultOf_cases (path : String) (outcome : Exchanged) :
    (∃ payload, resultOf path outcome = .returned payload path ∧ HasTokens payload) ∨
      ∃ detail, resultOf path outcome = .raised (.oauthFailed detail) := by
  cases h : checkTokens outcome with
  | ok tokens => exact .inl (resultOf_ok h path)
  | error detail => exact .inr ⟨detail, resultOf_error h path⟩

/-- A completed call stays explained when logins are added. -/
theorem World.Explained.mono {w' : World} (hbegun : w.server.begun ⊆ w'.server.begun)
    {f : Completed} (h : w.Explained f) : w'.Explained f := by
  unfold World.Explained at h ⊢
  split
  · next hc =>
      rw [hc] at h
      exact h
  · next exchanged hc =>
      rw [hc] at h
      obtain ⟨b, hb, hrest⟩ := h
      exact ⟨b, hbegun hb, hrest⟩
  · next hc =>
      rw [hc] at h
      exact h

/-! ## The steps -/

/-- A login puts its transaction and is recorded. -/
theorem step_login_some {s : Server} {browser : ℕ} {returnTo state verifier path : String}
    {now : Time} (hpath : cfg.safeReturnPath returnTo = some path) :
    Bff.step cfg env s (.login browser returnTo state verifier now) =
      { s with
        redis := s.redis.put (oauthKey env state) ⟨verifier, path⟩ (now + 300)
        begun := ⟨browser, state, ⟨verifier, path⟩, authorizeUrl cfg env state verifier⟩ ::
          s.begun } := by
  simp only [Bff.step, hpath]

theorem inv_login (henv : Function.Injective env.sha256) (h : w.Inv cfg env) {browser : ℕ}
    {returnTo state verifier : String} {now : Time}
    (hfresh : w.Fresh (.flow (.login browser returnTo state verifier now))) :
    (w.step cfg env (.flow (.login browser returnTo state verifier now))).Inv cfg env := by
  cases hpath : cfg.safeReturnPath returnTo with
  | none =>
      have hsame : w.step cfg env (.flow (.login browser returnTo state verifier now)) = w := by
        simp only [World.step, Bff.step, hpath]
      rw [hsame]
      exact h
  | some path =>
      have htraced : Traced env
          (Bff.step cfg env w.server (.login browser returnTo state verifier now)) :=
        traced_step henv w.server _ h.traced hfresh.1
      simp only [World.step]
      rw [step_login_some hpath] at htraced ⊢
      have hsub : w.server.begun ⊆ ⟨browser, state, ⟨verifier, path⟩,
          authorizeUrl cfg env state verifier⟩ :: w.server.begun := List.subset_cons_self _ _
      refine ⟨htraced, ?_, ?_, h.once, ?_, h.pending, h.calls, h.known, ?_, h.created, h.sessions⟩
      · intro b hb
        rcases List.mem_cons.mp hb with rfl | hb
        · rfl
        · exact h.location b hb
      · -- a state that was presented is none that is drawn now
        intro state' hstate'
        have hne : oauthKey env state' ≠ oauthKey env state := by
          intro hkey
          rw [oauthKey_inj henv hkey] at hstate'
          exact hfresh.2 hstate'
        exact (Function.update_of_ne hne ..).trans (h.spent state' hstate')
      · intro e he
        obtain ⟨hpresented, b, hb, hrest⟩ := h.exchanged e he
        exact ⟨hpresented, b, hsub hb, hrest⟩
      · exact fun f hf => (h.explained f hf).mono hsub

theorem step_callback_some {s : Server} {call browser : ℕ} {state code : String} {now : Time}
    {transaction : LoginTransaction}
    (hread : s.redis.read (oauthKey env state) now = some transaction) :
    Bff.step cfg env s (.callback call browser state code now) =
      { s with
        redis := (s.redis.take (oauthKey env state) call now).2
        tasks := Function.update s.tasks call
          (some (.exchanging browser state code transaction)) } := by
  have htake : (s.redis.take (oauthKey env state) call now).1 = some transaction := hread
  simp only [Bff.step, htake]

theorem step_callback_none {s : Server} {call browser : ℕ} {state code : String} {now : Time}
    (hread : s.redis.read (oauthKey env state) now = none) :
    Bff.step cfg env s (.callback call browser state code now) =
      Server.answer { s with redis := (s.redis.take (oauthKey env state) call now).2 } call browser
        state (.refused "invalid or reused state") := by
  have htake : (s.redis.take (oauthKey env state) call now).1 = none := hread
  simp only [Bff.step, htake]

/-- What is live was never presented. -/
theorem not_presented_of_read (h : w.Inv cfg env) {state : String} {now : Time}
    {transaction : LoginTransaction}
    (hread : w.server.redis.read (oauthKey env state) now = some transaction) :
    state ∉ w.presented := by
  intro hmem
  obtain ⟨d, hlive⟩ := OneTime.live_of_read hread
  rw [h.spent state hmem] at hlive
  cases hlive

/-- A call that has not started is not completed. -/
theorem not_completed (h : w.Inv cfg env) {call : ℕ} (hcall : call ∉ w.started) :
    ∀ f ∈ w.completed, f.call ≠ call := by
  rintro f hf rfl
  exact hcall (h.known f hf).1

/-- A call presents a state, and the state is spent. -/
theorem World.Inv.present (h : w.Inv cfg env) (call : ℕ) (state : String) (now : Time) :
    World.Inv cfg env
      { w with
        server := { w.server with redis := (w.server.redis.take (oauthKey env state) call now).2 }
        started := call :: w.started
        presented := state :: w.presented } := by
  have hstarted := List.subset_cons_self call w.started
  have hpresented := List.subset_cons_self state w.presented
  refine ⟨⟨h.traced.states, fun k v d hl => h.traced.live k v d (live_take hl), h.traced.tasks⟩,
    h.location, ?_, h.once, ?_, ?_, h.calls, ?_, ?_, h.created, h.sessions⟩
  · intro state' hstate'
    by_cases hkey : oauthKey env state' = oauthKey env state
    · rw [hkey]
      exact Function.update_self ..
    · refine (Function.update_of_ne hkey ..).trans ?_
      rcases List.mem_cons.mp hstate' with rfl | hmem
      · exact absurd rfl hkey
      · exact h.spent state' hmem
  · exact fun e he => ⟨hpresented (h.exchanged e he).1, (h.exchanged e he).2⟩
  · intro call' t ht
    obtain ⟨hcall, hstate, hpending⟩ := h.pending call' t ht
    refine ⟨hstarted hcall, hpresented hstate, ?_⟩
    cases t <;> exact hpending
  · exact fun f hf => ⟨hstarted (h.known f hf).1, hpresented (h.known f hf).2⟩
  · exact fun f hf => (h.explained f hf).mono (List.Subset.refl _)

/-- A call reaches the exchange with what the login of its state put. -/
theorem World.Inv.exchange (h : w.Inv cfg env) {e : Exchange}
    (hnew : ∀ e' ∈ w.exchanges, e'.state ≠ e.state) (hpresented : e.state ∈ w.presented)
    (hbegun : ∃ b ∈ w.server.begun, b.state = e.state ∧ b.transaction.verifier = e.verifier) :
    World.Inv cfg env { w with exchanges := e :: w.exchanges } := by
  refine ⟨h.traced, h.location, h.spent, ?_, ?_, ?_, h.calls, h.known, ?_, h.created, h.sessions⟩
  · rw [List.map_cons, List.nodup_cons]
    refine ⟨?_, h.once⟩
    intro hmem
    obtain ⟨e', he', hstate⟩ := List.mem_map.mp hmem
    exact hnew e' he' hstate
  · exact List.forall_mem_cons.mpr ⟨⟨hpresented, hbegun⟩, h.exchanged⟩
  · intro call t ht
    obtain ⟨hcall, hstate, hpending⟩ := h.pending call t ht
    refine ⟨hcall, hstate, ?_⟩
    cases t <;> exact hpending
  · exact fun f hf => (h.explained f hf).mono (List.Subset.refl _)

/-- A call is no longer in flight; which callbacks are answered does not matter. -/
theorem World.Inv.clear (h : w.Inv cfg env) (call : ℕ) (answered : List Answered) :
    World.Inv cfg env
      { w with
        server :=
          { w.server with tasks := Function.update w.server.tasks call none, answered } } := by
  refine ⟨⟨h.traced.states, h.traced.live, ?_⟩, h.location, h.spent, h.once, h.exchanged, ?_,
    h.calls, h.known, ?_, h.created, h.sessions⟩
  · exact fun call' t ht => h.traced.tasks call' t (slot_clear ht).2
  · intro call' t ht
    obtain ⟨hcall, hstate, hpending⟩ := h.pending call' t (slot_clear ht).2
    refine ⟨hcall, hstate, ?_⟩
    cases t <;> exact hpending
  · exact fun f hf => (h.explained f hf).mono (List.Subset.refl _)

/-- A call in flight goes on as `t`. -/
theorem World.Inv.goOn (h : w.Inv cfg env) {call : ℕ} {t : Task} (hcall : call ∈ w.started)
    (hstate : t.origin.2.1 ∈ w.presented) (hpending : w.Pending call t)
    (hbegun : ∃ b ∈ w.server.begun, b.state = t.origin.2.1 ∧ b.transaction = t.origin.2.2) :
    World.Inv cfg env
      { w with
        server :=
          { w.server with tasks := Function.update w.server.tasks call (some t) } } := by
  refine ⟨⟨h.traced.states, h.traced.live, ?_⟩, h.location, h.spent, h.once, h.exchanged, ?_,
    h.calls, h.known, ?_, h.created, h.sessions⟩
  · intro call' t' ht
    rcases slot_set ht with ⟨-, ht⟩ | ⟨-, rfl⟩
    · exact h.traced.tasks call' t' ht
    · exact hbegun
  · intro call' t' ht
    rcases slot_set ht with ⟨-, hold⟩ | ⟨rfl, rfl⟩
    · obtain ⟨hcall', hstate', hpending'⟩ := h.pending call' t' hold
      refine ⟨hcall', hstate', ?_⟩
      cases t' <;> exact hpending'
    · refine ⟨hcall, hstate, ?_⟩
      cases t' <;> exact hpending
  · exact fun f hf => (h.explained f hf).mono (List.Subset.refl _)

/-- A call that is no longer in flight is completed. -/
theorem World.Inv.complete (h : w.Inv cfg env) {f : Completed}
    (hnew : ∀ f' ∈ w.completed, f'.call ≠ f.call) (hidle : w.server.tasks f.call = none)
    (hcall : f.call ∈ w.started) (hstate : f.state ∈ w.presented) (hexplained : w.Explained f) :
    World.Inv cfg env { w with completed := f :: w.completed } := by
  refine ⟨h.traced, h.location, h.spent, h.once, h.exchanged, ?_, ?_, ?_, ?_, ?_, h.sessions⟩
  · intro call t ht
    obtain ⟨hcall', hstate', hpending⟩ := h.pending call t ht
    refine ⟨hcall', hstate', ?_⟩
    have hne : f.call ≠ call := by
      rintro rfl
      rw [hidle] at ht
      cases ht
    cases t with
    | exchanging browser state code transaction =>
        exact List.forall_mem_cons.mpr ⟨hne, hpending⟩
    | creating browser state transaction tokens =>
        obtain ⟨f', hf', hrest⟩ := hpending
        exact ⟨f', List.mem_cons_of_mem _ hf', hrest⟩
  · rw [List.map_cons, List.nodup_cons]
    refine ⟨?_, h.calls⟩
    intro hmem
    obtain ⟨f', hf', he⟩ := List.mem_map.mp hmem
    exact hnew f' hf' he
  · exact List.forall_mem_cons.mpr ⟨⟨hcall, hstate⟩, h.known⟩
  · exact List.forall_mem_cons.mpr ⟨hexplained.mono (List.Subset.refl _),
      fun f' hf' => (h.explained f' hf').mono (List.Subset.refl _)⟩
  · intro c hc
    obtain ⟨f', hf', hrest⟩ := h.created c hc
    exact ⟨f', List.mem_cons_of_mem _ hf', hrest⟩

theorem inv_callback_some (henv : Function.Injective env.sha256) (h : w.Inv cfg env)
    {call browser : ℕ} {state code : String} {now : Time} {transaction : LoginTransaction}
    (hcall : call ∉ w.started)
    (hread : w.server.redis.read (oauthKey env state) now = some transaction) :
    (w.callback cfg env call browser state code now).Inv cfg env := by
  obtain ⟨b, hb, hstate, htransaction⟩ := h.traced.taken henv hread
  have hnew := not_presented_of_read h hread
  have hpresent := h.present call state now
  have hgone := hpresent.goOn (t := .exchanging browser state code transaction)
    List.mem_cons_self List.mem_cons_self (not_completed h hcall) ⟨b, hb, hstate, htransaction⟩
  unfold World.callback
  rw [if_neg hcall, hread]
  dsimp only
  rw [step_callback_some hread]
  refine hgone.exchange (e := ⟨call, state, code, transaction.verifier⟩) ?_ List.mem_cons_self
    ⟨b, hb, hstate, by rw [htransaction]⟩
  rintro e he rfl
  exact hnew (h.exchanged e he).1

theorem inv_callback_none (h : w.Inv cfg env) {call browser : ℕ} {state code : String}
    {now : Time} (hcall : call ∉ w.started)
    (hread : w.server.redis.read (oauthKey env state) now = none) :
    (w.callback cfg env call browser state code now).Inv cfg env := by
  have hcleared := (h.present call state now).clear call
    (⟨browser, state, .refused "invalid or reused state"⟩ :: w.server.answered)
  unfold World.callback
  rw [if_neg hcall, hread]
  dsimp only
  rw [step_callback_none hread]
  exact hcleared.complete
    (f := ⟨call, state, .unknownState, .raised (.oauthFailed "invalid or reused state")⟩)
    (not_completed h hcall) (Function.update_self ..) List.mem_cons_self List.mem_cons_self ⟨_, rfl⟩

theorem step_exchanged_error {s : Server} {call browser : ℕ} {state code detail : String}
    {transaction : LoginTransaction} {outcome : Exchanged}
    (htask : s.tasks call = some (.exchanging browser state code transaction))
    (hcheck : checkTokens outcome = .error detail) :
    Bff.step cfg env s (.exchanged call outcome) =
      s.answer call browser state (.refused detail) := by
  simp only [Bff.step, htask, hcheck]

theorem step_exchanged_ok {s : Server} {call browser : ℕ} {state code : String}
    {transaction : LoginTransaction} {outcome : Exchanged} {tokens : Tokens}
    (htask : s.tasks call = some (.exchanging browser state code transaction))
    (hcheck : checkTokens outcome = .ok tokens) :
    Bff.step cfg env s (.exchanged call outcome) =
      { s with
        tasks := Function.update s.tasks call
          (some (.creating browser state transaction tokens)) } := by
  simp only [Bff.step, htask, hcheck]

/-- A call that waited is over. -/
theorem World.Inv.ends (h : w.Inv cfg env) {call browser : ℕ} {state code : String}
    {transaction : LoginTransaction}
    (htask : w.server.tasks call = some (.exchanging browser state code transaction))
    (answered : List Answered) {cause : Cause} {result : Result}
    (hexplained : w.Explained ⟨call, state, cause, result⟩) :
    World.Inv cfg env
      { w with
        server := { w.server with tasks := Function.update w.server.tasks call none, answered }
        completed := ⟨call, state, cause, result⟩ :: w.completed } := by
  obtain ⟨hcall, hstate, hwaits⟩ := h.pending call _ htask
  exact (h.clear call answered).complete (f := ⟨call, state, cause, result⟩) hwaits
    (Function.update_self ..) hcall hstate (hexplained.mono (List.Subset.refl _))

theorem inv_exchanged (h : w.Inv cfg env) (call : ℕ) (outcome : Exchanged) :
    (w.exchanged cfg env call outcome).Inv cfg env := by
  unfold World.exchanged
  split
  · next browser state code transaction htask =>
      obtain ⟨hcall, hstate, -⟩ := h.pending call _ htask
      obtain ⟨b, hb, hbstate, htransaction⟩ := h.traced.tasks call _ htask
      have hexplained : w.Explained ⟨call, state, .outcome outcome,
          resultOf transaction.returnTo outcome⟩ :=
        ⟨b, hb, hbstate, by rw [htransaction]; rfl⟩
      cases hcheck : checkTokens outcome with
      | error detail =>
          rw [step_exchanged_error htask hcheck]
          exact h.ends htask _ hexplained
      | ok tokens =>
          obtain ⟨payload, hresult, -⟩ := resultOf_ok hcheck transaction.returnTo
          have hgone := (h.ends htask w.server.answered hexplained).goOn
            (t := .creating browser state transaction tokens) hcall hstate
            ⟨_, List.mem_cons_self, rfl, fun hfailed => hfailed _ _ hresult⟩
            ⟨b, hb, hbstate, htransaction⟩
          rw [step_exchanged_ok htask hcheck]
          simpa only [Function.update_idem] using hgone
  · exact h

theorem inv_cancel (h : w.Inv cfg env) (call : ℕ) : (w.cancel call).Inv cfg env := by
  unfold World.cancel
  split
  · next browser state code transaction htask => exact h.ends htask _ rfl
  · exact h

theorem inv_create (h : w.Inv cfg env) (call : ℕ) (sessionId csrfToken : String) (now : Time) :
    (w.create cfg env call sessionId csrfToken now).Inv cfg env := by
  unfold World.create
  split
  · next browser state transaction tokens htask =>
      obtain ⟨-, -, hreturned⟩ := h.pending call _ htask
      have hcleared := h.clear call
        (⟨browser, state, .session sessionId transaction.returnTo⟩ :: w.server.answered)
      simp only [Bff.step, htask]
      refine ⟨⟨h.traced.states, h.traced.live, hcleared.traced.tasks⟩, hcleared.location,
        hcleared.spent, hcleared.once, hcleared.exchanged, ?_, hcleared.calls, hcleared.known, ?_,
        ?_, ?_⟩
      · intro call' t ht
        obtain ⟨hstarted, hpresented, hpending⟩ := hcleared.pending call' t ht
        refine ⟨hstarted, hpresented, ?_⟩
        cases t <;> exact hpending
      · exact fun f hf => (h.explained f hf).mono (List.Subset.refl _)
      · exact List.forall_mem_cons.mpr ⟨hreturned, h.created⟩
      · intro k v hk
        rcases slot_set hk with ⟨-, hk⟩ | ⟨hkey, -⟩
        · obtain ⟨c, hc, hkey⟩ := h.sessions k v hk
          exact ⟨c, List.mem_cons_of_mem _ hc, hkey⟩
        · exact ⟨_, List.mem_cons_self, hkey.symm⟩
  · exact h

theorem inv_step (henv : Function.Injective env.sha256) (w : World) (l : Label)
    (h : w.Inv cfg env) (hl : w.Fresh l) : (w.step cfg env l).Inv cfg env := by
  cases l with
  | flow l =>
      cases l with
      | login browser returnTo state verifier now => exact inv_login henv h hl
      | callback call browser state code now =>
          by_cases hcall : call ∈ w.started
          · have hsame : w.step cfg env (.flow (.callback call browser state code now)) = w :=
              if_pos hcall
            rw [hsame]
            exact h
          · cases hread : w.server.redis.read (oauthKey env state) now with
            | some transaction => exact inv_callback_some henv h hcall hread
            | none => exact inv_callback_none h hcall hread
      | exchanged call outcome => exact inv_exchanged h call outcome
      | create call sessionId csrfToken now => exact inv_create h call sessionId csrfToken now
  | cancelled call => exact inv_cancel h call

theorem inv_run (henv : Function.Injective env.sha256) {ls : List Label}
    (h : Along (World.step cfg env) World.Fresh .start ls) :
    (run (World.step cfg env) .start ls).Inv cfg env :=
  run_invariant (World.step cfg env) (World.Inv cfg env) (inv_step henv) inv_start h

/-! ## A state that was presented -/

/-- The exchanges after a step: one more at most, of a state that was not presented. -/
theorem exchanges_step (h : w.Inv cfg env) (l : Label) :
    (w.step cfg env l).exchanges = w.exchanges ∨
      ∃ e, e.state ∉ w.presented ∧ (w.step cfg env l).exchanges = e :: w.exchanges := by
  cases l with
  | cancelled call =>
      simp only [World.step, World.cancel]
      split <;> exact .inl rfl
  | flow l =>
      cases l with
      | login browser returnTo state verifier now => exact .inl rfl
      | callback call browser state code now =>
          simp only [World.step, World.callback]
          split
          · exact .inl rfl
          · split
            · next transaction hread => exact .inr ⟨_, not_presented_of_read h hread, rfl⟩
            · exact .inl rfl
      | exchanged call outcome =>
          simp only [World.step, World.exchanged]
          split <;> exact .inl rfl
      | create call sessionId csrfToken now =>
          simp only [World.step, World.create]
          split <;> exact .inl rfl

theorem presented_step (w : World) (l : Label) :
    w.presented ⊆ (w.step cfg env l).presented := by
  cases l with
  | cancelled call =>
      simp only [World.step, World.cancel]
      split <;> exact List.Subset.refl _
  | flow l =>
      cases l with
      | login browser returnTo state verifier now => exact List.Subset.refl _
      | callback call browser state code now =>
          simp only [World.step, World.callback]
          split
          · exact List.Subset.refl _
          · split <;> exact List.subset_cons_self _ _
      | exchanged call outcome =>
          simp only [World.step, World.exchanged]
          split <;> exact List.Subset.refl _
      | create call sessionId csrfToken now =>
          simp only [World.step, World.create]
          split <;> exact List.Subset.refl _

/-- No call that is made with it later reaches the exchange. -/
theorem exchanges_settled (henv : Function.Injective env.sha256) (h : w.Inv cfg env)
    {state : String} (hstate : state ∈ w.presented) {ms : List Label}
    (hms : Along (World.step cfg env) World.Fresh w ms) :
    ∀ e ∈ (run (World.step cfg env) w ms).exchanges, e.state = state → e ∈ w.exchanges := by
  have hrun := run_invariant (World.step cfg env)
    (fun w' => w'.Inv cfg env ∧ state ∈ w'.presented ∧
      ∀ e ∈ w'.exchanges, e.state = state → e ∈ w.exchanges) ?_
    ⟨h, hstate, fun e he _ => he⟩ hms
  · exact hrun.2.2
  · rintro w' l ⟨hinv, hpresented, hsettled⟩ hl
    refine ⟨inv_step henv w' l hinv hl, presented_step w' l hpresented, ?_⟩
    rcases exchanges_step hinv l with hsame | ⟨e, hnew, hcons⟩
    · rw [hsame]
      exact hsettled
    · rw [hcons]
      intro e' he' hstate'
      rcases List.mem_cons.mp he' with rfl | he'
      · exact absurd (hstate' ▸ hpresented) hnew
      · exact hsettled e' he' hstate'

end Steps

/-! ## One exchange a state -/

/-- What holds of the calls that were made. -/
structure OneTimeLogins (cfg : Config) (env : Env) (w : World) : Prop where
  /-- At most one call with a state reaches the exchange. -/
  once : (w.exchanges.map Exchange.state).Nodup
  /-- It is called with the verifier whose challenge is in the address `begin` returned. -/
  verifier : ∀ e ∈ w.exchanges, ∃ b ∈ w.server.begun, b.state = e.state ∧
    b.location = authorizeUrl cfg env e.state e.verifier
  returned : ∀ f ∈ w.completed, ∀ tokens path, f.result = .returned tokens path →
    HasTokens tokens ∧ ∃ b ∈ w.server.begun, b.state = f.state ∧ b.transaction.returnTo = path
  /-- A failure is an `OAuthFailed`, if it is no cancellation. -/
  surfaces : ∀ f ∈ w.completed, f.Failed → f.cause ≠ .cancellation →
    ∃ detail, f.result = .raised (.oauthFailed detail)
  /-- A session is one of a call that returned. -/
  sessions : ∀ k v, w.server.sessions k = some v → ∃ c ∈ w.created, sessionKey env c.sessionId = k
  failed : ∀ f ∈ w.completed, f.Failed → ∀ c ∈ w.created, c.call ≠ f.call
  unusable : ∀ f ∈ w.completed, ∀ now, w.server.redis.read (oauthKey env f.state) now = none

theorem World.Inv.oneTimeLogins {cfg : Config} {env : Env} {w : World} (h : w.Inv cfg env) :
    OneTimeLogins cfg env w := by
  refine ⟨h.once, ?_, ?_, ?_, h.sessions, ?_, ?_⟩
  · intro e he
    obtain ⟨-, b, hb, hstate, hverifier⟩ := h.exchanged e he
    exact ⟨b, hb, hstate, by rw [h.location b hb, hstate, hverifier]⟩
  · intro f hf tokens path hresult
    have hexplained := h.explained f hf
    unfold World.Explained at hexplained
    split at hexplained
    · obtain ⟨detail, he⟩ := hexplained
      rw [hresult] at he
      cases he
    · next exchanged hc =>
        obtain ⟨b, hb, hstate, he⟩ := hexplained
        rw [hresult] at he
        rcases resultOf_cases b.transaction.returnTo exchanged with ⟨payload, hr, hkeys⟩ | ⟨d, hr⟩
        · rw [hr] at he
          cases he
          exact ⟨hkeys, b, hb, hstate, rfl⟩
        · rw [hr] at he
          cases he
    · rw [hresult] at hexplained
      cases hexplained
  · intro f hf hfailed hcause
    have hexplained := h.explained f hf
    unfold World.Explained at hexplained
    split at hexplained
    · exact hexplained
    · next exchanged hc =>
        obtain ⟨b, -, -, he⟩ := hexplained
        rcases resultOf_cases b.transaction.returnTo exchanged with ⟨payload, hr, -⟩ | ⟨d, hr⟩
        · exact absurd (he.trans hr) (hfailed payload b.transaction.returnTo)
        · exact ⟨d, he.trans hr⟩
    · next hc => exact absurd hc hcause
  · intro f hf hfailed c hc hcall
    obtain ⟨f', hf', hcall', hreturned⟩ := h.created c hc
    have hsame : f' = f := List.inj_on_of_nodup_map h.calls hf' hf (hcall'.trans hcall)
    exact hreturned (hsame ▸ hfailed)
  · intro f hf now
    unfold OneTime.read
    rw [h.spent f.state (h.known f hf).2]
    rfl

/-- In every run: each state makes at most one call reach the exchange, with its own verifier;
    what is returned has the three tokens and the return path of the login of the state; what
    fails leaves no session, and is an `OAuthFailed` if it is no cancellation; and no call that is
    made with a state after one that is over reaches the exchange. -/
theorem transactions_one_time (cfg : Config) (env : Env) (henv : Function.Injective env.sha256)
    (ls ms : List Label) (h : Along (World.step cfg env) World.Fresh .start (ls ++ ms)) :
    OneTimeLogins cfg env (run (World.step cfg env) .start ls) ∧
      ∀ f ∈ (run (World.step cfg env) .start ls).completed,
        ∀ e ∈ (run (World.step cfg env) .start (ls ++ ms)).exchanges, e.state = f.state →
          e ∈ (run (World.step cfg env) .start ls).exchanges := by
  obtain ⟨hls, hms⟩ := (along_append (World.step cfg env) .start ls ms).mp h
  have hinv := inv_run henv hls
  refine ⟨hinv.oneTimeLogins, ?_⟩
  intro f hf
  rw [run_append]
  exact exchanges_settled henv hinv (hinv.known f hf).2 hms

/-- A login, two callbacks with its state, and the session of the one that came first. -/
def race : List Label :=
  [.flow (.login 1 "/" "state-1" "verifier-1" 0), .flow (.callback 7 1 "state-1" "code-1" 5),
    .flow (.callback 8 2 "state-1" "code-2" 5), .flow (.exchanged 7 (tokensOf "u1")),
    .flow (.create 7 "session" "csrf" 6)]

/-- A third callback comes later. -/
theorem transactions_one_time_race :
    OneTimeLogins labConfig plainEnv (run (World.step labConfig plainEnv) .start race) ∧
      ∀ f ∈ (run (World.step labConfig plainEnv) .start race).completed,
        ∀ e ∈ (run (World.step labConfig plainEnv) .start
            (race ++ [.flow (.callback 9 1 "state-1" "code-1" 7)])).exchanges,
          e.state = f.state →
          e ∈ (run (World.step labConfig plainEnv) .start race).exchanges :=
  transactions_one_time labConfig plainEnv Function.injective_id race
    [.flow (.callback 9 1 "state-1" "code-1" 7)] (by decide +kernel)

/-- A callback whose exchange is cancelled ends with a `CancelledError`. -/
theorem cancellation_passes : ¬ ∀ (cfg : Config) (env : Env) (ls : List Label),
    Function.Injective env.sha256 → Along (World.step cfg env) World.Fresh .start ls →
    OneTimeLogins cfg env (run (World.step cfg env) .start ls) ∧
      ∀ f ∈ (run (World.step cfg env) .start ls).completed, f.Failed →
        ∃ detail, f.result = .raised (.oauthFailed detail) := by
  intro h
  obtain ⟨-, hsurfaces⟩ := h labConfig plainEnv
    [.flow (.login 1 "/" "state-1" "verifier-1" 0), .flow (.callback 7 1 "state-1" "code-1" 5),
      .cancelled 7] Function.injective_id (by decide +kernel)
  obtain ⟨detail, hresult⟩ := hsurfaces ⟨7, "state-1", .cancellation, .raised .cancelledError⟩
    (by decide +kernel) fun tokens path he => by cases he
  cases hresult

end TemisLab.Bff
