/-
  Whether a login ends in the browser it began in. A callback is not told which browser began its
  state: `begin` hands the state to `login`, which sets no cookie, and `callback` reads none.

  * `Stays`: a browser that is answered with a session began the login of the state itself.
  * `foreign_callback`: it fails. A browser that opens the callback of another's login is signed
    in to the account that the other completed it with.
  * `own_browser`: it holds of each run in which no browser opens the callback of a pending login
    that another began (`Own`), and such a step can always be followed by the session.
-/
import TemisLab.Bff.Flow

namespace TemisLab.Bff

open TemisLab.Lib TemisLab.Sso

/-- In the run of `ls`: sessions go to the browsers that began the logins of their states. -/
def Stays (cfg : Config) (env : Env) (ls : List Step) : Prop :=
  let s := run (step cfg env) .start ls
  ∀ a ∈ s.answered, ∀ sessionId returnTo, a.answer = .session sessionId returnTo →
    ∃ b ∈ s.begun, b.state = a.state ∧ b.browser = a.browser

/-- A callback for a pending login is opened in the browser that began it. -/
def Own (env : Env) (s : Server) : Step → Prop
  | .callback _ browser state _ now => (s.redis.read (oauthKey env state) now).isSome = true →
      ∀ b ∈ s.begun, b.state = state → b.browser = browser
  | _ => True

instance (env : Env) (s : Server) (l : Step) : Decidable (Own env s l) := by
  unfold Own
  split <;> infer_instance

/-- The lab's configuration, with the return path as it is. -/
def labConfig : Config where
  authorizeEndpoint := "http://localhost:8000/oauth/authorize"
  clientId := "temis-web"
  redirectUri := "http://localhost:3000/auth/callback"
  safeReturnPath := some

/-- What the token endpoint answers for a user. -/
def tokensOf (userId : String) : Exchanged :=
  .tokens [("user_id", userId), ("access_token", "access"), ("refresh_token", "refresh"),
    ("token_type", "bearer")]

/-- Browser 1 begins a login and completes it at the SSO; browser 2 opens its callback. -/
def foreign : List Step :=
  [.login 1 "/" "state-1" "verifier-1" 0, .callback 7 2 "state-1" "code-1" 5,
    .exchanged 7 (tokensOf "attacker"), .create 7 "session" "csrf" 6]

/-- Browser 2 gets the session. -/
theorem foreign_callback : ¬ ∀ cfg env ls, Function.Injective env.sha256 →
    Along (step cfg env) FreshState .start ls → Stays cfg env ls := by
  intro h
  obtain ⟨b, hb, -, hbrowser⟩ := h labConfig plainEnv foreign Function.injective_id
    (by decide +kernel) ⟨2, "state-1", .session "session" "/"⟩ (by decide +kernel) "session" "/" rfl
  revert b
  decide +kernel

/-! ## Runs of own callbacks -/

/-- Callbacks that are not over are in the browser that began their login, and so were those that
    ended with a session. -/
structure Home (s : Server) : Prop where
  tasks : ∀ rid t, s.tasks rid = some t →
    ∃ b ∈ s.begun, b.state = t.origin.2.1 ∧ b.browser = t.origin.1
  answered : ∀ a ∈ s.answered, ∀ sessionId returnTo, a.answer = .session sessionId returnTo →
    ∃ b ∈ s.begun, b.state = a.state ∧ b.browser = a.browser

theorem home_start : Home .start := by
  refine ⟨?_, ?_⟩
  · intro rid t h
    cases h
  · intro a ha
    cases ha

variable {cfg : Config} {env : Env}

/-- A callback that ends without a session. -/
theorem Home.refuse {s : Server} (h : Home s) (rid browser : ℕ) (state detail : String) :
    Home (s.answer rid browser state (.refused detail)) := by
  refine ⟨fun rid' t ht => h.tasks rid' t (slot_clear ht).2, ?_⟩
  intro a ha sessionId returnTo he
  rcases List.mem_cons.mp ha with rfl | ha
  · cases he
  · exact h.answered a ha sessionId returnTo he

theorem home_step (henv : Function.Injective env.sha256) {s : Server} {l : Step}
    (ht : Traced env s) (h : Home s) (hl : Own env s l) : Home (step cfg env s l) := by
  have hd := step_did cfg env s l
  generalize step cfg env s l = s' at hd ⊢
  cases hd with
  | stayed => exact h
  | began browser returnTo state verifier path now hpath =>
      refine ⟨?_, ?_⟩
      · intro rid t htask
        obtain ⟨b, hb, hs⟩ := h.tasks rid t htask
        exact ⟨b, List.mem_cons_of_mem _ hb, hs⟩
      · intro a ha sessionId returnTo he
        obtain ⟨b, hb, hs⟩ := h.answered a ha sessionId returnTo he
        exact ⟨b, List.mem_cons_of_mem _ hb, hs⟩
  | took rid browser state code now transaction hread =>
      refine ⟨?_, h.answered⟩
      intro rid' t htask
      rcases slot_set htask with ⟨-, htask⟩ | ⟨-, rfl⟩
      · exact h.tasks rid' t htask
      · obtain ⟨b, hb, hstate, -⟩ := ht.taken henv hread
        have hbrowser := hl (by rw [hread]; rfl) b hb hstate
        exact ⟨b, hb, hstate, hbrowser⟩
  | missed rid browser state code now hread =>
      have hredis : Home { s with redis := (s.redis.take (oauthKey env state) rid now).2 } :=
        ⟨h.tasks, h.answered⟩
      exact hredis.refuse rid browser state _
  | refused rid browser state code transaction outcome detail htask hcheck =>
      exact h.refuse rid browser state detail
  | passed rid browser state code transaction outcome tokens htask hcheck =>
      refine ⟨?_, h.answered⟩
      intro rid' t htask'
      rcases slot_set htask' with ⟨-, htask'⟩ | ⟨-, rfl⟩
      · exact h.tasks rid' t htask'
      · have htaken := h.tasks rid _ htask
        exact htaken
  | created rid browser state transaction tokens sessionId csrfToken now htask =>
      refine ⟨fun rid' t htask' => h.tasks rid' t (slot_clear htask').2, ?_⟩
      intro a ha sid ret he
      rcases List.mem_cons.mp ha with rfl | ha
      · have htaken := h.tasks rid _ htask
        exact htaken
      · exact h.answered a ha sid ret he

/-! ## A callback that crosses -/

/-- The rest of a callback whose code the SSO redeems. -/
def onward (rid : ℕ) : List Step := [.exchanged rid (tokensOf "user"), .create rid "session" "" 0]

/-- After a callback that took a transaction, it leads to a session in its browser. -/
theorem onward_answered (cfg : Config) (env : Env) {s : Server} {rid browser : ℕ}
    {state code : String} {transaction : LoginTransaction}
    (htask : s.tasks rid = some (.exchanging browser state code transaction)) :
    ⟨browser, state, .session "session" transaction.returnTo⟩ ∈
        (run (step cfg env) s (onward rid)).answered ∧
      (run (step cfg env) s (onward rid)).begun = s.begun := by
  have hcheck : checkTokens (tokensOf "user") = .ok ⟨"user", "access", "refresh"⟩ := rfl
  simp only [onward, run_cons, run_nil, step, htask, hcheck, Function.update_self, Server.answer]
  exact ⟨List.mem_cons_self, trivial⟩

/-- A browser gets the session of its own login: in every run of own callbacks, and after no step
    that is not one. -/
theorem own_browser (cfg : Config) (env : Env) (ls : List Step)
    (henv : Function.Injective env.sha256)
    (hfresh : Along (step cfg env) FreshState .start ls) :
    (Along (step cfg env) (Own env) .start ls → Stays cfg env ls) ∧
      ∀ l, ¬ Own env (run (step cfg env) .start ls) l →
        ∃ rest, Along (step cfg env) (fun s l => FreshState s l ∧ Own env s l)
            (run (step cfg env) .start (ls ++ [l])) rest ∧ ¬ Stays cfg env (ls ++ l :: rest) := by
  refine ⟨?_, ?_⟩
  · intro hown
    have h := run_invariant (step cfg env) (fun s => Traced env s ∧ Home s) ?_
      ⟨traced_start env, home_start⟩ (hfresh.and hown)
    · exact h.2.answered
    · intro s l hs hl
      exact ⟨traced_step henv s l hs.1 hl.1, home_step henv hs.1 hs.2 hl.2⟩
  · intro l hl
    have ht : Traced env (run (step cfg env) .start ls) := traced_run henv hfresh
    cases l with
    | callback rid browser state code now =>
        simp only [Own, not_forall] at hl
        obtain ⟨hsome, b, hb, hstate, hne⟩ := hl
        obtain ⟨transaction, hread⟩ := Option.isSome_iff_exists.mp hsome
        refine ⟨onward rid, ⟨⟨trivial, trivial⟩, ⟨trivial, trivial⟩, trivial⟩, ?_⟩
        generalize hs : run (step cfg env) .start ls = s at ht hb hread
        have htake : (s.redis.take (oauthKey env state) rid now).1 = some transaction := hread
        have htask : (step cfg env s (.callback rid browser state code now)).tasks rid =
            some (.exchanging browser state code transaction) := by
          simp only [step, htake, Function.update_self]
        have hbegun : (step cfg env s (.callback rid browser state code now)).begun = s.begun := by
          simp only [step, htake]
        obtain ⟨hmem, hsame⟩ := onward_answered cfg env htask
        intro hstays
        unfold Stays at hstays
        simp only [run_append, run_cons, hs] at hstays
        obtain ⟨b', hb', hstate', hbrowser⟩ := hstays _ hmem _ _ rfl
        rw [hsame, hbegun] at hb'
        have heq := List.inj_on_of_nodup_map ht.states hb hb' (hstate.trans hstate'.symm)
        rw [heq] at hne
        exact hne hbrowser
    | _ => exact absurd trivial hl

/-- Two browsers log in, and one opens a callback of the other's when it is too late. -/
theorem two_browsers_own : Stays labConfig plainEnv
    [.login 1 "/" "state-1" "verifier-1" 0, .login 2 "/reports" "state-2" "verifier-2" 1,
      .login 1 "/" "state-3" "verifier-3" 2, .callback 7 2 "state-2" "code-2" 5,
      .callback 8 1 "state-1" "code-1" 5, .exchanged 8 (tokensOf "u1"),
      .exchanged 7 (tokensOf "u2"),
      .create 7 "session-2" "csrf" 6, .create 8 "session-1" "csrf" 6,
      .callback 9 2 "state-3" "code-3" 302, .callback 9 2 "state-1" "code-1" 10] :=
  (own_browser labConfig plainEnv _ Function.injective_id (by decide +kernel)).1 (by decide +kernel)

end TemisLab.Bff
