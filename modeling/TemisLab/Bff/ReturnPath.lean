/-
  The return path of a login, from `GET /login` to the `Location` of its callback. `begin` stores
  what `safe_return_path` gives, and that is the decoded text; the framework has decoded the
  parameter before. `RedirectResponse` quotes what it is given; which characters it leaves is a
  parameter (`safe`).

  * `safeReturnPath_eq_ok`: what is accepted is the decoded text, if it is a local path.
  * `no_open_redirect`: in every run, what a callback redirects to is a path of the BFF.
  * `return_path_survives_iff`: it denotes what `/login` was given exactly if the decoding that is
    one too many leaves that (`StablePath`, `StableQuery`).
-/
import TemisLab.Lib.Redecode
import TemisLab.Bff.Flow
import TemisLab.Bff.Validators

namespace TemisLab.Bff

open TemisLab.Lib TemisLab.Sso

/-- `safe_return_path` as the login uses it. -/
def returnPath (t : Url.Tables) (value : String) : Option String :=
  (safeReturnPath t value).toOption

/-- The `Location` of `RedirectResponse(return_to)`. -/
def location (safe : List Char) (path : String) : List Char := Percent.quote safe path.toList

/-! ## What is accepted -/

/-- The check is the one of `Url.Local`, once the text is split. -/
theorem accepts_iff {decoded : List Char} {parsed : Url.SplitResult} :
    ¬ (¬ ['/'] <+: decoded ∨ ['/', '/'] <+: decoded ∨ parsed.scheme ≠ [] ∨ parsed.netloc ≠ [] ∨
      unsafeCharacter decoded = true) ↔
      Url.Local decoded ∧ parsed.scheme = [] ∧ parsed.netloc = [] := by
  simp only [unsafeCharacter, decide_eq_true_eq, List.any_eq_true, not_or, not_not, not_exists,
    not_and, not_lt]
  constructor
  case mp =>
    rintro ⟨⟨rest, rfl⟩, hdouble, hscheme, hnetloc, hback, hcontrol⟩
    have hplain : ∀ c ∈ ['/'] ++ rest, 32 ≤ c.toNat ∧ c ≠ '\\' :=
      fun c hc => ⟨hcontrol c hc, fun he => hback (he ▸ hc)⟩
    refine ⟨⟨rfl, ?_, hplain⟩, hscheme, hnetloc⟩
    intro c hc
    refine ⟨?_, (hplain c (List.mem_of_getElem? hc)).2⟩
    rintro rfl
    cases rest with
    | nil => cases hc
    | cons d rest =>
        cases hc
        exact hdouble ⟨rest, rfl⟩
  case mpr =>
    rintro ⟨hlocal, hscheme, hnetloc⟩
    obtain ⟨rest, rfl, hrest⟩ := hlocal.eq_cons
    refine ⟨⟨rest, rfl⟩, ?_, hscheme, hnetloc, fun hc => (hlocal.plain _ hc).2 rfl,
      fun c hc => (hlocal.plain c hc).1⟩
    rintro ⟨tail, htail⟩
    obtain rfl : '/' :: tail = rest := List.tail_eq_of_cons_eq htail
    cases hrest '/' rfl

/-- What is accepted is the decoded text, if that is a local path. -/
theorem safeReturnPath_eq_ok {t : Url.Tables} {value path : String} :
    safeReturnPath t value = .ok path ↔
      path.toList = Percent.unquote value.toList ∧ Url.Local path.toList := by
  unfold safeReturnPath
  dsimp only
  constructor
  · intro h
    cases hsplit : Url.urlsplit t (Percent.unquote value.toList) with
    | none =>
        rw [hsplit] at h
        cases h
    | some parsed =>
        rw [hsplit] at h
        dsimp only at h
        split at h
        · cases h
        · next haccepts =>
            cases h
            rw [String.toList_ofList]
            exact ⟨rfl, (accepts_iff.mp haccepts).1⟩
  · rintro ⟨htext, hlocal⟩
    rw [htext] at hlocal
    obtain ⟨parsed, hsplit, hscheme, hnetloc⟩ := Url.urlsplit_local hlocal t
    have haccepts := accepts_iff.mpr ⟨hlocal, hscheme, hnetloc⟩
    rw [hsplit]
    dsimp only
    rw [if_neg haccepts, ← htext, String.ofList_toList]
    rfl

theorem returnPath_eq_some {t : Url.Tables} {value path : String} :
    returnPath t value = some path ↔ safeReturnPath t value = .ok path := by
  unfold returnPath
  cases safeReturnPath t value with
  | error e => simp [Except.toOption]
  | ok p => simp [Except.toOption]

/-! ## What is sent -/

/-- Quoting brings in percent signs and digits only. -/
theorem mem_quote {safe cs : List Char} {c : Char} (h : c ∈ Percent.quote safe cs) :
    c ∈ cs ∨ (32 ≤ c.toNat ∧ c ≠ '\\') := by
  by_cases hc : Percent.Literal c
  · by_contra hno
    exact PathQuery.not_mem_quote hc (fun hmem => hno (.inl hmem)) h
  · refine .inr ⟨?_, ?_⟩
    · by_contra hlt
      refine hc ⟨?_, ?_⟩
      · rintro rfl
        exact hlt (by decide)
      · unfold Percent.hexDigit
        have h0 : ∀ d : Char, 32 ≤ d.toNat → ¬ d ≤ c := by
          intro d hd hle
          have hle' : d.toNat ≤ c.toNat := hle
          omega
        simp [h0 '0' (by decide), h0 'A' (by decide), h0 'a' (by decide)]
    · rintro rfl
      exact hc (by decide)

theorem local_location {safe : List Char} (hslash : '/' ∈ safe) {path : String}
    (h : Url.Local path.toList) : Url.Local (location safe path) := by
  have hkept : Percent.Kept safe '/' := .inr ⟨hslash, by decide⟩
  obtain ⟨rest, hcs, -⟩ := h.eq_cons
  unfold location
  rw [hcs] at h ⊢
  rw [Percent.quote_cons_kept hkept]
  refine ⟨rfl, ?_, ?_⟩
  · intro c hc
    cases rest with
    | nil => cases hc
    | cons d rest =>
        obtain ⟨d', tail, hquote, hd'⟩ := Percent.quoteChar_eq_cons safe d
        rw [Percent.quote_cons, hquote] at hc
        cases hc
        rcases hd' with rfl | rfl
        · exact h.second _ rfl
        · decide
  · intro c hc
    rcases List.mem_cons.mp hc with rfl | hc
    · decide
    · rcases mem_quote hc with hmem | hplain
      · exact h.plain c (List.mem_cons_of_mem _ hmem)
      · exact hplain

/-! ## Every run -/

/-- Every return path, stored, taken or sent, is one of `P`. -/
structure Carries (P : String → Prop) (s : Server) : Prop where
  live : ∀ k v d, s.redis.live k = some (v, d) → P v.returnTo
  tasks : ∀ rid t, s.tasks rid = some t → P t.origin.2.2.returnTo
  answered : ∀ a ∈ s.answered, ∀ sessionId path, a.answer = .session sessionId path → P path

variable {cfg : Config} {env : Env} {P : String → Prop}

theorem carries_start : Carries P .start := by
  refine ⟨?_, ?_, ?_⟩
  · intro k v d h
    cases h
  · intro rid t h
    cases h
  · intro a ha
    cases ha

/-- A callback that is over. -/
theorem Carries.answer {s : Server} (h : Carries P s) (rid browser : ℕ) (state : String)
    {answer : Answer} (hanswer : ∀ sessionId path, answer = .session sessionId path → P path) :
    Carries P (s.answer rid browser state answer) := by
  refine ⟨h.live, fun rid' t ht => h.tasks rid' t (slot_clear ht).2, ?_⟩
  intro a ha sessionId path he
  rcases List.mem_cons.mp ha with rfl | ha
  · exact hanswer sessionId path he
  · exact h.answered a ha sessionId path he

theorem carries_step (hP : ∀ value path, cfg.safeReturnPath value = some path → P path)
    (s : Server) (l : Step) (h : Carries P s) : Carries P (step cfg env s l) := by
  have hrefused : ∀ detail sessionId path,
      Answer.refused detail = .session sessionId path → P path := fun _ _ _ he => by cases he
  have hd := step_did cfg env s l
  generalize step cfg env s l = s' at hd ⊢
  cases hd with
  | stayed => exact h
  | began browser returnTo state verifier path now hpath =>
      refine ⟨?_, h.tasks, h.answered⟩
      intro k v d hlive
      rcases slot_set hlive with ⟨-, hlive⟩ | ⟨-, he⟩
      · exact h.live k v d hlive
      · cases he
        exact hP returnTo path hpath
  | took rid browser state code now transaction hread =>
      obtain ⟨d, hlive⟩ := OneTime.live_of_read hread
      refine ⟨fun k v d hl => h.live k v d (live_take hl), ?_, h.answered⟩
      intro rid' t ht
      rcases slot_set ht with ⟨-, ht⟩ | ⟨-, rfl⟩
      · exact h.tasks rid' t ht
      · exact h.live _ _ d hlive
  | missed rid browser state code now hread =>
      have htaken : Carries P { s with redis := (s.redis.take (oauthKey env state) rid now).2 } :=
        ⟨fun k v d hl => h.live k v d (live_take hl), h.tasks, h.answered⟩
      exact htaken.answer rid browser state (hrefused _)
  | refused rid browser state code transaction outcome detail htask hcheck =>
      exact h.answer rid browser state (hrefused _)
  | passed rid browser state code transaction outcome tokens htask hcheck =>
      refine ⟨h.live, ?_, h.answered⟩
      intro rid' t ht
      rcases slot_set ht with ⟨-, ht⟩ | ⟨-, rfl⟩
      · exact h.tasks rid' t ht
      · have htaken := h.tasks rid _ htask
        exact htaken
  | created rid browser state transaction tokens sessionId csrfToken now htask =>
      have hstored : Carries P { s with
          sessions := Function.update s.sessions (sessionKey env sessionId)
            (some (tokens.session csrfToken, now + cfg.sessionTtl)) } :=
        ⟨h.live, h.tasks, h.answered⟩
      refine hstored.answer rid browser state ?_
      intro sessionId' path he
      cases he
      exact h.tasks rid _ htask

theorem carries_run (hP : ∀ value path, cfg.safeReturnPath value = some path → P path)
    (ls : List Step) : Carries P (run (step cfg env) .start ls) :=
  run_always (step cfg env) (Carries P) (carries_step hP) carries_start ls

/-! ## No open redirect -/

/-- Where a `Location` leads: its first characters, what it does not contain, and the origin it is
    resolved to. -/
structure StaysHome (target : List Char) : Prop where
  root : target.head? = some '/'
  second : ∀ c ∈ target[1]?, c ≠ '/' ∧ c ≠ '\\'
  controls : ∀ c ∈ target, 32 ≤ c.toNat
  backslash : '\\' ∉ target
  rfc : ∀ base, Url.rfcOrigin base target = base
  whatwg : ∀ scheme ∈ ["http", "https"], Url.whatwgOrigin scheme.toList target = .own

theorem StaysHome.of_local {target : List Char} (h : Url.Local target) : StaysHome target where
  root := h.root
  second := h.second
  controls := fun c hc => (h.plain c hc).1
  backslash := fun hc => (h.plain _ hc).2 rfl
  rfc := Url.rfcOrigin_local h
  whatwg := fun scheme _ => Url.whatwgOrigin_local h scheme.toList

/-- In every run, a callback that signs in redirects to a path of the BFF. -/
theorem no_open_redirect (t : Url.Tables) (cfg : Config) (hcfg : cfg.safeReturnPath = returnPath t)
    (env : Env) (safe : List Char) (hslash : '/' ∈ safe) (ls : List Step) :
    ∀ a ∈ (run (step cfg env) .start ls).answered, ∀ sessionId path,
      a.answer = .session sessionId path → StaysHome (location safe path) := by
  have hP : ∀ value path, cfg.safeReturnPath value = some path → Url.Local path.toList := by
    intro value path hpath
    rw [hcfg, returnPath_eq_some] at hpath
    exact (safeReturnPath_eq_ok.mp hpath).2
  intro a ha sessionId path he
  have hlocal := (carries_run hP ls).answered a ha sessionId path he
  exact .of_local (local_location hslash hlocal)

/-- What `RedirectResponse` leaves. -/
def locationSafe : List Char := ":/%#?=@[]!$&'()*+,;".toList

/-- The lab's configuration, on a library without compatibility characters and IPv6. -/
def labFlow : Config where
  authorizeEndpoint := "http://localhost:8000/oauth/authorize"
  clientId := "temis-web"
  redirectUri := "http://localhost:3000/auth/callback"
  safeReturnPath := returnPath ⟨id, fun _ => false⟩

theorem safeReturnPath_labFlow :
    labFlow.safeReturnPath = returnPath ⟨id, fun _ => false⟩ := by simp only [labFlow]

/-- A login with a return path, and its callback. -/
def signIn (returnTo : String) : List Step :=
  [.login 1 returnTo "state-1" "verifier-1" 0, .callback 7 1 "state-1" "code-1" 5,
    .exchanged 7 (.tokens [("user_id", "u1"), ("access_token", "access"),
      ("refresh_token", "refresh")]), .create 7 "session" "csrf" 6]

/-- A path that names another host in its query, percent-encoded. -/
theorem no_open_redirect_sample :
    (run (step labFlow plainEnv) .start (signIn "/%41?next=%2F%2Fevil.invalid")).answered =
        [⟨1, "state-1", .session "session" "/A?next=//evil.invalid"⟩] ∧
      StaysHome (location locationSafe "/A?next=//evil.invalid") := by
  have hrun : (run (step labFlow plainEnv) .start
      (signIn "/%41?next=%2F%2Fevil.invalid")).answered =
        [⟨1, "state-1", .session "session" "/A?next=//evil.invalid"⟩] := by decide +kernel
  refine ⟨hrun, ?_⟩
  exact no_open_redirect ⟨id, fun _ => false⟩ labFlow safeReturnPath_labFlow plainEnv
    locationSafe (by decide) (signIn "/%41?next=%2F%2Fevil.invalid") _
    (by rw [hrun]; exact List.mem_cons_self) "session" _ rfl

/-! ## The way back -/

/-- Who was signed in was sent to the return path of the login of the state. -/
def Returned (s : Server) : Prop :=
  ∀ a ∈ s.answered, ∀ sessionId path, a.answer = .session sessionId path →
    ∃ b ∈ s.begun, b.state = a.state ∧ b.transaction.returnTo = path

/-- A callback that is over, without a session or with the path of its login. -/
theorem Returned.answer {s : Server} (h : Returned s) (rid browser : ℕ) (state : String)
    {answer : Answer} (hanswer : ∀ sessionId path, answer = .session sessionId path →
      ∃ b ∈ s.begun, b.state = state ∧ b.transaction.returnTo = path) :
    Returned (s.answer rid browser state answer) := by
  intro a ha sessionId path he
  rcases List.mem_cons.mp ha with rfl | ha
  · exact hanswer sessionId path he
  · exact h a ha sessionId path he

theorem returned_step {s : Server} (l : Step) (htraced : Traced env s) (h : Returned s) :
    Returned (step cfg env s l) := by
  have hd := step_did cfg env s l
  generalize step cfg env s l = s' at hd ⊢
  cases hd with
  | stayed => exact h
  | began browser returnTo state verifier path now hpath =>
      intro a ha sessionId path' he
      obtain ⟨b, hb, hrest⟩ := h a ha sessionId path' he
      exact ⟨b, List.mem_cons_of_mem _ hb, hrest⟩
  | took rid browser state code now transaction hread => exact h
  | missed rid browser state code now hread =>
      have htaken : Returned { s with redis := (s.redis.take (oauthKey env state) rid now).2 } := h
      exact htaken.answer rid browser state fun _ _ he => by cases he
  | refused rid browser state code transaction outcome detail htask hcheck =>
      exact h.answer rid browser state fun _ _ he => by cases he
  | passed rid browser state code transaction outcome tokens htask hcheck => exact h
  | created rid browser state transaction tokens sessionId csrfToken now htask =>
      have hstored : Returned { s with
          sessions := Function.update s.sessions (sessionKey env sessionId)
            (some (tokens.session csrfToken, now + cfg.sessionTtl)) } := h
      refine hstored.answer rid browser state ?_
      intro sessionId' path he
      cases he
      obtain ⟨b, hb, hstate, htransaction⟩ := htraced.tasks rid _ htask
      exact ⟨b, hb, hstate, by rw [htransaction]; rfl⟩

/-- An accepted login is in the history of its run. -/
theorem begun_of_login {ls : List Step} {browser : ℕ} {value state verifier path : String}
    {now : Time} (hlogin : Step.login browser value state verifier now ∈ ls)
    (hpath : cfg.safeReturnPath value = some path) :
    ∃ b ∈ (run (step cfg env) .start ls).begun, b.state = state ∧
      b.transaction.returnTo = path := by
  obtain ⟨pre, post, rfl⟩ := List.append_of_mem hlogin
  rw [run_append, run_cons]
  refine ⟨⟨browser, state, ⟨verifier, path⟩, authorizeUrl cfg env state verifier⟩,
    begun_run _ post ?_, rfl, rfl⟩
  simp only [step, hpath]
  exact List.mem_cons_self

/-- In the run of `ls`, `/login` accepts `value`, and the callback with the state of that login
    redirects to `path`. -/
def Completes (cfg : Config) (env : Env) (ls : List Step) (value path : String) : Prop :=
  ∃ browser state verifier now, Step.login browser value state verifier now ∈ ls ∧
    (cfg.safeReturnPath value).isSome = true ∧
    ∃ a ∈ (run (step cfg env) .start ls).answered, a.state = state ∧
      ∃ sessionId, a.answer = .session sessionId path

/-- The callback redirects to what `begin` made of the return path. -/
theorem path_of_completes (henv : Function.Injective env.sha256) {ls : List Step}
    (hfresh : Along (step cfg env) FreshState .start ls) {value path : String}
    (h : Completes cfg env ls value path) : cfg.safeReturnPath value = some path := by
  obtain ⟨browser, state, verifier, now, hlogin, haccepts, a, ha, rfl, sessionId, hanswer⟩ := h
  obtain ⟨path', hpath'⟩ := Option.isSome_iff_exists.mp haccepts
  obtain ⟨htraced, hreturned⟩ : Traced env (run (step cfg env) .start ls) ∧
      Returned (run (step cfg env) .start ls) := by
    refine run_invariant (step cfg env) (fun s => Traced env s ∧ Returned s) ?_
      ⟨traced_start env, fun a ha => by cases ha⟩ hfresh
    exact fun s l hs hl => ⟨traced_step henv s l hs.1 hl, returned_step l hs.1 hs.2⟩
  obtain ⟨b, hb, hstate, rfl⟩ := hreturned a ha sessionId path hanswer
  obtain ⟨b', hb', hstate', hpath⟩ := begun_of_login hlogin hpath'
  have hsame : b = b' :=
    List.inj_on_of_nodup_map htraced.states hb hb' (hstate.trans hstate'.symm)
  rw [hpath', hsame, hpath]

/-- In every run: the redirect of a completed login denotes the path and the parameters that
    `/login` was given exactly if no percent-escape of them is decoded into a delimiter of its
    place, and none into another escape. -/
theorem return_path_survives_iff (t : Url.Tables) (cfg : Config)
    (hcfg : cfg.safeReturnPath = returnPath t) (env : Env)
    (henv : Function.Injective env.sha256) (safe : List Char)
    (hsafe : PathQuery.KeepsDelimiters safe) (ls : List Step)
    (hfresh : Along (step cfg env) FreshState .start ls) (value path : String)
    (h : Completes cfg env ls value path) :
    PathQuery.denotes (location safe path) = PathQuery.denotes value.toList ↔
      Redecode.StablePath (PathQuery.pathOf value.toList) ∧
        Redecode.StableQuery (PathQuery.queryOf value.toList) := by
  have hpath := path_of_completes henv hfresh h
  rw [hcfg, returnPath_eq_some] at hpath
  rw [location, PathQuery.denotes_quote hsafe, (safeReturnPath_eq_ok.mp hpath).1,
    Redecode.denotes_unquote_iff]

/-- The login of `signIn` is completed. -/
theorem completes_signIn {value path : String}
    (h : (run (step labFlow plainEnv) .start (signIn value)).answered =
      [⟨1, "state-1", .session "session" path⟩])
    (haccepts : (labFlow.safeReturnPath value).isSome = true) :
    Completes labFlow plainEnv (signIn value) value path := by
  refine ⟨1, "state-1", "verifier-1", 0, List.mem_cons_self, haccepts,
    ⟨1, "state-1", .session "session" path⟩, ?_, rfl, "session", rfl⟩
  rw [h]
  exact List.mem_cons_self

/-- A path and a query with escapes that stand for no delimiter. -/
theorem return_path_survives_sample :
    PathQuery.denotes (location locationSafe "/a b?c=d e+f") =
      PathQuery.denotes "/a%20b?c=d%20e+f".toList :=
  (return_path_survives_iff ⟨id, fun _ => false⟩ labFlow safeReturnPath_labFlow plainEnv
    Function.injective_id locationSafe (by decide) (signIn "/a%20b?c=d%20e+f")
    (by decide +kernel) "/a%20b?c=d%20e+f" "/a b?c=d e+f"
    (completes_signIn (by decide +kernel) (by decide +kernel))).mpr
    ⟨⟨by decide +kernel, by decide +kernel, by decide +kernel, by decide +kernel⟩,
      ⟨by decide +kernel, by decide +kernel, by decide +kernel, by decide +kernel,
        by decide +kernel⟩⟩

/-- A slash within a segment: one segment is asked for, and two are come back to. -/
theorem return_path_lost : ¬ ∀ (t : Url.Tables) (cfg : Config) (env : Env) (safe : List Char)
    (ls : List Step) (value path : String), cfg.safeReturnPath = returnPath t →
    Function.Injective env.sha256 → PathQuery.KeepsDelimiters safe →
    Along (step cfg env) FreshState .start ls → Completes cfg env ls value path →
    PathQuery.denotes (location safe path) = PathQuery.denotes value.toList := by
  intro h
  have hsame := h ⟨id, fun _ => false⟩ labFlow plainEnv locationSafe (signIn "/a%2Fb") "/a%2Fb"
    "/a/b" safeReturnPath_labFlow Function.injective_id (by decide) (by decide +kernel)
    (completes_signIn (by decide +kernel) (by decide +kernel))
  revert hsame
  decide +kernel

end TemisLab.Bff
