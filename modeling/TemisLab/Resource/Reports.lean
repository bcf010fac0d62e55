/-
  `/api/reports` (`resource_api/app.py`) over the verifier, with `HttpStatusClient` asking
  `/auth/status`, in the lab of `Latency`.

  * `report_decided`: a call for a token that the SSO has issued and that passes is answered by the
    SSO's tables of one moment. The user is active then, with the version of the token, and the
    answer is the one for the roles it has. The moment lies in the call, or less than `status_ttl`
    before the status cache was consulted.

  The moment is that of the true answer behind the call. It need not be the one at which the token
  was issued, nor come after it: a version has one set of roles (`Dates`).

  The SSO's transactions run one at a time (`Lab.step`), the two reads of `issue_bundle` in one of
  them. Where operations on one user overlap, a version may be written twice (`Sso.Authority`) and
  have two sets of roles; a bundle may be signed with roles that were changed after its row was
  read.
-/
import TemisLab.External.Adapters
import TemisLab.Resource.Latency
import TemisLab.Resource.Readback

namespace TemisLab.Resource

open TemisLab.Lib TemisLab.Sso TemisLab.Keyring

variable {Token : Type}

/-! ## The endpoint -/

/-- How a request ends: 200 with the subject, an `HTTPException`, or another exception. The text
    of a `TokenRejected` of `fetch_jwks` is not known. -/
inductive Reply where
  | ok (subject : String)
  | failed (status : ℕ) (detail : Option String)
  | raised
  deriving DecidableEq, Repr

/-- 503 for a `DependencyUnavailable`, 401 for a `TokenRejected`; a `KeyError` is not caught. -/
def Refusal.reply : Refusal → Reply
  | .malformedToken => .failed 401 (some "malformed bearer token")
  | .rs256Required => .failed 401 (some "RS256 token with kid required")
  | .jwksUnavailable => .failed 503 (some "JWKS unavailable")
  | .fetchRejected => .failed 401 none
  | .invalidJwks => .failed 401 (some "invalid JWKS document")
  | .noSigningKeys => .failed 401 (some "JWKS has no RS256 signing keys")
  | .unknownSigningKey => .failed 401 (some "unknown signing key")
  | .validationFailed => .failed 401 (some "token validation failed")
  | .bindingInvalid => .failed 401 (some "token binding is invalid")
  | .statusUnavailable => .failed 503 (some "authorization status unavailable")
  | .inactiveOrStale => .failed 401 (some "subject is inactive or stale")
  | .missingScope => .raised

/-- `reports` once `authenticate` has ended. -/
def Outcome.reply : Outcome → Reply
  | .refused reason => reason.reply
  | .returned principal _ =>
      match requireScope principal "reports:read" with
      | .error detail => .failed 403 (some detail)
      | .ok () =>
          if "temis:user" ∉ principal.roles ∧ "temis:admin" ∉ principal.roles then
            .failed 403 (some "TEMIS role required")
          else .ok principal.subject

/-- `reports`; `authenticate` is how the call ends that it awaits. -/
def reports (authorization : Option String) (authenticate : String → Outcome) : Reply :=
  match authorization with
  | none => .failed 401 (some "bearer token required")
  | some header =>
      if "Bearer ".toList.isPrefixOf header.toList then
        (authenticate (String.ofList (header.toList.drop "Bearer ".length))).reply
      else .failed 401 (some "bearer token required")

theorem reports_bearer (token : String) (authenticate : String → Outcome) :
    reports (some ("Bearer " ++ token)) authenticate = (authenticate token).reply := by
  have hlist : ("Bearer " ++ token).toList = "Bearer ".toList ++ token.toList := by simp
  unfold reports
  dsimp only
  rw [hlist, if_pos (List.isPrefixOf_iff_prefix.mpr (List.prefix_append _ _))]
  have hdrop : ("Bearer ".toList ++ token.toList).drop "Bearer ".length = token.toList :=
    List.drop_left
  rw [hdrop, String.ofList_toList]

/-! ## The status client -/

/-- `authorization_status` as an HTTP response: the status, and the JSON of the body. -/
def statusResponse (serviceKey : String) (sent : Option String) (db : Db) (userId : String)
    (authzVersion : ℤ) : ℕ × Json :=
  if sent ≠ some serviceKey then
    (401, .dict [("detail", .str "service authentication required")])
  else
    let result := authorizationStatus db userId authzVersion
    (200, .dict [("active", .bool result.active),
      ("authz_version", result.authzVersion.elim .null .int)])

/-- `HttpStatusClient.check` for the response it gets, if it gets one; a body that is not JSON
    is `none`, as is an exception. -/
def check : Option (ℕ × Option Json) → Option Bool
  | none => none
  | some (status, body) =>
      if status ≠ 200 then none
      else
        match body with
        | none => none
        | some (.dict payload) => some ((payload.lookup "active").elim false External.truthy)
        | some _ => some false

/-- The client's answers: no response, or that of the endpoint on the tables of the moment. -/
def Polls (serviceKey : String) (sent : Option String) (x : Lab Token) : LabStep Token → Prop
  | .sso _ _ => True
  | .resource (.call _ _) => True
  | .resource (.kill _) => True
  | .resource (.go p i) =>
      match x.host.task p with
      | .statusCheck _ v =>
          i.active = check none ∨
            i.active = check (some ((statusResponse serviceKey sent x.sys.db v.subject
              v.version).map id some))
      | _ => True

instance (serviceKey : String) (sent : Option String) (x : Lab Token) (l : LabStep Token) :
    Decidable (Polls serviceKey sent x l) :=
  match l with
  | .sso _ _ | .resource (.call _ _) | .resource (.kill _) => isTrue trivial
  | .resource (.go p i) => by
      dsimp only [Polls]
      split <;> infer_instance

/-- A true answer is the endpoint's; a key that is not the endpoint's has no answer. -/
theorem check_statusResponse {serviceKey : String} {sent : Option String} {db : Db}
    {userId : String} {authzVersion : ℤ} {active : Bool}
    (h : check (some ((statusResponse serviceKey sent db userId authzVersion).map id some)) =
      some active) : active = (authorizationStatus db userId authzVersion).active := by
  unfold statusResponse at h
  split at h
  · cases h
  · exact (Option.some.inj h).symm

/-- So the lab is `Honest`. -/
theorem honest_of_polls {serviceKey : String} {sent : Option String} {x : Lab Token}
    {l : LabStep Token} (h : Polls serviceKey sent x l) : Honest x l := by
  cases l with
  | sso now tx => trivial
  | resource e =>
      cases e with
      | call p token => trivial
      | kill p => trivial
      | go p i =>
          simp only [Polls] at h
          simp only [Honest, Answers]
          cases ht : x.host.task p with
          | statusCheck a v =>
              rw [ht] at h
              intro active hactive
              rcases h with h | h
              · rw [h] at hactive
                cases hactive
              · exact check_statusResponse (h.symm.trans hactive)
          | _ => trivial

/-! ## What a step logs -/

/-- The attempt of a call, where its next step can end it. -/
def Task.attempt (s : Service Token) : Task Token → Option (Attempt Token)
  | .idle => none
  | .entered token => some (s.attempt token)
  | .lockStale a _ => some a
  | .fetchStale a _ => some a
  | .lockUnknown a _ _ => some a
  | .fetchUnknown a _ => some a
  | .statusCheck a _ => some a

/-- What a step adds to the true answers and to the calls that have ended. -/
structure Logs (i : Input) (s : Service Token) (t : Task Token)
    (r : Service Token × Task Token) : Prop where
  clock : r.1.clock = s.clock
  confirmed : r.1.confirmed = s.confirmed ∨ ∃ a v, t = .statusCheck a v ∧ i.active = some true ∧
    r.1.confirmed = s.confirmed ++ [⟨s.clock, v.subject, v.version⟩]
  ended : r.1.ended = s.ended ∨ ∃ a outcome, t.attempt s = some a ∧
    r.1.ended = ⟨a, s.clock, r.1.confirmed.length, outcome⟩ :: s.ended
  task : ∀ a, r.2.attempt r.1 = some a → t.attempt s = some a

variable {cfg : Settings} {J : Jwt Token} {s : Service Token} {i : Input} {t : Task Token}
  {a : Attempt Token}

/-- A service whose history is that of another. -/
structure SameLog (s u : Service Token) : Prop where
  clock : u.clock = s.clock
  confirmed : u.confirmed = s.confirmed
  ended : u.ended = s.ended

theorem Logs.stay {u : Service Token} {t' : Task Token} (h : SameLog s u)
    (ht : ∀ a, t'.attempt u = some a → t.attempt s = some a) : Logs i s t (u, t') :=
  ⟨h.clock, Or.inl h.confirmed, Or.inl h.ended, ht⟩

theorem Logs.finish {u : Service Token} (h : SameLog s u) (ha : t.attempt s = some a)
    (outcome : Outcome) : Logs i s t (u.finish a outcome) := by
  refine ⟨h.clock, Or.inl h.confirmed, Or.inr ⟨a, outcome, ha, ?_⟩, nofun⟩
  show ⟨a, u.clock, u.confirmed.length, outcome⟩ :: u.ended = _
  rw [h.clock, h.ended]
  rfl

theorem Logs.conclude {u : Service Token} (h : SameLog s u) (ha : t.attempt s = some a)
    (v : Verified) : Logs i s t (u.conclude J a v) := by
  unfold Service.conclude
  split
  · exact .finish h ha _
  · exact .finish h ha _

theorem Logs.verify {u : Service Token} (h : SameLog s u) (ha : t.attempt s = some a)
    (kid : String) (key : PublicKey) (wall : Time) :
    Logs i s t (u.verify cfg J a kid key wall) := by
  unfold Service.verify
  split
  · exact .finish h ha _
  · split
    · exact .finish h ha _
    · dsimp only
      split
      · exact .conclude h ha _
      · exact .stay h fun b hb => ha.trans hb

theorem Logs.select {u : Service Token} (h : SameLog s u) (ha : t.attempt s = some a)
    (kid : String) (wall : Time) : Logs i s t (u.select cfg J a kid wall) := by
  unfold Service.select
  split
  · exact .verify h ha kid _ wall
  · split
    · exact .finish h ha _
    · exact .stay h fun b hb => ha.trans hb

theorem Logs.forget {u : Service Token} (h : SameLog s u) (ha : t.attempt s = some a)
    (kid : String) : Logs i s t (u.forget cfg a kid) := by
  have hsame : ∀ cache, SameLog s { u with cache } := fun _ => ⟨h.clock, h.confirmed, h.ended⟩
  exact .finish (hsame _) ha _

/-- The inversion of `advance` on what is logged. -/
theorem advance_logs (cfg : Settings) (J : Jwt Token) (i : Input) (s : Service Token)
    (t : Task Token) : Logs i s t (s.advance cfg J i t) := by
  have hadvanced := advance_cases cfg J i s t
  generalize s.advance cfg J i t = r at hadvanced ⊢
  have hsame : SameLog s s := ⟨rfl, rfl, rfl⟩
  cases hadvanced with
  | idle => exact .stay hsame fun _ h => h
  | expired | expires => exact .stay hsame fun _ h => h
  | forces => exact .stay ⟨rfl, rfl, rfl⟩ fun _ h => h
  | malformed | cooling | rejected | negative | coolingUnknown | rejectedUnknown | denied =>
      exact .finish hsame rfl _
  | fresh | refreshed | bridged => exact .select hsame rfl _ _
  | accepted a kid document keys =>
      exact .select (s := s) (u := s.accept cfg document keys) ⟨rfl, rfl, rfl⟩ rfl kid _
  | outlasted a kid =>
      exact .select (s := s) (u := s.coolDown cfg) ⟨rfl, rfl, rfl⟩ rfl kid _
  | cooled | cooledUnknown =>
      exact .finish (s := s) (u := s.coolDown cfg) ⟨rfl, rfl, rfl⟩ rfl _
  | appeared => exact .verify hsame rfl _ _ _
  | loaded a kid document keys key =>
      exact .verify (s := s) (u := s.accept cfg document keys) ⟨rfl, rfl, rfl⟩ rfl kid key _
  | spared => exact .forget hsame rfl _
  | missing a kid document keys =>
      exact .forget (s := s) (u := s.accept cfg document keys) ⟨rfl, rfl, rfl⟩ rfl kid
  | confirmed a v hactive =>
      have hlogs : Logs i (s.confirm cfg v) (.statusCheck a v) ((s.confirm cfg v).conclude J a v) :=
        .conclude ⟨rfl, rfl, rfl⟩ rfl v
      have hconfirmed : ((s.confirm cfg v).conclude J a v).1.confirmed =
          (s.confirm cfg v).confirmed := by
        unfold Service.conclude
        split <;> rfl
      exact ⟨hlogs.clock, Or.inr ⟨a, v, rfl, hactive, hconfirmed⟩, hlogs.ended, hlogs.task⟩

/-! ## The order of what is logged -/

/-- `n` true answers had come in by the time `now`. -/
structure CountedAt (s : Service Token) (n : ℕ) (now : Time) : Prop where
  count : n ≤ s.confirmed.length
  past : now ≤ s.clock
  before : ∀ m c, s.confirmed[m]? = some c → m < n → c.time ≤ now
  after : ∀ m c, s.confirmed[m]? = some c → n ≤ m → now ≤ c.time

/-- The logged times are past, and in order with the counts beside them. -/
structure InOrder (s : Service Token) : Prop where
  past : ∀ c ∈ s.confirmed, c.time ≤ s.clock
  began : ∀ e ∈ s.ended, CountedAt s e.attempt.confirms e.attempt.began
  ended : ∀ e ∈ s.ended, CountedAt s e.confirms e.time

/-- A call that awaits has logged its beginning. -/
def BeganAt (s : Service Token) : Task Token → Prop
  | .entered _ => True
  | t => ∀ a, t.attempt s = some a → CountedAt s a.confirms a.began

theorem countedAt_now (h : ∀ c ∈ s.confirmed, c.time ≤ s.clock) :
    CountedAt s s.confirmed.length s.clock := by
  refine ⟨le_refl _, le_refl _, ?_, ?_⟩
  · intro m c hm _
    exact h c (List.mem_of_getElem? hm)
  · intro m c hm hle
    obtain ⟨hlt, -⟩ := List.getElem?_eq_some_iff.mp hm
    omega

theorem CountedAt.tick {n : ℕ} {now : Time} (h : CountedAt s n now) (next : Time) :
    CountedAt (s.tick next) n now :=
  ⟨h.count, le_trans h.past (le_max_left _ _), h.before, h.after⟩

/-- True answers come in at the time they come in. -/
theorem CountedAt.logs {r : Service Token × Task Token} (hr : Logs i s t r) {n : ℕ} {now : Time}
    (h : CountedAt s n now) : CountedAt r.1 n now := by
  have hpast : now ≤ r.1.clock := by
    rw [hr.clock]
    exact h.past
  rcases hr.confirmed with he | ⟨a, v, -, -, he⟩
  · refine ⟨?_, hpast, ?_, ?_⟩
    · rw [he]
      exact h.count
    · rw [he]
      exact h.before
    · rw [he]
      exact h.after
  · have hsplit : ∀ m c, r.1.confirmed[m]? = some c →
        s.confirmed[m]? = some c ∨ (m = s.confirmed.length ∧ c.time = s.clock) := by
      intro m c hm
      rw [he] at hm
      rcases Nat.lt_or_ge m s.confirmed.length with hlt | hge
      · rw [List.getElem?_append_left hlt] at hm
        exact Or.inl hm
      · rw [List.getElem?_append_right hge, List.getElem?_singleton] at hm
        split at hm
        · cases hm
          exact Or.inr ⟨by omega, rfl⟩
        · cases hm
    refine ⟨?_, hpast, ?_, ?_⟩
    · rw [he, List.length_append]
      exact Nat.le_add_right_of_le h.count
    · intro m c hm hlt
      rcases hsplit m c hm with hm | ⟨rfl, -⟩
      · exact h.before m c hm hlt
      · exact absurd h.count (not_le.mpr hlt)
    · intro m c hm hle
      rcases hsplit m c hm with hm | ⟨-, htime⟩
      · exact h.after m c hm hle
      · rw [htime]
        exact h.past

theorem InOrder.tick (h : InOrder s) (now : Time) : InOrder (s.tick now) :=
  ⟨fun c hc => le_trans (h.past c hc) (le_max_left _ _), fun e he => (h.began e he).tick now,
    fun e he => (h.ended e he).tick now⟩

theorem BeganAt.tick (h : BeganAt s t) (now : Time) : BeganAt (s.tick now) t := by
  cases t with
  | entered token => trivial
  | _ => exact fun a ha => (h a ha).tick now

/-- Another call's step. -/
theorem BeganAt.logs {r : Service Token × Task Token} (hr : Logs i s t r) {u : Task Token}
    (h : BeganAt s u) : BeganAt r.1 u := by
  cases u with
  | entered token => trivial
  | _ => exact fun a ha => (h a ha).logs hr

theorem inOrder_logs {r : Service Token × Task Token} (hr : Logs i s t r) (h : InOrder s)
    (ht : BeganAt s t) : InOrder r.1 ∧ BeganAt r.1 r.2 := by
  have hpast : ∀ c ∈ r.1.confirmed, c.time ≤ r.1.clock := by
    intro c hc
    rw [hr.clock]
    rcases hr.confirmed with he | ⟨a, v, -, -, he⟩
    · exact h.past c (he ▸ hc)
    · rw [he] at hc
      rcases List.mem_append.mp hc with hc | hc
      · exact h.past c hc
      · rw [List.mem_singleton.mp hc]
  -- the call itself has begun, at the latest in this step
  have hbegan : ∀ a, t.attempt s = some a → CountedAt r.1 a.confirms a.began := by
    intro a ha
    refine CountedAt.logs hr ?_
    cases t with
    | entered token =>
        cases ha
        exact countedAt_now h.past
    | _ => exact ht a ha
  refine ⟨⟨hpast, ?_, ?_⟩, ?_⟩
  · intro e he
    rcases hr.ended with hsame | ⟨a, outcome, ha, hnew⟩
    · exact (h.began e (hsame ▸ he)).logs hr
    · rw [hnew] at he
      rcases List.mem_cons.mp he with rfl | he
      · exact hbegan a ha
      · exact (h.began e he).logs hr
  · intro e he
    rcases hr.ended with hsame | ⟨a, outcome, ha, hnew⟩
    · exact (h.ended e (hsame ▸ he)).logs hr
    · rw [hnew] at he
      rcases List.mem_cons.mp he with rfl | he
      · have hnow := countedAt_now hpast
        rw [hr.clock] at hnow
        exact hnow
      · exact (h.ended e he).logs hr
  · have htask := hr.task
    generalize r.2 = u at htask ⊢
    cases u with
    | entered token => trivial
    | _ => exact fun a ha => hbegan a (htask a ha)

theorem inOrder_keeps (cfg : Settings) (J : Jwt Token)
    (Q : Host ℕ (Service Token) (Task Token) → Signal ℕ Token Input → Prop) :
    (verifier cfg J).Keeps InOrder (fun _ => BeganAt) Q where
  idle := fun _ _ => nofun
  free := verifier_free cfg J
  begins := fun _ _ _ _ hinv => ⟨hinv, trivial, rfl⟩
  begins_others := fun _ _ _ _ _ _ _ _ hown => hown
  enters := verifier_enters cfg J
  goes := fun _ _ i _ hinv hown =>
    inOrder_logs (advance_logs cfg J i _ _) (hinv.tick i.now) (hown.tick i.now)
  goes_others := fun _ _ i _ _ _ _ _ _ hother _ =>
    (hother.tick i.now).logs (advance_logs cfg J i _ _)

/-! ## The roles of a version -/

/-- Rows stay, versions do not fall, and a user of the same version has the same roles: so it is of
    transactions that do not overlap. -/
def Dates (db db' : Db) : Prop :=
  ∀ v user, db.user v = some user → ∃ user', db'.user v = some user' ∧
    user.authzVersion ≤ user'.authzVersion ∧
    (user'.authzVersion = user.authzVersion → ∀ r, db'.hasRole v r = db.hasRole v r)

theorem dates_refl (db : Db) : Dates db db :=
  fun _ user hu => ⟨user, hu, le_refl _, fun _ _ => rfl⟩

theorem Dates.trans {db db' db'' : Db} (h : Dates db db') (h' : Dates db' db'') :
    Dates db db'' := by
  intro v user hu
  obtain ⟨user', hu', hle, hroles⟩ := h v user hu
  obtain ⟨user'', hu'', hle', hroles'⟩ := h' v user' hu'
  refine ⟨user'', hu'', le_trans hle hle', ?_⟩
  intro hver r
  rw [hroles' (by omega) r, hroles (by omega) r]

theorem dates_of_steady {db db' : Db} (h : db.Steady db') : Dates db db' := by
  intro v user hu
  obtain ⟨user', hu', -, hver⟩ := h.users v user hu
  exact ⟨user', hu', le_of_eq hver.symm, fun _ r => h.roles v user r hu⟩

/-- An activation writes no role. -/
theorem dates_setStatus (db : Db) (userId : String) (status : Status) :
    Dates db (setStatus db userId status) := by
  intro v user hu
  rw [user_setStatus, hu]
  by_cases h : v = userId
  · exact ⟨user.withStatus status, by rw [if_pos h]; rfl, le_refl _, fun _ _ => rfl⟩
  · exact ⟨user, by rw [if_neg h], le_refl _, fun _ _ => rfl⟩

/-- An admin operation writes the roles of its target only, and raises its version. -/
theorem dates_of_effect {op : AdminOp} {now : Time} {db db' : Db} (h : op.Effect now db db') :
    Dates db db' := by
  intro v user hu
  obtain ⟨user', hu', hver⟩ := h.version hu
  refine ⟨user', hu', ?_, ?_⟩
  · rw [hver]
    split_ifs <;> omega
  · intro hsame r
    by_cases hv : v = op.target
    · rw [if_pos hv] at hver
      omega
    · rw [h.roles v r, if_neg hv]

theorem dates_step (env : Env) (sys : Sys) (tx : Tx) :
    Dates sys.db (Sso.step env sys tx).db := by
  cases tx with
  | activate rid =>
      rcases step_activate env sys rid with ⟨v, -, h⟩ | h
      · rw [h]
        exact dates_setStatus sys.db v .active
      · rw [h]
        exact dates_refl _
  | admin op now =>
      rcases step_admin env sys op now with h | h
      · exact dates_of_effect h
      · rw [h]
        exact dates_refl _
  | _ => exact dates_of_steady (step_steady env sys _ (by simp) (by simp))

variable {env : Env}

variable (env cfg J) in
theorem dates_run (x : Lab Token) (ls : List (LabStep Token)) :
    Dates x.sys.db (run (Lab.step env cfg J) x ls).sys.db := by
  refine run_rel (Lab.step env cfg J) (fun x y => Dates x.sys.db y.sys.db)
    (fun x => dates_refl x.sys.db) (fun _ _ _ h h' => h.trans h') ?_ x ls
  intro y l
  cases l with
  | sso now tx => exact dates_step env y.sys tx
  | resource e => exact dates_refl y.sys.db

/-- Two moments of a run at which a user has the same version, in either order. -/
theorem roles_of_version {x : Lab Token} {pre pre' post post' ls : List (LabStep Token)}
    (hls : ls = pre ++ post) (hls' : ls = pre' ++ post') {v r : String} {user user' : User}
    (hu : (run (Lab.step env cfg J) x pre).sys.db.user v = some user)
    (hu' : (run (Lab.step env cfg J) x pre').sys.db.user v = some user')
    (hver : user'.authzVersion = user.authzVersion) :
    (run (Lab.step env cfg J) x pre').sys.db.hasRole v r =
      (run (Lab.step env cfg J) x pre).sys.db.hasRole v r := by
  rcases List.append_eq_append_iff.mp (hls.symm.trans hls') with ⟨mid, rfl, -⟩ | ⟨mid, rfl, -⟩
  · rw [run_append] at hu' ⊢
    obtain ⟨later, hlater, -, hroles⟩ := dates_run cfg J env _ mid v _ hu
    rw [hu'] at hlater
    cases hlater
    exact hroles hver r
  · rw [run_append] at hu ⊢
    obtain ⟨later, hlater, -, hroles⟩ := dates_run cfg J env _ mid v _ hu'
    rw [hu] at hlater
    cases hlater
    exact (hroles hver.symm r).symm

/-! ## Where what is logged comes from -/

/-- The tables have `userId` active, at this version. -/
def Current (db : Db) (userId : String) (version : ℤ) : Prop :=
  ∃ user, db.user userId = some user ∧ user.status = .active ∧ user.authzVersion = version

/-- A true answer is one of the tables at its time. -/
theorem confirmed_origin {db : Db} {clock : Time} {ls : List (LabStep Token)}
    (hl : Along (Lab.step env cfg J) Honest (.start db clock) ls) {c : Confirmed}
    (hc : c ∈ (run (Lab.step env cfg J) (.start db clock) ls).host.shared.confirmed) :
    ∃ pre post, ls = pre ++ post ∧
      let y := run (Lab.step env cfg J) (.start db clock) pre
      Current y.sys.db c.subject c.version ∧ y.host.shared.clock = c.time := by
  have horigin := run_origin (Lab.step env cfg J)
    (fun (c : Confirmed) (y : Lab Token) => c ∈ y.host.shared.confirmed)
    (fun c y l => Current y.sys.db c.subject c.version ∧
      (y.step env cfg J l).sys.db = y.sys.db ∧ (y.step env cfg J l).host.shared.clock = c.time)
    ?_ hl hc
  · rcases horigin with hnil | ⟨pre, l, post, hls, hcur, hdb, htime⟩
    · cases hnil
    · refine ⟨pre ++ [l], post, by rw [hls]; simp, ?_⟩
      rw [run_append]
      show Current ((run (Lab.step env cfg J) _ pre).step env cfg J l).sys.db _ _ ∧ _
      rw [hdb]
      exact ⟨hcur, htime⟩
  · intro y l c hq hc
    cases l with
    | sso now tx => exact Or.inl hc
    | resource e =>
        cases e with
        | call p token =>
            simp only [Lab.step, Program.signal] at hc
            split at hc <;> exact Or.inl hc
        | kill p => exact Or.inl hc
        | go p i =>
            simp only [Lab.step, Program.signal] at hc ⊢
            split at hc
            · exact Or.inl hc
            · next hrun =>
                rw [if_neg hrun]
                have hlogs := advance_logs cfg J i (y.host.shared.tick i.now) (y.host.task p)
                rcases hlogs.confirmed with he | ⟨a, v, ht, hactive, he⟩
                · exact Or.inl (he ▸ hc)
                · have hc' : c ∈ y.host.shared.confirmed ++
                      [⟨(y.host.shared.tick i.now).clock, v.subject, v.version⟩] := he ▸ hc
                  refine (List.mem_append.mp hc').imp_right ?_
                  intro hnew
                  rw [List.mem_singleton.mp hnew]
                  simp only [Honest, Answers, ht] at hq
                  exact ⟨authorizationStatus_active.mp (hq true hactive).symm, trivial, hlogs.clock⟩

/-- A bundle is signed for the row and the roles of its user at a moment of the run. -/
theorem issued_origin {db : Db} {clock : Time} {ls : List (LabStep Token)} {b : Issued}
    (hb : b ∈ (run (Lab.step env cfg J) (.start db clock) ls).sys.issued) :
    ∃ pre post, ls = pre ++ post ∧
      let y := run (Lab.step env cfg J) (.start db clock) pre
      ∃ user kid aud now, y.sys.db.user b.bundle.userId = some user ∧
        b.bundle.accessToken = ⟨kid, bundleClaims b.bundle.userId user.authzVersion
          (y.sys.db.roles b.bundle.userId) aud now⟩ := by
  have horigin := run_origin (Lab.step env cfg J) (Q := fun _ _ => True)
    (fun (b : Issued) (y : Lab Token) => b ∈ y.sys.issued)
    (fun b y _ => ∃ user kid aud now, y.sys.db.user b.bundle.userId = some user ∧
      b.bundle.accessToken = ⟨kid, bundleClaims b.bundle.userId user.authzVersion
        (y.sys.db.roles b.bundle.userId) aud now⟩)
    ?_ ((along_iff _ _ ls).mpr fun _ _ _ _ => trivial) hb
  · rcases horigin with hnil | ⟨pre, l, post, hls, hsigned⟩
    · cases hnil
    · exact ⟨pre, l :: post, hls, hsigned⟩
  · intro y l b _ hb
    cases l with
    | resource e => exact Or.inl hb
    | sso now tx =>
        have hcases := step_cases env y.sys tx
        change b ∈ (Sso.step env y.sys tx).issued at hb
        generalize Sso.step env y.sys tx = z at hcases hb
        cases hcases with
        | quiet hissued hrotations hpending => exact Or.inl (hissued ▸ hb)
        | rotated hrotate => exact Or.inl hb
        | bundled hpending hissue =>
            refine (List.mem_cons.mp hb).symm.imp_right ?_
            rintro rfl
            obtain ⟨user, kid, hu, -, -, huser, haccess, -⟩ := issueBundle_eq_ok hissue
            rw [huser]
            exact ⟨user, kid, _, _, hu, haccess⟩

/-! ## The answer -/

/-- The answer for the roles that the tables give a user. -/
def replyFor (db : Db) (userId : String) : Reply :=
  if db.hasRole userId "user" = true ∨ db.hasRole userId "admin" = true then .ok userId
  else .failed 403 (some "TEMIS role required")

/-- What `issue_bundle` grants. -/
def bundleGrant (userId : String) (version : ℤ) (roles : List String) (aud : String) : Grant :=
  ⟨userId, roles.map ("temis:" ++ ·), aud, "temis-web", bundleScopes roles, version⟩

theorem word_bundleScopes (roles : List String) :
    ∀ scope ∈ bundleScopes roles, PyText.Word scope := by
  unfold bundleScopes
  split <;> decide

theorem mem_bundleRoles {db : Db} {userId : String} (role : String) :
    "temis:" ++ role ∈ ((db.roles userId).map ("temis:" ++ ·)).toFinset ↔
      db.hasRole userId role = true := by
  rw [List.mem_toFinset, List.mem_map, ← Db.mem_roles]
  constructor
  · rintro ⟨role', hmem, he⟩
    rw [← (String.append_right_inj "temis:").mp he]
    exact hmem
  · exact fun hmem => ⟨role, hmem, rfl⟩

/-- A `Principal` of a bundle has the scope, and is answered for its roles. -/
theorem reply_of_bundle {userId aud : String} {version : ℤ} {db : Db} {p : Principal}
    {v : Verified} (hp : OfIssued (bundleGrant userId version (db.roles userId) aud) p) :
    Outcome.reply (.returned p v) = replyFor db userId := by
  have hscope : requireScope p "reports:read" = .ok () := by
    rw [requireScope_eq_ok, hp.scopes, List.mem_toFinset]
    unfold Grant.joined bundleGrant bundleScopes
    split_ifs <;> simp_all
  have huser : "temis:user" ∈ p.roles ↔ db.hasRole userId "user" = true := by
    rw [hp.roles]
    exact mem_bundleRoles "user"
  have hadmin : "temis:admin" ∈ p.roles ↔ db.hasRole userId "admin" = true := by
    rw [hp.roles]
    exact mem_bundleRoles "admin"
  unfold Outcome.reply replyFor
  dsimp only
  rw [hscope]
  dsimp only
  by_cases h : db.hasRole userId "user" = true ∨ db.hasRole userId "admin" = true
  · have hnot : ¬ ("temis:user" ∉ p.roles ∧ "temis:admin" ∉ p.roles) := by
      rw [huser, hadmin]
      exact fun hnot => h.elim hnot.1 hnot.2
    rw [if_neg hnot, if_pos h, hp.subject]
    rfl
  · have hnot : "temis:user" ∉ p.roles ∧ "temis:admin" ∉ p.roles := by
      rw [huser, hadmin]
      exact not_or.mp h
    rw [if_pos hnot, if_neg h]

theorem allRead_lab (db : Db) (clock : Time) {ls : List (LabStep Token)}
    (hl : Along (Lab.step env cfg J) Honest (.start db clock) ls) :
    AllRead J (run (Lab.step env cfg J) (.start db clock) ls).host.shared := by
  have h0 : AllRead J (.start Token clock) := fun _ he => absurd he List.not_mem_nil
  have hkeeps : ∀ db, (verifier cfg J).Keeps (AllRead J) (fun _ _ _ => True) (Answers db) :=
    fun _ => (allRead_keeps cfg J).under fun _ _ _ => trivial
  exact (lab_run (P := fun _ => True) (fun db _ => hkeeps db) (fun _ _ _ => trivial)
    (fun _ _ h => h) (fun _ _ _ _ _ => trivial) trivial ((hkeeps db).start h0) hl).2.shared

theorem inOrder_lab (db : Db) (clock : Time) {ls : List (LabStep Token)}
    (hl : Along (Lab.step env cfg J) Honest (.start db clock) ls) :
    InOrder (run (Lab.step env cfg J) (.start db clock) ls).host.shared := by
  have h0 : InOrder (.start Token clock) := ⟨nofun, nofun, nofun⟩
  exact (lab_run (P := fun _ => True) (fun db _ => inOrder_keeps cfg J (Answers db))
    (fun _ _ _ => trivial) (fun _ now h => h.tick now) (fun _ _ now _ h => h.tick now) trivial
    ((inOrder_keeps cfg J (Answers db)).start h0) hl).2.shared

/-- A call for an issued token that passes is answered by the tables of a moment of its life, or
    of one that a status may be as old as, where the SSO's transactions do not overlap. -/
theorem report_decided (env : Env) (cfg : Settings) (J : Jwt Token)
    (encode : AccessToken → Token) (hJ : J.RoundTrips encode) (serviceKey : String)
    (sent : Option String) (db : Db) (clock : Time) (ls : List (LabStep Token))
    (hl : Along (Lab.step env cfg J) (Polls serviceKey sent) (.start db clock) ls)
    {e : Ended Token}
    (he : e ∈ (run (Lab.step env cfg J) (.start db clock) ls).host.shared.ended) {b : Issued}
    (hb : b ∈ (run (Lab.step env cfg J) (.start db clock) ls).sys.issued)
    (htoken : e.attempt.token = encode b.bundle.accessToken) {p : Principal} {v : Verified}
    (ho : e.outcome = .returned p v) :
    ∃ pre post, ls = pre ++ post ∧
      let y := run (Lab.step env cfg J) (.start db clock) pre
      Current y.sys.db b.bundle.userId b.version ∧
        (∀ token authenticate, authenticate token = e.outcome →
          reports (some ("Bearer " ++ token)) authenticate =
            replyFor y.sys.db b.bundle.userId) ∧
        y.host.shared.clock ≤ e.time ∧
        (e.attempt.began ≤ y.host.shared.clock ∨
          v.consulted - y.host.shared.clock < cfg.statusTtl) := by
  have hhonest : Along (Lab.step env cfg J) Honest (.start db clock) ls := by
    refine (along_iff _ _ ls).mpr ?_
    intro pre l post hls
    exact honest_of_polls ((along_iff _ _ ls).mp hl pre l post hls)
  have ha := (coherent_lab hJ.issuer db clock hhonest).ended e he p v ho
  have hread := allRead_lab db clock hhonest e he p v ho
  have horder := inOrder_lab db clock hhonest
  -- the `Principal` is that of the row and the roles the bundle was signed for
  obtain ⟨pre₀, post₀, hls₀, user₀, kid, aud, now, hu₀, haccess⟩ := issued_origin hb
  have hversion : b.version = user₀.authzVersion := by
    unfold Issued.version
    rw [haccess]
    rfl
  have hsigned : issueAccess (some kid) ((bundleGrant b.bundle.userId user₀.authzVersion
      ((run (Lab.step env cfg J) (.start db clock) pre₀).sys.db.roles b.bundle.userId)
      aud).claims now) = some b.bundle.accessToken := by
    rw [haccess]
    rfl
  have hp := principal_of_issued hJ (word_bundleScopes _) hsigned htoken ha hread
  -- the true answer behind the call was one of the tables of a moment
  obtain ⟨n, c, hn, hlt, hsub, hver, hage⟩ := ha.confirmed
  obtain ⟨pre, post, hls, hcur, hclock⟩ :=
    confirmed_origin hhonest (List.mem_of_getElem? hn)
  have hsubject : c.subject = b.bundle.userId := hsub.trans hp.subject
  have hcversion : c.version = user₀.authzVersion := hver.trans hp.authzVersion
  rw [hsubject, hcversion] at hcur
  refine ⟨pre, post, hls, hversion ▸ hcur, ?_, ?_, ?_⟩
  · intro token authenticate hauth
    obtain ⟨user, hu, -, huver⟩ := hcur
    have hroles : ∀ r, _ := fun r => roles_of_version (r := r) hls₀ hls hu₀ hu huver
    rw [reports_bearer, hauth, ho, reply_of_bundle hp]
    unfold replyFor
    rw [hroles "user", hroles "admin"]
  · rw [hclock]
    exact (horder.ended e he).before n c hn hlt
  · rw [hclock]
    exact hage.imp_left ((horder.began e he).after n c hn)

/-! ## A sample run -/

/-- `u` logs in and presents its token at time 3. -/
def presentedReport : List (LabStep PlainToken) := loggedIn.map (.sso 1) ++ present 0 3 4

set_option maxRecDepth 4000 in
theorem presentedReport_returns :
    ∃ e ∈ (run (Lab.step plainEnv labSettings plainJwt) (.start .empty 0)
      presentedReport).host.shared.ended,
      e.attempt.token = plainToken ⟨"k", bundleClaims "u" 2 ["user"] Sso.audience 1⟩ ∧
        ∃ p v, e.outcome = .returned p v := by
  with_unfolding_all exact ⟨_, List.mem_cons_self, rfl, _, _, rfl⟩

/-- The report is handed out, and the tables of some moment are why. -/
theorem user_reads_report :
    ∃ e ∈ (run (Lab.step plainEnv labSettings plainJwt) (.start .empty 0)
      presentedReport).host.shared.ended,
      ∃ pre post, presentedReport = pre ++ post ∧
        let y := run (Lab.step plainEnv labSettings plainJwt) (.start .empty 0) pre
        Current y.sys.db "u" 2 ∧
          reports (some "Bearer token") (fun _ => e.outcome) = replyFor y.sys.db "u" := by
  obtain ⟨e, he, htoken, p, v, ho⟩ := presentedReport_returns
  have hissued : ∃ b ∈ (run (Lab.step plainEnv labSettings plainJwt) (.start .empty 0)
      presentedReport).sys.issued, b.bundle.userId = "u" ∧ b.version = 2 ∧
        b.bundle.accessToken = ⟨"k", bundleClaims "u" 2 ["user"] Sso.audience 1⟩ := by
    decide +kernel
  obtain ⟨b, hb, huser, hversion, haccess⟩ := hissued
  obtain ⟨pre, post, hls, hcur, hreply, -⟩ := report_decided plainEnv labSettings plainJwt
    plainToken plainJwt_roundTrips "service" (some "service") .empty 0 presentedReport
    (by decide +kernel) he hb (htoken.trans (congrArg plainToken haccess.symm)) ho
  rw [huser, hversion] at hcur
  rw [huser] at hreply
  exact ⟨e, he, pre, post, hls, hcur, hreply "token" _ rfl⟩

end TemisLab.Resource
