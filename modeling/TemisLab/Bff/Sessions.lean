/-
  The sessions of the BFF (`temis_bff/sessions.py`, `app.py`): `GET /bff/session` and
  `POST /logout` of any number of browsers, beside the logins of `TemisLab.Bff.Flow` and over the
  same Redis. `logout` is cut at its awaits: the read of the session with the CSRF check, the
  answer of `revoke`, the delete. `revoke` is the caller's, and returns or raises.

  The history keeps which sessions the callbacks created, which refresh tokens `revoke` was called
  with and returned for, which sessions a logout deleted, and how each logout was answered.

  * `session_law`: what `/bff/session` tells a browser, of every cookie at every time.
  * `logout_law`: whose logout ends a session, and in which order.
  * `logout_completes`: a logout in order is not disturbed by others.
-/
import TemisLab.Lib.Lease
import TemisLab.Bff.Browsers
import TemisLab.Bff.Validators

namespace TemisLab.Bff

open TemisLab.Lib TemisLab.Sso

/-! ## The endpoints -/

/-- `RedisSessionStore.get`. -/
def Server.getSession (env : Env) (s : Server) (sessionId : String) (now : Time) :
    Option BffSession :=
  (s.sessions (sessionKey env sessionId)).bind fun (session, deadline) =>
    if now < deadline then some session else none

/-- `RedisSessionStore.delete`. -/
def Server.deleteSession (env : Env) (s : Server) (sessionId : String) : Server :=
  { s with sessions := Function.update s.sessions (sessionKey env sessionId) none }

/-- `session_info` for the cookie a browser sends, if any: the body, or a 401. -/
def sessionInfo (env : Env) (s : Server) (cookie : Option String) (now : Time) :
    Handled (List (String × String)) :=
  match cookie.bind fun sessionId => s.getSession env sessionId now with
  | none => .answered 401 "session required"
  | some session =>
      .proceeds [("user_id", session.userId), ("csrf_token", session.csrfToken)]

/-- What `logout` reads of a request: the cookie and two headers. -/
structure LogoutRequest where
  cookie : Option String
  origin : Option String
  xCsrfToken : Option String
  deriving DecidableEq, Repr

/-- `logout` as far as `revoke`: the session and its id, or how it ends. -/
def LogoutRequest.check (env : Env) (publicOrigin : String) (s : Server) (r : LogoutRequest)
    (now : Time) : Handled (String × BffSession) :=
  match r.cookie with
  | none => .answered 401 "session required"
  | some sessionId =>
      match s.getSession env sessionId now with
      | none => .answered 401 "session required"
      | some session =>
          match logoutCsrf r.origin publicOrigin r.xCsrfToken session.csrfToken with
          | .proceeds () => .proceeds (sessionId, session)
          | .answered status detail => .answered status detail
          | .escaped error => .escaped error

/-- A request that carries the cookie of a session, the public origin and its CSRF token. -/
structure LogoutRequest.Authorized (publicOrigin : String) (r : LogoutRequest) (sessionId : String)
    (session : BffSession) : Prop where
  cookie : r.cookie = some sessionId
  origin : r.origin = some publicOrigin
  token : r.xCsrfToken = some session.csrfToken

/-- `require_csrf` passes just the origin and the token of the session, if they are ASCII. -/
theorem requireCsrf_eq_ok {origin : Option String} {expected : String} {supplied : Option String}
    {saved : String} : requireCsrf origin expected supplied saved = .ok () ↔
      origin = some expected ∧ supplied = some saved ∧ isAscii saved = true := by
  unfold requireCsrf
  by_cases horigin : origin = some expected
  · rw [if_neg (not_not_intro horigin)]
    cases supplied with
    | none => exact iff_of_false (fun h => by cases h) fun h => by cases h.2.1
    | some token =>
        simp only [horigin, Option.some.injEq, true_and]
        unfold compareDigest
        by_cases hascii : isAscii token = true ∧ isAscii saved = true
        · rw [if_pos hascii]
          by_cases htoken : token = saved
          · subst htoken
            refine iff_of_true ?_ ⟨rfl, hascii.2⟩
            simp [bind, Except.bind, pure, Except.pure]
          · refine iff_of_false ?_ fun h => htoken h.1
            simp [bind, Except.bind, htoken, throw, throwThe, MonadExceptOf.throw]
        · rw [if_neg hascii]
          refine iff_of_false (fun h => by cases h) fun h => hascii ?_
          rw [h.1]
          exact ⟨h.2, h.2⟩
  · rw [if_pos horigin]
    exact iff_of_false (fun h => by cases h) fun h => horigin h.1

theorem handle_eq_proceeds {α : Type} {status : ℕ} {x : Except Raised α} {a : α} :
    handle status x = .proceeds a ↔ x = .ok a := by
  cases x with
  | ok b => simp [handle]
  | error e => cases e <;> simp [handle]

/-- A logout goes on just for an authorized request. -/
theorem check_eq_proceeds {env : Env} {publicOrigin : String} {s : Server} {r : LogoutRequest}
    {now : Time} {sessionId : String} {session : BffSession} :
    r.check env publicOrigin s now = .proceeds (sessionId, session) ↔
      r.Authorized publicOrigin sessionId session ∧ s.getSession env sessionId now = some session ∧
        isAscii session.csrfToken = true := by
  have hcsrf : ∀ saved, logoutCsrf r.origin publicOrigin r.xCsrfToken saved = .proceeds () ↔
      r.origin = some publicOrigin ∧ r.xCsrfToken = some saved ∧ isAscii saved = true :=
    fun saved => handle_eq_proceeds.trans requireCsrf_eq_ok
  unfold LogoutRequest.check
  constructor
  · intro h
    split at h
    · cases h
    · next cookie hcookie =>
        split at h
        · cases h
        · next found hget =>
            split at h
            · next hproceeds =>
                cases h
                obtain ⟨horigin, htoken, hascii⟩ := (hcsrf _).mp hproceeds
                exact ⟨⟨hcookie, horigin, htoken⟩, hget, hascii⟩
            · cases h
            · cases h
  · rintro ⟨hr, hget, hascii⟩
    have hproceeds := (hcsrf session.csrfToken).mpr ⟨hr.origin, hr.token, hascii⟩
    simp only [hr.cookie, hget, hproceeds]

/-! ## States and steps -/

/-- What a logout has still to do. -/
inductive LogoutTask where
  | revoking (request : LogoutRequest) (sessionId : String) (session : BffSession)
  | deleting (request : LogoutRequest) (sessionId : String) (session : BffSession)
  deriving DecidableEq, Repr

/-- How a logout is answered. -/
inductive LogoutAnswer where
  /-- 204, and the cookie is taken back. -/
  | noContent
  | refused (status : ℕ) (detail : String)
  /-- A `TypeError` of `compare_digest`. -/
  | escaped (error : Raised)
  /-- What `revoke` raised. -/
  | revokeRaised
  deriving DecidableEq, Repr

/-- A session, with the id that is its cookie, and the browser and the state of its callback. -/
structure Made where
  browser : ℕ
  state : String
  sessionId : String
  session : BffSession
  deadline : Time
  deriving DecidableEq, Repr

/-- A request of a logout with the session it was for. -/
structure Order where
  request : LogoutRequest
  sessionId : String
  session : BffSession
  deriving DecidableEq, Repr

/-- The BFF, the logouts under way, and the history: the sessions created, what `revoke` was called
    for and what it returned for, what was deleted, and the answers. -/
structure Portal where
  server : Server
  logouts : ℕ → Option LogoutTask
  made : List Made
  called : List Order
  revoked : List Order
  ended : List Order
  replies : List (ℕ × LogoutRequest × LogoutAnswer)

def Portal.start : Portal := ⟨.start, fun _ => none, [], [], [], [], []⟩

/-- A step of a login, or of a logout; `drop` ends a logout whose client is gone or whose Redis
    command raised. -/
inductive PortalStep where
  | flow (l : Step)
  | logout (rid : ℕ) (request : LogoutRequest) (now : Time)
  | revoke (rid : ℕ) (returns : Bool)
  | delete (rid : ℕ)
  | drop (rid : ℕ)
  deriving DecidableEq, Repr

/-- The session a step of a login creates. -/
def Server.makes (cfg : Config) (s : Server) : Step → Option Made
  | .create rid sessionId csrfToken now =>
      match s.tasks rid with
      | some (.creating browser state _ tokens) =>
          some ⟨browser, state, sessionId, tokens.session csrfToken, now + cfg.sessionTtl⟩
      | _ => none
  | _ => none

/-- A logout is answered. -/
def Portal.reply (x : Portal) (rid : ℕ) (request : LogoutRequest) (a : LogoutAnswer) : Portal :=
  { x with
    logouts := Function.update x.logouts rid none
    replies := (rid, request, a) :: x.replies }

def Portal.step (cfg : Config) (env : Env) (publicOrigin : String) (x : Portal) :
    PortalStep → Portal
  | .flow l =>
      { x with
        server := Bff.step cfg env x.server l
        made := (x.server.makes cfg l).toList ++ x.made }
  | .logout rid request now =>
      match request.check env publicOrigin x.server now with
      | .answered status detail => x.reply rid request (.refused status detail)
      | .escaped error => x.reply rid request (.escaped error)
      | .proceeds (sessionId, session) =>
          { x with
            logouts := Function.update x.logouts rid (some (.revoking request sessionId session))
            called := ⟨request, sessionId, session⟩ :: x.called }
  | .revoke rid returns =>
      match x.logouts rid with
      | some (.revoking request sessionId session) =>
          if returns then
            { x with
              logouts := Function.update x.logouts rid (some (.deleting request sessionId session))
              revoked := ⟨request, sessionId, session⟩ :: x.revoked }
          else x.reply rid request .revokeRaised
      | _ => x
  | .delete rid =>
      match x.logouts rid with
      | some (.deleting request sessionId session) =>
          { x with
            server := x.server.deleteSession env sessionId
            ended := ⟨request, sessionId, session⟩ :: x.ended }.reply rid request .noContent
      | _ => x
  | .drop rid => { x with logouts := Function.update x.logouts rid none }

/-- `token_urlsafe` draws ids and CSRF tokens that no session has. -/
def NewSession (x : Portal) : PortalStep → Prop
  | .flow (.create _ sessionId csrfToken _) =>
      ∀ m ∈ x.made, m.sessionId ≠ sessionId ∧ m.session.csrfToken ≠ csrfToken
  | _ => True

instance (x : Portal) (l : PortalStep) : Decidable (NewSession x l) := by
  unfold NewSession
  split <;> infer_instance

/-! ## What a step does -/

/-- The branches of a step. -/
inductive Portal.Did (cfg : Config) (env : Env) (publicOrigin : String) (x : Portal) :
    PortalStep → Portal → Prop where
  | flow (l : Step) :
      x.Did cfg env publicOrigin (.flow l)
        { x with
          server := Bff.step cfg env x.server l
          made := (x.server.makes cfg l).toList ++ x.made }
  | refused (rid : ℕ) (request : LogoutRequest) (now : Time) (a : LogoutAnswer)
      (ha : a ≠ .noContent) :
      x.Did cfg env publicOrigin (.logout rid request now) (x.reply rid request a)
  | called (rid : ℕ) (request : LogoutRequest) (now : Time) (sessionId : String)
      (session : BffSession)
      (hcheck : request.check env publicOrigin x.server now = .proceeds (sessionId, session)) :
      x.Did cfg env publicOrigin (.logout rid request now)
        { x with
          logouts := Function.update x.logouts rid (some (.revoking request sessionId session))
          called := ⟨request, sessionId, session⟩ :: x.called }
  | returned (rid : ℕ) (request : LogoutRequest) (sessionId : String) (session : BffSession)
      (htask : x.logouts rid = some (.revoking request sessionId session)) :
      x.Did cfg env publicOrigin (.revoke rid true)
        { x with
          logouts := Function.update x.logouts rid (some (.deleting request sessionId session))
          revoked := ⟨request, sessionId, session⟩ :: x.revoked }
  | raised (rid : ℕ) (request : LogoutRequest) :
      x.Did cfg env publicOrigin (.revoke rid false) (x.reply rid request .revokeRaised)
  | deleted (rid : ℕ) (request : LogoutRequest) (sessionId : String) (session : BffSession)
      (htask : x.logouts rid = some (.deleting request sessionId session)) :
      x.Did cfg env publicOrigin (.delete rid)
        (Portal.reply
          { x with
            server := x.server.deleteSession env sessionId
            ended := ⟨request, sessionId, session⟩ :: x.ended } rid request .noContent)
  | dropped (rid : ℕ) :
      x.Did cfg env publicOrigin (.drop rid)
        { x with logouts := Function.update x.logouts rid none }
  | same (l : PortalStep) : x.Did cfg env publicOrigin l x

variable {cfg : Config} {env : Env} {publicOrigin : String} {x : Portal}

theorem portal_did (cfg : Config) (env : Env) (publicOrigin : String) (x : Portal)
    (l : PortalStep) : x.Did cfg env publicOrigin l (x.step cfg env publicOrigin l) := by
  cases l with
  | flow l => exact .flow l
  | logout rid request now =>
      simp only [Portal.step]
      split
      · exact .refused rid request now _ (by simp)
      · exact .refused rid request now _ (by simp)
      · next sessionId session hcheck => exact .called rid request now sessionId session hcheck
  | revoke rid returns =>
      simp only [Portal.step]
      split
      · next request sessionId session htask =>
          cases returns with
          | true => exact .returned rid request sessionId session htask
          | false => exact .raised rid request
      · exact .same _
  | delete rid =>
      simp only [Portal.step]
      split
      · next request sessionId session htask =>
          exact .deleted rid request sessionId session htask
      · exact .same _
  | drop rid => exact .dropped rid

/-- A step of a login creates at most one session, of the callback it answers with it. -/
theorem flow_makes (cfg : Config) (env : Env) (s : Server) (l : Step) :
    (s.makes cfg l = none ∧ (step cfg env s l).sessions = s.sessions ∧
        s.answered ⊆ (step cfg env s l).answered) ∨
      ∃ m returnTo now, s.makes cfg l = some m ∧
        (∃ rid, l = .create rid m.sessionId m.session.csrfToken now) ∧
        (step cfg env s l).sessions =
          Function.update s.sessions (sessionKey env m.sessionId) (some (m.session, m.deadline)) ∧
        (step cfg env s l).answered =
          ⟨m.browser, m.state, .session m.sessionId returnTo⟩ :: s.answered := by
  cases l with
  | create rid sessionId csrfToken now =>
      cases htask : s.tasks rid with
      | none => exact Or.inl (by simp [step, Server.makes, htask])
      | some t =>
          cases t with
          | exchanging browser state code transaction =>
              exact Or.inl (by simp [step, Server.makes, htask])
          | creating browser state transaction tokens =>
              simp only [step, Server.makes, htask]
              exact Or.inr ⟨_, transaction.returnTo, now, rfl, ⟨rid, rfl⟩, rfl, rfl⟩
  | login browser returnTo state verifier now =>
      refine Or.inl ⟨rfl, ?_⟩
      simp only [step]
      split <;> exact ⟨rfl, List.Subset.refl _⟩
  | callback rid browser state code now =>
      refine Or.inl ⟨rfl, ?_⟩
      simp only [step]
      split
      · exact ⟨rfl, List.subset_cons_self _ _⟩
      · exact ⟨rfl, List.Subset.refl _⟩
  | exchanged rid outcome =>
      refine Or.inl ⟨rfl, ?_⟩
      simp only [step]
      split
      · split
        · exact ⟨rfl, List.subset_cons_self _ _⟩
        · exact ⟨rfl, List.Subset.refl _⟩
      · exact ⟨rfl, List.Subset.refl _⟩

/-! ## What holds of every run -/

/-- The sessions by their ids; Redis has them by their digests. -/
def Portal.leases (env : Env) (x : Portal) : Leases String BffSession Time where
  live sessionId := x.server.sessions (sessionKey env sessionId)
  granted := x.made.map fun m => (m.sessionId, m.session, m.deadline)
  ended := x.ended.map Order.sessionId

/-- An authorized request, for a session that was made. -/
structure Order.Rightful (publicOrigin : String) (made : List Made) (o : Order) : Prop where
  authorized : o.request.Authorized publicOrigin o.sessionId o.session
  made : ∃ m ∈ made, m.sessionId = o.sessionId ∧ m.session = o.session

theorem Order.Rightful.more {made made' : List Made} {o : Order} (h : o.Rightful publicOrigin made)
    (hsub : made ⊆ made') : o.Rightful publicOrigin made' := by
  obtain ⟨m, hm, hs⟩ := h.made
  exact ⟨h.authorized, m, hsub hm, hs⟩

/-- How far a logout is. -/
def LogoutTask.Backed (x : Portal) : LogoutTask → Prop
  | .revoking request sessionId session => ⟨request, sessionId, session⟩ ∈ x.called
  | .deleting request sessionId session => ⟨request, sessionId, session⟩ ∈ x.revoked

structure Portal.Kept (env : Env) (publicOrigin : String) (x : Portal) : Prop where
  leases : (x.leases env).Exact
  tokens : (x.made.map fun m => m.session.csrfToken).Nodup
  handed : ∀ m ∈ x.made, ∃ returnTo,
    ⟨m.browser, m.state, .session m.sessionId returnTo⟩ ∈ x.server.answered
  logouts : ∀ rid t, x.logouts rid = some t → t.Backed x
  called : ∀ o ∈ x.called, o.Rightful publicOrigin x.made
  revoked : x.revoked ⊆ x.called
  ended : x.ended ⊆ x.revoked
  replies : ∀ rid request, (rid, request, .noContent) ∈ x.replies →
    ∃ o ∈ x.ended, o.request = request

theorem kept_start (env : Env) (publicOrigin : String) :
    Portal.start.Kept env publicOrigin where
  leases := Leases.exact_empty
  tokens := List.nodup_nil
  handed _ h := by cases h
  logouts _ _ h := by cases h
  called _ h := by cases h
  revoked := List.Subset.refl _
  ended := List.Subset.refl _
  replies _ _ h := by cases h

/-- Where SHA-256 does not collide, a key tells its session. -/
theorem sessionKey_inj (henv : Function.Injective env.sha256) :
    Function.Injective (sessionKey env) := by
  intro a b h
  have hdigest : env.sha256 a = env.sha256 b := (String.append_right_inj _).mp h
  exact henv hdigest

/-- A change under the key of one id changes what that id has. -/
theorem update_sessionKey (henv : Function.Injective env.sha256)
    (sessions : String → Option (BffSession × Time)) (sessionId : String)
    (v : Option (BffSession × Time)) :
    (fun id => Function.update sessions (sessionKey env sessionId) v (sessionKey env id)) =
      Function.update (fun id => sessions (sessionKey env id)) sessionId v :=
  Function.update_comp_eq_of_injective sessions (sessionKey_inj henv) sessionId v

/-- The read of Redis is that of the leases. -/
theorem getSession_eq_read (env : Env) (x : Portal) (sessionId : String) (now : Time) :
    x.server.getSession env sessionId now = (x.leases env).read sessionId now := rfl

/-- What a step does to the logouts, the orders and the answers of a portal whose sessions stay. -/
theorem Portal.Kept.turn (h : x.Kept env publicOrigin) {logouts : ℕ → Option LogoutTask}
    {called revoked : List Order} {replies : List (ℕ × LogoutRequest × LogoutAnswer)}
    (hlogouts : ∀ rid t, logouts rid = some t → t.Backed { x with called, revoked })
    (hcalled : ∀ o ∈ called, o.Rightful publicOrigin x.made) (hrevoked : revoked ⊆ called)
    (hended : x.ended ⊆ revoked)
    (hreplies : ∀ rid request, (rid, request, .noContent) ∈ replies →
      (rid, request, .noContent) ∈ x.replies) :
    Portal.Kept env publicOrigin { x with logouts, called, revoked, replies } where
  leases := h.leases
  tokens := h.tokens
  handed := h.handed
  logouts := hlogouts
  called := hcalled
  revoked := hrevoked
  ended := hended
  replies rid request hr := h.replies rid request (hreplies rid request hr)

/-- A session is created under an id and with a token that none had. -/
theorem Portal.Kept.flow (h : x.Kept env publicOrigin) (henv : Function.Injective env.sha256)
    (l : Step) (hnew : NewSession x (.flow l)) :
    Portal.Kept env publicOrigin
      { x with
        server := Bff.step cfg env x.server l
        made := (x.server.makes cfg l).toList ++ x.made } := by
  rcases flow_makes cfg env x.server l with
    ⟨hnone, hsessions, hsub⟩ | ⟨m, returnTo, now, hmakes, ⟨rid, rfl⟩, hsessions, hanswered⟩
  · rw [hnone]
    refine ⟨?_, h.tokens, ?_, h.logouts, h.called, h.revoked, h.ended, h.replies⟩
    · have hleases := h.leases
      unfold Portal.leases at hleases ⊢
      simp only [Option.toList_none, List.nil_append, hsessions]
      exact hleases
    · intro m hm
      obtain ⟨returnTo, hm⟩ := h.handed m hm
      exact ⟨returnTo, hsub hm⟩
  · rw [hmakes]
    have hid : m.sessionId ∉ (x.leases env).keys := by
      intro hmem
      obtain ⟨p, hp, he⟩ := List.mem_map.mp hmem
      obtain ⟨m', hm', rfl⟩ := List.mem_map.mp hp
      exact (hnew m' hm').1 he
    have hsub : x.made ⊆ (some m).toList ++ x.made := List.subset_append_right _ _
    refine ⟨?_, ?_, ?_, h.logouts, fun o ho => (h.called o ho).more hsub, h.revoked, h.ended,
      h.replies⟩
    · have hgrant := Leases.exact_grant h.leases hid m.session m.deadline
      unfold Portal.leases Leases.grant at hgrant
      unfold Portal.leases
      simp only [hsessions, update_sessionKey henv]
      exact hgrant
    · refine List.nodup_cons.mpr ⟨?_, h.tokens⟩
      intro hmem
      obtain ⟨m', hm', he⟩ := List.mem_map.mp hmem
      exact (hnew m' hm').2 he
    · intro m' hm'
      rw [hanswered]
      rcases List.mem_cons.mp hm' with rfl | hm'
      · exact ⟨returnTo, List.mem_cons_self⟩
      · obtain ⟨ret, hm'⟩ := h.handed m' hm'
        exact ⟨ret, List.mem_cons_of_mem _ hm'⟩

/-- A session is deleted for an order that `revoke` returned for. -/
theorem Portal.Kept.delete (h : x.Kept env publicOrigin) (henv : Function.Injective env.sha256)
    (rid : ℕ) {o : Order} (ho : o ∈ x.revoked) :
    Portal.Kept env publicOrigin
      (Portal.reply
        { x with server := x.server.deleteSession env o.sessionId, ended := o :: x.ended } rid
        o.request .noContent) := by
  refine ⟨?_, h.tokens, h.handed, ?_, h.called, h.revoked, List.cons_subset.mpr ⟨ho, h.ended⟩, ?_⟩
  · obtain ⟨m, hm, hid, -⟩ := (h.called o (h.revoked ho)).made
    have hkey : o.sessionId ∈ (x.leases env).keys := by
      rw [← hid]
      exact List.mem_map_of_mem (List.mem_map_of_mem hm)
    have hdelete := Leases.exact_delete h.leases hkey
    unfold Portal.leases Leases.delete at hdelete
    unfold Portal.leases Portal.reply Server.deleteSession
    simp only [update_sessionKey henv]
    exact hdelete
  · intro rid' t ht
    have hback := h.logouts rid' t (slot_clear ht).2
    cases t with
    | revoking request sessionId session => exact hback
    | deleting request sessionId session => exact hback
  · intro rid' request hr
    rcases List.mem_cons.mp hr with he | hr
    · cases he
      exact ⟨o, List.mem_cons_self, rfl⟩
    · obtain ⟨o', ho', he⟩ := h.replies rid' request hr
      exact ⟨o', List.mem_cons_of_mem _ ho', he⟩

theorem kept_step (henv : Function.Injective env.sha256) (x : Portal) (l : PortalStep)
    (h : x.Kept env publicOrigin) (hnew : NewSession x l) :
    (x.step cfg env publicOrigin l).Kept env publicOrigin := by
  have hd := portal_did cfg env publicOrigin x l
  generalize x.step cfg env publicOrigin l = x' at hd ⊢
  cases hd with
  | flow l => exact h.flow henv l hnew
  | refused rid request now a ha =>
      refine h.turn ?_ h.called h.revoked h.ended ?_
      · exact fun rid' t ht => h.logouts rid' t (slot_clear ht).2
      · intro rid' request' hr
        rcases List.mem_cons.mp hr with he | hr
        · cases he
          exact absurd rfl ha
        · exact hr
  | called rid request now sessionId session hcheck =>
      obtain ⟨hauthorized, hget, -⟩ := check_eq_proceeds.mp hcheck
      rw [getSession_eq_read, h.leases.read_iff] at hget
      obtain ⟨d, hgranted, -, -⟩ := hget
      obtain ⟨m, hm, he⟩ := List.mem_map.mp hgranted
      cases he
      refine h.turn ?_ ?_ (List.subset_cons_of_subset _ h.revoked) h.ended fun _ _ hr => hr
      · intro rid' t ht
        rcases slot_set ht with ⟨-, ht⟩ | ⟨-, rfl⟩
        · have hback := h.logouts rid' t ht
          cases t with
          | revoking request' sessionId session => exact List.mem_cons_of_mem _ hback
          | deleting request' sessionId session => exact hback
        · exact List.mem_cons_self
      · intro o ho
        rcases List.mem_cons.mp ho with rfl | ho
        · exact ⟨hauthorized, m, hm, rfl, rfl⟩
        · exact h.called o ho
  | returned rid request sessionId session htask =>
      have hcalled := h.logouts rid _ htask
      refine h.turn ?_ h.called (List.cons_subset.mpr ⟨hcalled, h.revoked⟩)
        (List.subset_cons_of_subset _ h.ended) fun _ _ hr => hr
      intro rid' t ht
      rcases slot_set ht with ⟨-, ht⟩ | ⟨-, rfl⟩
      · have hback := h.logouts rid' t ht
        cases t with
        | revoking request' sessionId session => exact hback
        | deleting request' sessionId session => exact List.mem_cons_of_mem _ hback
      · exact List.mem_cons_self
  | raised rid request =>
      refine h.turn ?_ h.called h.revoked h.ended ?_
      · exact fun rid' t ht => h.logouts rid' t (slot_clear ht).2
      · intro rid' request' hr
        rcases List.mem_cons.mp hr with he | hr
        · cases he
        · exact hr
  | deleted rid request sessionId session htask => exact h.delete henv rid (h.logouts rid _ htask)
  | dropped rid =>
      exact h.turn (fun rid' t ht => h.logouts rid' t (slot_clear ht).2) h.called h.revoked h.ended
        fun _ _ hr => hr
  | same => exact h

theorem kept_run (henv : Function.Injective env.sha256) {ls : List PortalStep}
    (hl : Along (Portal.step cfg env publicOrigin) NewSession .start ls) :
    (run (Portal.step cfg env publicOrigin) .start ls).Kept env publicOrigin :=
  run_invariant (Portal.step cfg env publicOrigin) (Portal.Kept env publicOrigin) (kept_step henv)
    (kept_start env publicOrigin) hl

/-! ## The laws -/

theorem sessionInfo_proceeds {s : Server} {cookie : Option String} {now : Time}
    {body : List (String × String)} : sessionInfo env s cookie now = .proceeds body ↔
      ∃ sessionId session, cookie = some sessionId ∧ s.getSession env sessionId now = some session ∧
        body = [("user_id", session.userId), ("csrf_token", session.csrfToken)] := by
  unfold sessionInfo
  cases cookie with
  | none => simp
  | some sessionId =>
      simp only [Option.bind_some]
      cases hget : s.getSession env sessionId now with
      | none => simp [hget]
      | some session =>
          simp only [Handled.proceeds.injEq]
          constructor
          · rintro rfl
            exact ⟨sessionId, session, rfl, hget, rfl⟩
          · rintro ⟨id, found, he, hfound, rfl⟩
            cases he
            rw [hget] at hfound
            cases hfound
            rfl

/-- The session `m` has not expired at `now`, and no logout has deleted it. -/
def Portal.Lives (x : Portal) (m : Made) (now : Time) : Prop :=
  m ∈ x.made ∧ now < m.deadline ∧ ∀ o ∈ x.ended, o.sessionId ≠ m.sessionId

instance (x : Portal) (m : Made) (now : Time) : Decidable (x.Lives m now) := by
  unfold Portal.Lives
  infer_instance

/-- Whatever logins and logouts run beside each other: `/bff/session` tells a browser the user and
    the CSRF token of the session its cookie was created for, by the callback that was answered with
    this cookie, until the session expires or a logout deletes it, and otherwise answers 401. -/
theorem session_law (cfg : Config) (env : Env) (publicOrigin : String)
    (henv : Function.Injective env.sha256) (ls : List PortalStep)
    (hl : Along (Portal.step cfg env publicOrigin) NewSession .start ls) (cookie : Option String)
    (now : Time) :
    let x := run (Portal.step cfg env publicOrigin) .start ls
    (∀ body, sessionInfo env x.server cookie now = .proceeds body ↔
        ∃ m, x.Lives m now ∧ cookie = some m.sessionId ∧
          body = [("user_id", m.session.userId), ("csrf_token", m.session.csrfToken)]) ∧
      ((¬ ∃ m, x.Lives m now ∧ cookie = some m.sessionId) →
        sessionInfo env x.server cookie now = .answered 401 "session required") ∧
      ∀ m ∈ x.made, ∃ returnTo,
        ⟨m.browser, m.state, .session m.sessionId returnTo⟩ ∈ x.server.answered := by
  intro x
  have hx : x.Kept env publicOrigin := kept_run henv hl
  have hiff : ∀ body, sessionInfo env x.server cookie now = .proceeds body ↔
      ∃ m, x.Lives m now ∧ cookie = some m.sessionId ∧
        body = [("user_id", m.session.userId), ("csrf_token", m.session.csrfToken)] := by
    intro body
    rw [sessionInfo_proceeds]
    constructor
    · rintro ⟨sessionId, session, hcookie, hget, hbody⟩
      rw [getSession_eq_read, hx.leases.read_iff] at hget
      obtain ⟨d, hgranted, hend, hd⟩ := hget
      obtain ⟨m, hm, he⟩ := List.mem_map.mp hgranted
      cases he
      refine ⟨m, ⟨hm, hd, ?_⟩, hcookie, hbody⟩
      intro o ho he
      exact hend (he ▸ List.mem_map_of_mem ho)
    · rintro ⟨m, ⟨hm, hd, hend⟩, hcookie, hbody⟩
      refine ⟨m.sessionId, m.session, hcookie, ?_, hbody⟩
      rw [getSession_eq_read, hx.leases.read_iff]
      refine ⟨m.deadline, List.mem_map_of_mem hm, ?_, hd⟩
      intro hmem
      obtain ⟨o, ho, he⟩ := List.mem_map.mp hmem
      exact hend o ho he
  refine ⟨hiff, ?_, hx.handed⟩
  intro hnone
  cases hinfo : sessionInfo env x.server cookie now with
  | proceeds body =>
      obtain ⟨m, hlives, hcookie, -⟩ := (hiff body).mp hinfo
      exact absurd ⟨m, hlives, hcookie⟩ hnone
  | answered status detail =>
      unfold sessionInfo at hinfo
      split at hinfo
      · exact hinfo.symm
      · cases hinfo
  | escaped error =>
      unfold sessionInfo at hinfo
      split at hinfo <;> cases hinfo

def labOrigin : String := "http://localhost:3000"

/-- A login of a browser, to the end. -/
def loginOf (n : ℕ) (state userId sessionId csrfToken : String) (now : Time) : List PortalStep :=
  [.flow (.login n "/" state ("verifier of " ++ state) now), .flow (.callback n n state "code" now),
    .flow (.exchanged n (tokensOf userId)), .flow (.create n sessionId csrfToken now)]

/-- What a browser sends to log out. -/
def logoutOf (sessionId csrfToken : String) : LogoutRequest :=
  ⟨some sessionId, some labOrigin, some csrfToken⟩

/-- Two logins; a logout with the token of the other session, and one with its own. -/
def twoSessions : List PortalStep :=
  loginOf 1 "state-1" "u1" "session-1" "csrf-1" 5 ++
    loginOf 2 "state-2" "u2" "session-2" "csrf-2" 6 ++
    [.logout 3 (logoutOf "session-2" "csrf-1") 10, .logout 4 (logoutOf "session-1" "csrf-1") 11,
      .revoke 4 true, .delete 4]

def afterTwo : Portal := run (Portal.step labConfig plainEnv labOrigin) .start twoSessions

theorem twoSessions_new :
    Along (Portal.step labConfig plainEnv labOrigin) NewSession .start twoSessions := by
  decide +kernel

/-- The session that was not logged out is told to the last second. -/
theorem second_session_told :
    sessionInfo plainEnv afterTwo.server (some "session-2") 3605 =
      .proceeds [("user_id", "u2"), ("csrf_token", "csrf-2")] :=
  ((session_law labConfig plainEnv labOrigin Function.injective_id twoSessions twoSessions_new
    (some "session-2") 3605).1 _).mpr
      ⟨⟨2, "state-2", "session-2", ⟨"u2", "access", "refresh", "csrf-2"⟩, 3606⟩, by decide +kernel,
        rfl, rfl⟩

/-- `revoke` is called only for a logout that was requested. -/
theorem called_run (x : Portal) (ls : List PortalStep) :
    ∀ o ∈ (run (Portal.step cfg env publicOrigin) x ls).called,
      o ∈ x.called ∨ ∃ rid now, .logout rid o.request now ∈ ls := by
  induction ls generalizing x with
  | nil => exact fun o ho => Or.inl ho
  | cons l ls ih =>
      intro o ho
      rcases ih (x.step cfg env publicOrigin l) o ho with hold | ⟨rid, now, hmem⟩
      · have hd := portal_did cfg env publicOrigin x l
        generalize x.step cfg env publicOrigin l = x' at hd hold
        cases hd with
        | called rid request now sessionId session hcheck =>
            rcases List.mem_cons.mp hold with rfl | hold
            · exact Or.inr ⟨rid, now, List.mem_cons_self⟩
            · exact Or.inl hold
        | _ => exact Or.inl hold
      · exact Or.inr ⟨rid, now, List.mem_cons_of_mem _ hmem⟩

/-- No session is left for a cookie whose logout deleted it. -/
theorem Portal.Kept.gone (h : x.Kept env publicOrigin) {o : Order} (ho : o ∈ x.ended) (now : Time) :
    sessionInfo env x.server (some o.sessionId) now = .answered 401 "session required" := by
  have hget : x.server.getSession env o.sessionId now = none := by
    rw [getSession_eq_read, Option.eq_none_iff_forall_ne_some]
    intro session hread
    obtain ⟨d, -, hend, -⟩ := h.leases.read_iff.mp hread
    exact hend (List.mem_map_of_mem ho)
  simp only [sessionInfo, Option.bind_some, hget]

/-- `revoke` is called for the refresh token of a session only at a logout that sends its cookie,
    the public origin and its CSRF token; a session is deleted only after `revoke` has returned for
    it, and so one that is missing before its time was given up by such a logout. A cookie that was
    answered 204 is worth nothing afterwards, and no session has the CSRF token of another. -/
theorem logout_law (cfg : Config) (env : Env) (publicOrigin : String)
    (henv : Function.Injective env.sha256) (ls : List PortalStep)
    (hl : Along (Portal.step cfg env publicOrigin) NewSession .start ls) :
    let x := run (Portal.step cfg env publicOrigin) .start ls
    (∀ o ∈ x.called, o.Rightful publicOrigin x.made ∧ ∃ rid now, .logout rid o.request now ∈ ls) ∧
      x.ended ⊆ x.revoked ∧ x.revoked ⊆ x.called ∧
      (∀ m ∈ x.made, ∀ now, now < m.deadline → ¬ x.Lives m now →
        ∃ rid request now', .logout rid request now' ∈ ls ∧
          request.Authorized publicOrigin m.sessionId m.session ∧
          ⟨request, m.sessionId, m.session⟩ ∈ x.revoked) ∧
      (∀ rid request, (rid, request, .noContent) ∈ x.replies → ∀ now,
        sessionInfo env x.server request.cookie now = .answered 401 "session required") ∧
      ∀ m ∈ x.made, ∀ m' ∈ x.made, m.session.csrfToken = m'.session.csrfToken → m = m' := by
  intro x
  have hx : x.Kept env publicOrigin := kept_run henv hl
  have hasked : ∀ o ∈ x.called, ∃ rid now, .logout rid o.request now ∈ ls := by
    intro o ho
    rcases called_run .start ls o ho with hold | hmem
    · cases hold
    · exact hmem
  refine ⟨fun o ho => ⟨hx.called o ho, hasked o ho⟩, hx.ended, hx.revoked, ?_, ?_, ?_⟩
  · intro m hm now hnow hlives
    have hgone : ∃ o ∈ x.ended, o.sessionId = m.sessionId := by
      by_contra hnone
      exact hlives ⟨hm, hnow, fun o ho he => hnone ⟨o, ho, he⟩⟩
    obtain ⟨o, ho, hid⟩ := hgone
    have hcalled := hx.revoked (hx.ended ho)
    obtain ⟨hauthorized, m', hm', hid', hsession⟩ := hx.called o hcalled
    -- the order is for this very session, since ids are given once
    have hsame := hx.leases.unique (k := m.sessionId) (List.mem_map_of_mem hm)
      (List.mem_map.mpr ⟨m', hm', by rw [hid', hid]⟩)
    have ho' : o = ⟨o.request, m.sessionId, m.session⟩ := by
      rw [hsame.1, hsession, ← hid]
    rw [ho'] at hauthorized ho
    obtain ⟨rid, now', hmem⟩ := hasked o hcalled
    exact ⟨rid, o.request, now', hmem, hauthorized, hx.ended ho⟩
  · intro rid request hr now
    obtain ⟨o, ho, rfl⟩ := hx.replies rid request hr
    have hcookie := (hx.called o (hx.revoked (hx.ended ho))).authorized.cookie
    rw [hcookie]
    exact hx.gone ho now
  · intro m hm m' hm' htoken
    exact List.inj_on_of_nodup_map hx.tokens hm hm' htoken

/-- The cookie of the one that was logged out is worth nothing. -/
theorem first_session_gone :
    afterTwo.replies.map Prod.fst = [4, 3] ∧
      sessionInfo plainEnv afterTwo.server (some "session-1") 12 =
        .answered 401 "session required" :=
  ⟨by decide +kernel,
    (logout_law labConfig plainEnv labOrigin Function.injective_id twoSessions
      twoSessions_new).2.2.2.2.1 4 (logoutOf "session-1" "csrf-1") (by decide +kernel) 12⟩

/-! ## A logout that completes -/

/-- The steps of the logout `rid`. -/
def PortalStep.own (rid : ℕ) : PortalStep → Option PortalStep
  | .flow _ => none
  | .logout rid' request now => if rid' = rid then some (.logout rid' request now) else none
  | .revoke rid' returns => if rid' = rid then some (.revoke rid' returns) else none
  | .delete rid' => if rid' = rid then some (.delete rid') else none
  | .drop rid' => if rid' = rid then some (.drop rid') else none

/-- The logout has still to hear from `revoke`, to delete the session, or nothing. -/
inductive Portal.Awaits (rid : ℕ) (o : Order) : List PortalStep → Portal → Prop where
  | revoking (x : Portal)
      (htask : x.logouts rid = some (.revoking o.request o.sessionId o.session)) :
      Portal.Awaits rid o [.revoke rid true, .delete rid] x
  | deleting (x : Portal) (hrevoked : o ∈ x.revoked)
      (htask : x.logouts rid = some (.deleting o.request o.sessionId o.session)) :
      Portal.Awaits rid o [.delete rid] x
  | done (x : Portal) (hrevoked : o ∈ x.revoked) (hended : o ∈ x.ended)
      (hreply : (rid, o.request, .noContent) ∈ x.replies) : Portal.Awaits rid o [] x

/-- What has happened stays, and a step that is not its own leaves a logout where it is. -/
theorem step_others (cfg : Config) (env : Env) (publicOrigin : String) (x : Portal)
    (l : PortalStep) :
    x.revoked ⊆ (x.step cfg env publicOrigin l).revoked ∧
      x.ended ⊆ (x.step cfg env publicOrigin l).ended ∧
      x.replies ⊆ (x.step cfg env publicOrigin l).replies ∧
      ∀ rid, l.own rid = none → (x.step cfg env publicOrigin l).logouts rid = x.logouts rid := by
  have hd := portal_did cfg env publicOrigin x l
  generalize x.step cfg env publicOrigin l = x' at hd
  -- a step on the logout `rid` is the own step of `rid`
  have hother : ∀ {rid rid' : ℕ} {l : PortalStep} {v : Option LogoutTask},
      (if rid' = rid then some l else none) = none →
      Function.update x.logouts rid' v rid = x.logouts rid := by
    intro rid rid' l v hown
    refine Function.update_of_ne ?_ _ _
    rintro rfl
    rw [if_pos rfl] at hown
    cases hown
  cases hd with
  | flow l =>
      exact ⟨List.Subset.refl _, List.Subset.refl _, List.Subset.refl _, fun _ _ => rfl⟩
  | refused rid request now a ha =>
      exact ⟨List.Subset.refl _, List.Subset.refl _, List.subset_cons_self _ _, fun _ => hother⟩
  | called rid request now sessionId session hcheck =>
      exact ⟨List.Subset.refl _, List.Subset.refl _, List.Subset.refl _, fun _ => hother⟩
  | returned rid request sessionId session htask =>
      exact ⟨List.subset_cons_self _ _, List.Subset.refl _, List.Subset.refl _, fun _ => hother⟩
  | raised rid request =>
      exact ⟨List.Subset.refl _, List.Subset.refl _, List.subset_cons_self _ _, fun _ => hother⟩
  | deleted rid request sessionId session htask =>
      exact ⟨List.Subset.refl _, List.subset_cons_self _ _, List.subset_cons_self _ _,
        fun _ => hother⟩
  | dropped rid =>
      exact ⟨List.Subset.refl _, List.Subset.refl _, List.Subset.refl _, fun _ => hother⟩
  | same => exact ⟨List.Subset.refl _, List.Subset.refl _, List.Subset.refl _, fun _ _ => rfl⟩

theorem Portal.Awaits.other {rid : ℕ} {o : Order} {todo : List PortalStep} {l : PortalStep}
    (h : Portal.Awaits rid o todo x) (hl : l.own rid = none) :
    Portal.Awaits rid o todo (x.step cfg env publicOrigin l) := by
  obtain ⟨hrevoked, hended, hreplies, hlogouts⟩ := step_others cfg env publicOrigin x l
  cases h with
  | revoking _ htask => exact .revoking _ ((hlogouts rid hl).trans htask)
  | deleting _ hmem htask => exact .deleting _ (hrevoked hmem) ((hlogouts rid hl).trans htask)
  | done _ hmem hend hreply => exact .done _ (hrevoked hmem) (hended hend) (hreplies hreply)

theorem PortalStep.eq_of_own {rid : ℕ} {l a : PortalStep} (h : l.own rid = some a) : l = a := by
  cases l with
  | flow l => cases h
  | _ =>
      simp only [PortalStep.own] at h
      split at h
      · exact Option.some.inj h
      · cases h

theorem Portal.Awaits.own {rid : ℕ} {o : Order} {todo : List PortalStep} {a : PortalStep}
    (h : Portal.Awaits rid o (a :: todo) x) :
    Portal.Awaits rid o todo (x.step cfg env publicOrigin a) := by
  cases h with
  | revoking _ htask =>
      simp only [Portal.step, htask, if_true]
      exact .deleting _ List.mem_cons_self (Function.update_self ..)
  | deleting _ hmem htask =>
      simp only [Portal.step, htask]
      exact .done _ hmem List.mem_cons_self List.mem_cons_self

/-- A logout that passes its checks and whose `revoke` returns is answered 204, whatever else goes
    on meanwhile; its session has been given up by then, and stays so. -/
theorem logout_completes (cfg : Config) (env : Env) (publicOrigin : String)
    (henv : Function.Injective env.sha256) (before during after : List PortalStep) (rid : ℕ)
    (request : LogoutRequest) (now : Time) (sessionId : String) (session : BffSession)
    (hl : Along (Portal.step cfg env publicOrigin) NewSession .start
      (before ++ .logout rid request now :: (during ++ after)))
    (hcheck : request.check env publicOrigin
      (run (Portal.step cfg env publicOrigin) .start before).server now =
        .proceeds (sessionId, session))
    (hown : during.filterMap (PortalStep.own rid) = [.revoke rid true, .delete rid]) :
    let x := run (Portal.step cfg env publicOrigin) .start
      (before ++ .logout rid request now :: (during ++ after))
    (rid, request, .noContent) ∈ x.replies ∧ ⟨request, sessionId, session⟩ ∈ x.revoked ∧
      ∀ later, sessionInfo env x.server (some sessionId) later =
        .answered 401 "session required" := by
  intro x
  have hx : x.Kept env publicOrigin := kept_run henv hl
  obtain ⟨x₀, hx₀⟩ : ∃ x₀, x₀ = run (Portal.step cfg env publicOrigin) .start before := ⟨_, rfl⟩
  have hstart : Portal.Awaits rid ⟨request, sessionId, session⟩ [.revoke rid true, .delete rid]
      (x₀.step cfg env publicOrigin (.logout rid request now)) := by
    refine .revoking _ ?_
    rw [← hx₀] at hcheck
    simp only [Portal.step, hcheck, Function.update_self]
  have hdone : Portal.Awaits rid ⟨request, sessionId, session⟩ []
      (run (Portal.step cfg env publicOrigin)
        (x₀.step cfg env publicOrigin (.logout rid request now)) during) := by
    refine run_script (Portal.step cfg env publicOrigin) (Q := fun _ _ => True)
      (PortalStep.own rid) (Portal.Awaits rid ⟨request, sessionId, session⟩) ?_ ?_
      ((along_iff _ _ _).mpr fun _ _ _ _ => trivial) (by rw [hown]; exact hstart)
    · exact fun y l todo _ hnone h => h.other hnone
    · intro y l a todo _ hsome h
      rw [PortalStep.eq_of_own hsome]
      exact h.own
  have hfinal : Portal.Awaits rid ⟨request, sessionId, session⟩ [] x := by
    have hrun : x = run (Portal.step cfg env publicOrigin)
        (run (Portal.step cfg env publicOrigin)
          (x₀.step cfg env publicOrigin (.logout rid request now)) during) after := by
      rw [hx₀, ← run_append, ← run_cons, ← run_append]
    rw [hrun]
    refine run_always _ (Portal.Awaits rid ⟨request, sessionId, session⟩ []) ?_ hdone after
    intro y l h
    cases h with
    | done _ hmem hend hreply =>
        obtain ⟨hrevoked, hended, hreplies, -⟩ := step_others cfg env publicOrigin y l
        exact .done _ (hrevoked hmem) (hended hend) (hreplies hreply)
  cases hfinal with
  | done _ hrevoked hended hreply => exact ⟨hreply, hrevoked, hx.gone hended⟩

/-- Another logout of the same session, a refused one and a login run in between. -/
theorem second_session_leaves :
    let x := run (Portal.step labConfig plainEnv labOrigin) .start
      (twoSessions ++ .logout 5 (logoutOf "session-2" "csrf-2") 20 ::
        (([.logout 6 (logoutOf "session-2" "csrf-2") 21, .revoke 6 false, .revoke 5 true,
            .logout 7 (logoutOf "session-1" "csrf-1") 22] ++
          loginOf 3 "state-3" "u2" "session-3" "csrf-3" 23 ++ [.delete 5]) ++ [.delete 6]))
    (5, logoutOf "session-2" "csrf-2", .noContent) ∈ x.replies ∧
      ⟨logoutOf "session-2" "csrf-2", "session-2", ⟨"u2", "access", "refresh", "csrf-2"⟩⟩ ∈
        x.revoked ∧
      ∀ later, sessionInfo plainEnv x.server (some "session-2") later =
        .answered 401 "session required" :=
  logout_completes labConfig plainEnv labOrigin Function.injective_id twoSessions _ _ 5 _ 20 _ _
    (by decide +kernel) (by decide +kernel) (by decide +kernel)

end TemisLab.Bff
