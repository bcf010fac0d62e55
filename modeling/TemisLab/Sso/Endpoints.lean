/-
  The endpoints that authenticate their caller through `current_subject` (`api/users.py`,
  `api/admin.py`, the revocations of `api/kakao_oauth.py` and `api/naver_oauth.py`).

  An accepted token hands an endpoint its subject and nothing else: neither `current_subject`
  nor an endpoint compares `authz_version`. So the endpoints do not refuse a token for being
  older than a suspension, a role change or a revocation (`revoked_token_accepted`); each
  decides by the tables it finds.

  * `permits_of_actsFor`: what the tables must hold for an endpoint to carry out its action.
  * `current_tables_decide`: over every run, a suspension shuts the subject out of `/users/me`
    and the admin routes until it is lifted, and a revoked `admin` role shuts it out of the
    admin routes until the role is given again, whatever the age of the token.
-/
import TemisLab.Sso.Suspension

namespace TemisLab.Sso

open TemisLab.Lib

/-- `current_subject`: 401 without a bearer token that `verify_access` accepts. -/
def currentSubject (keys : String → Bool) (now : Time) (bearer : Option AccessToken) :
    Except ℕ String :=
  match bearer with
  | none => .error 401
  | some token =>
      match verifyAccess keys audience now token with
      | none => .error 401
      | some claims => .ok claims.sub

/-- `api.admin.translate`; a `RuntimeError` is not caught. -/
def translate : AdminError → ℕ
  | .adminRequired => 403
  | .selfAction => 409
  | .userNotFound => 404
  | .simulated => 500

/-- A request to an endpoint behind `current_subject`. `accepted` is the provider's answer. -/
inductive Endpoint where
  | me
  | approve (targetId : String)
  | suspend (targetId reason : String)
  | grantRole (targetId role : String)
  | removeRole (targetId role : String)
  | revoke (targetId : String)
  | kakaoRevoke (accepted : Bool)
  | naverRevoke (accepted : Bool)
  deriving DecidableEq, Repr

/-- `me`. -/
def me (db : Db) (userId : String) : Except ℕ Db :=
  match db.user userId with
  | none => .error 404
  | some user => if user.status ≠ .active then .error 403 else .ok db

/-- An admin route runs its operation. -/
def adminRoute (env : Env) (db : Db) (now : Time) (op : AdminOp) : Except ℕ Db :=
  (op.exec env db now).mapError translate

/-- `kakao_revoke` and `naver_revoke`. -/
def providerRevoke (db : Db) (provider userId : String) (accepted : Bool) : Except ℕ Db :=
  match linkOf db provider userId with
  | none => .error 404
  | some _ => (revokeLink db provider userId accepted).elim (.error 502) .ok

namespace Endpoint

/-- The action of an endpoint for the subject of its caller's token. -/
def act (env : Env) (db : Db) (now : Time) (subject : String) : Endpoint → Except ℕ Db
  | .me => Sso.me db subject
  | .approve t => adminRoute env db now (.approveUser subject t false)
  | .suspend t reason =>
      if reason.length < 3 ∨ 200 < reason.length then .error 422
      else adminRoute env db now (.suspendUser subject t reason)
  | .grantRole t role => adminRoute env db now (.changeRole subject t role true)
  | .removeRole t role => adminRoute env db now (.changeRole subject t role false)
  | .revoke t => adminRoute env db now (.revokeSessions subject t)
  | .kakaoRevoke accepted => providerRevoke db "kakao" subject accepted
  | .naverRevoke accepted => providerRevoke db "naver" subject accepted

/-- The whole request: the status of its failure, or the tables after its action. -/
def handle (env : Env) (keys : String → Bool) (db : Db) (now : Time)
    (bearer : Option AccessToken) (e : Endpoint) : Except ℕ Db :=
  match currentSubject keys now bearer with
  | .error status => .error status
  | .ok subject => e.act env db now subject

/-- The endpoint carries out its action for the token. -/
def actsFor (env : Env) (keys : String → Bool) (db : Db) (now : Time) (token : AccessToken)
    (e : Endpoint) : Bool := (e.handle env keys db now (some token)).isOk

/-- The routes under `/admin`. -/
def isAdminRoute : Endpoint → Bool
  | .me => false
  | .kakaoRevoke _ => false
  | .naverRevoke _ => false
  | _ => true

/-- What the tables must hold for an action on behalf of `subject`. -/
def Permits (db : Db) (subject : String) : Endpoint → Prop
  | .me => db.isActive subject = true
  | .kakaoRevoke _ => ∃ link, linkOf db "kakao" subject = some link
  | .naverRevoke _ => ∃ link, linkOf db "naver" subject = some link
  | _ => db.isCurrentAdmin subject = true

theorem adminRoute_ok {env : Env} {db db' : Db} {now : Time} {op : AdminOp} {a : String}
    (ha : op.actor = some a) (h : adminRoute env db now op = .ok db') :
    db.isCurrentAdmin a = true := by
  unfold adminRoute at h
  cases hx : op.exec env db now with
  | error e => rw [hx] at h; cases h
  | ok db₁ => exact (AdminOp.exec_effect hx).authority a ha

theorem providerRevoke_ok {db db' : Db} {provider userId : String} {accepted : Bool}
    (h : providerRevoke db provider userId accepted = .ok db') :
    ∃ link, linkOf db provider userId = some link := by
  unfold providerRevoke at h
  split at h
  · cases h
  · next link hl => exact ⟨link, hl⟩

theorem act_ok {env : Env} {db db' : Db} {now : Time} {subject : String} {e : Endpoint}
    (h : e.act env db now subject = .ok db') : e.Permits db subject := by
  cases e with
  | me =>
      simp only [act, Sso.me] at h
      split at h
      · cases h
      · next user hu =>
          split at h
          · cases h
          · next hs => exact Db.isActive_iff.mpr ⟨user, hu, not_not.mp hs⟩
  | suspend t reason =>
      simp only [act] at h
      split at h
      · cases h
      · exact adminRoute_ok rfl h
  | kakaoRevoke accepted => exact providerRevoke_ok h
  | naverRevoke accepted => exact providerRevoke_ok h
  | _ => exact adminRoute_ok rfl h

/-- An endpoint that acts for a token found its subject entitled. -/
theorem permits_of_actsFor {env : Env} {keys : String → Bool} {db : Db} {now : Time}
    {token : AccessToken} {e : Endpoint} (h : e.actsFor env keys db now token = true) :
    e.Permits db token.claims.sub := by
  unfold actsFor handle currentSubject at h
  simp only at h
  cases hv : verifyAccess keys audience now token with
  | none => rw [hv] at h; cases h
  | some claims =>
      rw [hv] at h
      simp only at h
      rw [← verifyAccess_eq_some hv]
      cases ha : e.act env db now claims.sub with
      | error status => rw [ha] at h; cases h
      | ok db' => exact act_ok ha

/-- Neither `/users/me` nor an admin route serves a suspended subject. -/
theorem not_permits_suspended {db : Db} {v : String} (h : Suspended db v) {e : Endpoint}
    (he : e = .me ∨ e.isAdminRoute = true) : ¬ e.Permits db v := by
  have hactive : db.isActive v = false := by
    obtain ⟨user, hu, hst⟩ := h
    simp [Db.isActive, hu, hst]
  cases e with
  | me => simp [Permits, hactive]
  | kakaoRevoke accepted => simp [isAdminRoute] at he
  | naverRevoke accepted => simp [isAdminRoute] at he
  | _ => simp [Permits, Db.isCurrentAdmin, hactive]

/-- No admin route serves a subject without the role `admin`. -/
theorem not_permits_plain {db : Db} {v : String} (h : db.hasRole v "admin" = false)
    {e : Endpoint} (he : e.isAdminRoute = true) : ¬ e.Permits db v := by
  cases e with
  | me => simp [isAdminRoute] at he
  | kakaoRevoke accepted => simp [isAdminRoute] at he
  | naverRevoke accepted => simp [isAdminRoute] at he
  | _ => simp [Permits, Db.isCurrentAdmin, h]

end Endpoint

/-! ## A revoked role stays revoked -/

/-- The transaction may give `v` the role `admin`. -/
def GrantsAdmin (v : String) : Tx → Prop
  | .admin op _ => op.target = v ∧ op.hasRoleAfter "admin" false = true
  | _ => False

/-- The user is there and does not hold the role `admin`. -/
def Plain (db : Db) (v : String) : Prop :=
  (∃ user, db.user v = some user) ∧ db.hasRole v "admin" = false

theorem plain_step {env : Env} {s : Sys} {l : Tx} {v : String} (h : Plain s.db v)
    (hl : ¬ GrantsAdmin v l) : Plain (step env s l).db v := by
  obtain ⟨⟨user, hu⟩, hr⟩ := h
  obtain ⟨user', hu', -⟩ := (step_grows env s l).users v user hu
  refine ⟨⟨user', hu'⟩, ?_⟩
  cases l with
  | activate rid =>
      rcases step_activate env s rid with ⟨w, -, he⟩ | he
      · rw [he]
        exact hr
      · rw [he]
        exact hr
  | admin op now =>
      rcases step_admin env s op now with he | he
      · rw [he.roles v "admin", hr]
        by_cases hv : v = op.target
        · rw [if_pos hv]
          exact Bool.eq_false_iff.mpr fun hg => hl ⟨hv.symm, hg⟩
        · rw [if_neg hv]
      · rw [he]
        exact hr
  | _ =>
      rw [(step_steady env s _ (by simp) (by simp)).roles v user "admin" hu]
      exact hr

/-- Revoking the role `admin` leaves its user without it. -/
theorem plain_of_exec {env : Env} {db db' : Db} {a v : String} {now : Time}
    (h : AdminOp.exec env db now (.changeRole a v "admin" false) = .ok db') : Plain db' v := by
  have he := AdminOp.exec_effect h
  obtain ⟨user, hu⟩ := he.found
  refine ⟨⟨_, he.target user hu⟩, ?_⟩
  rw [he.roles v "admin"]
  exact if_pos rfl

/-! ## Runs -/

/-- The operations after which an earlier token of `v` is stale. -/
def MakesStale (v : String) : AdminOp → Prop
  | .suspendUser _ t _ => t = v
  | .changeRole _ t _ _ => t = v
  | .revokeSessions _ t => t = v
  | _ => False

/-- In the run of `ls` from `db`, no endpoint acts for a token older than an operation that
    makes it stale. -/
def StaleRefused (env : Env) (db : Db) (ls : List Tx) : Prop :=
  ∀ pre op now mid post v, ls = pre ++ .admin op now :: (mid ++ post) → MakesStale v op →
    let before := run (step env) (.start db) pre
    let after := step env before (.admin op now)
    op.exec env before.db now = .ok after.db →
    ∀ b ∈ before.bundlesOf v, ∀ keys time e,
      Endpoint.actsFor env keys (run (step env) after mid).db time b.bundle.accessToken e = false

/-- In the run of `ls` from `db`, the endpoints act on the tables as they are: after each
    operation and whatever followed it, for every token of the operation's target. -/
def TablesDecide (env : Env) (db : Db) (ls : List Tx) : Prop :=
  ∀ pre op now mid post, ls = pre ++ .admin op now :: (mid ++ post) →
    let before := run (step env) (.start db) pre
    let after := step env before (.admin op now)
    let s := run (step env) after mid
    op.exec env before.db now = .ok after.db →
    ∀ keys time (e : Endpoint) (token : AccessToken), token.claims.sub = op.target →
      (e.actsFor env keys s.db time token = true → e.Permits s.db op.target) ∧
      (∀ a reason, op = .suspendUser a op.target reason →
        Along (step env) (fun s l => ¬ Lifts s.db op.target l ∧ ¬ VerifiesLate op.target s l)
          after mid →
        (e = .me ∨ e.isAdminRoute = true) → e.actsFor env keys s.db time token = false) ∧
      (∀ a, op = .changeRole a op.target "admin" false →
        Along (step env) (fun _ l => ¬ GrantsAdmin op.target l) after mid →
        e.isAdminRoute = true → e.actsFor env keys s.db time token = false)

theorem plain_run {env : Env} {s : Sys} {v : String} (h : Plain s.db v) {ls : List Tx}
    (hl : Along (step env) (fun _ l => ¬ GrantsAdmin v l) s ls) :
    Plain (run (step env) s ls).db v :=
  run_invariant (step env) (fun t => Plain t.db v) (fun _ _ ht hq => plain_step ht hq) h hl

/-- What the endpoints enforce, in every run. -/
theorem current_tables_decide (env : Env) (db : Db) (ls : List Tx) : TablesDecide env db ls := by
  intro pre op now mid post hls before after s hok keys time e token hsub
  have hpermits : e.actsFor env keys s.db time token = true → e.Permits s.db op.target := by
    intro hact
    rw [← hsub]
    exact Endpoint.permits_of_actsFor hact
  refine ⟨hpermits, ?_, ?_⟩
  · intro a reason hop hl he
    have hsusp : Suspended after.db op.target := suspended_of_exec (hop ▸ hok)
    exact Bool.eq_false_iff.mpr fun hact =>
      Endpoint.not_permits_suspended (suspended_run hsusp hl) he (hpermits hact)
  · intro a hop hl he
    have hplain : Plain after.db op.target := plain_of_exec (hop ▸ hok)
    exact Bool.eq_false_iff.mpr fun hact =>
      Endpoint.not_permits_plain (plain_run hplain hl).2 he (hpermits hact)

/-! ## A stale token at work -/

/-- After the sessions of `u` are revoked, `/users/me` answers for the token `u` had. -/
theorem revoked_token_accepted : ¬ ∀ env db ls, StaleRefused env db ls := by
  intro h
  have hrefused := h plainEnv .empty (loggedIn ++ [.admin (.revokeSessions "a" "u") 2])
    loggedIn (.revokeSessions "a" "u") 2 [] [] "u" rfl rfl (by decide +kernel)
    ⟨⟨"u", ⟨"k", bundleClaims "u" 2 ["user"] audience 1⟩, "g1"⟩, none⟩ (by decide +kernel)
    (fun kid => kid = "k") 3 .me
  exact absurd hrefused (by decide +kernel)

end TemisLab.Sso
