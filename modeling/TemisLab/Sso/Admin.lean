/-
  The admin operations (`application/admin.py`), each one transaction on the committed tables.
  The `SelfActionError` checks come before the transaction, `_assert_admin` is its first read.

  `AdminOp.exec_effect` says once what an operation that returns did: its target's row has a
  version one higher and the status the operation sets, every other row is as it was, the
  target has the roles the operation leaves it, and no grant of the target is live.
-/
import TemisLab.Sso.Tokens

namespace TemisLab.Sso

open TemisLab.Lib

inductive AdminError where
  | adminRequired | userNotFound | selfAction | simulated
  deriving DecidableEq, Repr

/-- `redact`: the details an audit row may keep. -/
def redact (env : Env) (details : List (String × String)) : List (String × String) :=
  details.map fun (key, value) =>
    if ["password", "token", "secret", "authorization"].any (PyText.contains · (env.lower key)) ||
        ["bearer ", "token=", "password="].any (PyText.contains · (env.lower value)) then
      (key, "[REDACTED]")
    else (key, value)

/-- `_assert_admin`: the actor is active and has the role row `admin`. -/
def Db.isCurrentAdmin (db : Db) (actorId : String) : Bool :=
  db.isActive actorId && db.hasRole actorId "admin"

/-- `_audit`. -/
def audit (env : Env) (db : Db) (actorId targetId action : String)
    (details : List (String × String)) : Db :=
  { db with auditLogs := db.auditLogs ++ [⟨actorId, targetId, action, redact env details⟩] }

/-- The live grants of `userId`, as `_invalidate_authorization` selects them. -/
def liveGrantOf (userId : String) (g : RefreshGrant) : Bool := g.userId = userId && g.isLive

/-- `target.authz_version += 1`. -/
def User.bumpVersion (u : User) : User := { u with authzVersion := u.authzVersion + 1 }

/-- `_invalidate_authorization`. -/
def invalidateAuthorization (db : Db) (userId : String) (now : Time) : Db :=
  (db.setUser userId User.bumpVersion fun _ => rfl).consumeGrants (liveGrantOf userId) now

/-- `session.merge(UserRole(…))`. -/
def mergeRole (db : Db) (userId role : String) : Db :=
  { db with userRoles := db.userRoles.merge ⟨userId, role⟩ }

/-- `delete(UserRole).where(…)`. -/
def deleteRole (db : Db) (userId role : String) : Db :=
  { db with userRoles := db.userRoles.delete fun r => r.userId = userId && r.role = role }

/-- `bootstrap_admin`. -/
def bootstrapAdmin (db : Db) (userId : String) (now : Time) : Except AdminError Db :=
  match db.user userId with
  | none => .error .userNotFound
  | some _ =>
      .ok (invalidateAuthorization (mergeRole (setStatus db userId .active) userId "admin")
        userId now)

/-- `approve_user`. -/
def approveUser (env : Env) (db : Db) (actorId targetId : String) (failForTest : Bool)
    (now : Time) : Except AdminError Db :=
  if !db.isCurrentAdmin actorId then .error .adminRequired
  else match db.user targetId with
    | none => .error .userNotFound
    | some _ =>
        let db₁ := setStatus db targetId .active
        let db₂ := mergeRole (deleteRole db₁ targetId "pending") targetId "user"
        let db₃ := invalidateAuthorization db₂ targetId now
        if failForTest then .error .simulated
        else .ok (audit env db₃ actorId targetId "user.approved" [])

/-- `suspend_user`. -/
def suspendUser (env : Env) (db : Db) (actorId targetId reason : String) (now : Time) :
    Except AdminError Db :=
  if actorId = targetId then .error .selfAction
  else if !db.isCurrentAdmin actorId then .error .adminRequired
  else match db.user targetId with
    | none => .error .userNotFound
    | some _ =>
        .ok (audit env (invalidateAuthorization (setStatus db targetId .suspended) targetId now)
          actorId targetId "user.suspended" [("reason", reason)])

/-- `change_role`. -/
def changeRole (env : Env) (db : Db) (actorId targetId role : String) (grant : Bool)
    (now : Time) : Except AdminError Db :=
  if actorId = targetId ∧ role = "admin" ∧ grant = false then .error .selfAction
  else if !db.isCurrentAdmin actorId then .error .adminRequired
  else match db.user targetId with
    | none => .error .userNotFound
    | some _ =>
        let db₁ := if grant then mergeRole db targetId role else deleteRole db targetId role
        let action := if grant then "role.granted" else "role.revoked"
        .ok (audit env (invalidateAuthorization db₁ targetId now) actorId targetId action
          [("role", role)])

/-- `revoke_sessions`. -/
def revokeSessions (env : Env) (db : Db) (actorId targetId : String) (now : Time) :
    Except AdminError Db :=
  if actorId = targetId then .error .selfAction
  else if !db.isCurrentAdmin actorId then .error .adminRequired
  else match db.user targetId with
    | none => .error .userNotFound
    | some _ =>
        .ok (audit env (invalidateAuthorization db targetId now) actorId targetId
          "sessions.revoked" [])

/-! ## The operations as one family -/

/-- A call of an admin operation. -/
inductive AdminOp where
  | bootstrapAdmin (userId : String)
  | approveUser (actorId targetId : String) (failForTest : Bool)
  | suspendUser (actorId targetId reason : String)
  | changeRole (actorId targetId role : String) (grant : Bool)
  | revokeSessions (actorId targetId : String)
  deriving DecidableEq, Repr

namespace AdminOp

def exec (env : Env) (db : Db) (now : Time) : AdminOp → Except AdminError Db
  | .bootstrapAdmin u => Sso.bootstrapAdmin db u now
  | .approveUser a t fail => Sso.approveUser env db a t fail now
  | .suspendUser a t reason => Sso.suspendUser env db a t reason now
  | .changeRole a t role grant => Sso.changeRole env db a t role grant now
  | .revokeSessions a t => Sso.revokeSessions env db a t now

/-- The user whose row, roles and grants the operation writes. -/
def target : AdminOp → String
  | .bootstrapAdmin u => u
  | .approveUser _ t _ => t
  | .suspendUser _ t _ => t
  | .changeRole _ t _ _ => t
  | .revokeSessions _ t => t

/-- The caller, whose authority is checked (nobody's, for the bootstrap). -/
def actor : AdminOp → Option String
  | .bootstrapAdmin _ => none
  | .approveUser a _ _ => some a
  | .suspendUser a _ _ => some a
  | .changeRole a _ _ _ => some a
  | .revokeSessions a _ => some a

/-- The status the operation leaves its target with. -/
def statusAfter (s : Status) : AdminOp → Status
  | .bootstrapAdmin _ => .active
  | .approveUser _ _ _ => .active
  | .suspendUser _ _ _ => .suspended
  | .changeRole _ _ _ _ => s
  | .revokeSessions _ _ => s

/-- Whether the target holds `role` afterwards, given whether it did before. -/
def hasRoleAfter (role : String) (before : Bool) : AdminOp → Bool
  | .bootstrapAdmin _ => before || role = "admin"
  | .approveUser _ _ _ => (before && role ≠ "pending") || role = "user"
  | .suspendUser _ _ _ => before
  | .changeRole _ _ r grant => if r = role then grant else before
  | .revokeSessions _ _ => before

/-- The row an operation leaves for its target. -/
def userAfter (o : AdminOp) (u : User) : User :=
  (u.withStatus (o.statusAfter u.status)).bumpVersion

/-- The status and role writes, before `_invalidate_authorization`. -/
def writes (db : Db) : AdminOp → Db
  | .bootstrapAdmin u => mergeRole (setStatus db u .active) u "admin"
  | .approveUser _ t _ => mergeRole (deleteRole (setStatus db t .active) t "pending") t "user"
  | .suspendUser _ t _ => setStatus db t .suspended
  | .changeRole _ t role grant => if grant then mergeRole db t role else deleteRole db t role
  | .revokeSessions _ _ => db

/-! ## What an operation that returns did -/

/-- The checks an operation with an actor makes in its transaction. -/
def checked (db : Db) (actorId targetId : String) (r : Except AdminError Db) :
    Except AdminError Db :=
  if !db.isCurrentAdmin actorId then .error .adminRequired
  else match db.user targetId with
    | none => .error .userNotFound
    | some _ => r

theorem checked_eq_ok {db db' : Db} {actorId targetId : String} {r : Except AdminError Db}
    (h : checked db actorId targetId r = .ok db') :
    db.isCurrentAdmin actorId = true ∧ (∃ u, db.user targetId = some u) ∧ r = .ok db' := by
  unfold checked at h
  split at h
  · cases h
  · next ha =>
      split at h
      · cases h
      · next u hu => exact ⟨by simpa using ha, ⟨u, hu⟩, h⟩

/-- Every operation that returns checked its actor, found its target, made its writes,
    invalidated the target's authorization and touched nothing else but the audit log. -/
theorem exec_eq_ok {o : AdminOp} {env : Env} {db db' : Db} {now : Time}
    (h : o.exec env db now = .ok db') :
    (∀ a, o.actor = some a → db.isCurrentAdmin a = true) ∧ (∃ u, db.user o.target = some u) ∧
      ∃ logs, db' =
        { invalidateAuthorization (o.writes db) o.target now with auditLogs := logs } := by
  have hactor : ∀ {a a' : String}, db.isCurrentAdmin a = true → some a = some a' →
      db.isCurrentAdmin a' = true := by
    intro a a' ha he
    rw [← Option.some.inj he]
    exact ha
  cases o with
  | bootstrapAdmin u =>
      simp only [exec, Sso.bootstrapAdmin] at h
      split at h
      · cases h
      · next user hu =>
          cases h
          exact ⟨by simp [actor], ⟨user, hu⟩, _, rfl⟩
  | approveUser a t fail =>
      obtain ⟨ha, hu, hr⟩ := checked_eq_ok h
      split at hr <;> cases hr
      exact ⟨fun _ => hactor ha, hu, _, rfl⟩
  | suspendUser a t reason =>
      simp only [exec, Sso.suspendUser] at h
      split at h
      · cases h
      · obtain ⟨ha, hu, hr⟩ := checked_eq_ok h
        cases hr
        exact ⟨fun _ => hactor ha, hu, _, rfl⟩
  | changeRole a t role grant =>
      simp only [exec, Sso.changeRole] at h
      split at h
      · cases h
      · obtain ⟨ha, hu, hr⟩ := checked_eq_ok h
        cases hr
        exact ⟨fun _ => hactor ha, hu, _, rfl⟩
  | revokeSessions a t =>
      simp only [exec, Sso.revokeSessions] at h
      split at h
      · cases h
      · obtain ⟨ha, hu, hr⟩ := checked_eq_ok h
        cases hr
        exact ⟨fun _ => hactor ha, hu, _, rfl⟩

theorem user_invalidate (db : Db) (userId v : String) (now : Time) :
    (invalidateAuthorization db userId now).user v =
      if v = userId then (db.user v).map User.bumpVersion else db.user v :=
  Db.user_setUser db userId v User.bumpVersion fun _ => rfl

@[simp] theorem user_mergeRole (db : Db) (userId role v : String) :
    (mergeRole db userId role).user v = db.user v := rfl

@[simp] theorem user_deleteRole (db : Db) (userId role v : String) :
    (deleteRole db userId role).user v = db.user v := rfl

theorem user_writes (o : AdminOp) (db : Db) (v : String) :
    (o.writes db).user v =
      if v = o.target then (db.user v).map fun u => u.withStatus (o.statusAfter u.status)
      else db.user v := by
  have hid : ((db.user v).map fun u => u.withStatus u.status) = db.user v := by
    cases db.user v <;> rfl
  cases o with
  | bootstrapAdmin u => exact user_setStatus db u v .active
  | approveUser a t fail => exact user_setStatus db t v .active
  | suspendUser a t reason => exact user_setStatus db t v .suspended
  | changeRole a t role grant => cases grant <;> simp [writes, statusAfter, hid]
  | revokeSessions a t => simp [writes, statusAfter, hid]

theorem hasRole_mergeRole (db : Db) (userId role v r : String) :
    (mergeRole db userId role).hasRole v r =
      (db.hasRole v r || decide (v = userId ∧ r = role)) := by
  simp only [Db.hasRole, mergeRole, Table.get_merge, key_userRole, Prod.mk.injEq]
  cases hg : db.userRoles.get (v, r) with
  | none =>
      by_cases h : userId = v ∧ role = r
      · simp [h.1.symm, h.2.symm]
      · have h' : ¬ (v = userId ∧ r = role) := fun he => h ⟨he.1.symm, he.2.symm⟩
        simp [h, h']
  | some row => simp

theorem hasRole_deleteRole (db : Db) (userId role v r : String) :
    (deleteRole db userId role).hasRole v r =
      (db.hasRole v r && !decide (v = userId ∧ r = role)) := by
  simp only [Db.hasRole, deleteRole, Table.get_delete]
  cases hg : db.userRoles.get (v, r) with
  | none => simp
  | some row =>
      have hk := Table.key_of_get hg
      simp only [key_userRole, Prod.mk.injEq] at hk
      by_cases h : v = userId ∧ r = role
      · simp [hk.1, hk.2, h.1, h.2]
      · by_cases hv : v = userId
        · have hr : r ≠ role := fun he => h ⟨hv, he⟩
          simp [hk.1, hk.2, hv, hr]
        · simp [hk.1, hv]

theorem hasRole_writes (o : AdminOp) (db : Db) (v r : String) :
    (o.writes db).hasRole v r =
      if v = o.target then o.hasRoleAfter r (db.hasRole v r) else db.hasRole v r := by
  have hset : ∀ (d : Db) (u : String) (s : Status) (v r : String),
      (setStatus d u s).hasRole v r = d.hasRole v r := fun _ _ _ _ _ => rfl
  cases o with
  | bootstrapAdmin u =>
      by_cases h : v = u <;>
        simp [writes, hasRole_mergeRole, hset, target, hasRoleAfter, h]
  | approveUser a t fail =>
      by_cases h : v = t <;>
        simp [writes, hasRole_mergeRole, hasRole_deleteRole, hset, target, hasRoleAfter, h]
  | suspendUser a t reason => simp [writes, hset, hasRoleAfter]
  | changeRole a t role grant =>
      by_cases hv : v = t <;> by_cases hr : role = r <;> cases grant <;>
        simp [writes, hasRole_mergeRole, hasRole_deleteRole, target, hasRoleAfter, hv, hr,
          eq_comm (a := r)]
  | revokeSessions a t => simp [writes, hasRoleAfter]

/-- What an operation that returns did to the tables. -/
structure Effect (o : AdminOp) (now : Time) (db db' : Db) : Prop where
  authority : ∀ a, o.actor = some a → db.isCurrentAdmin a = true
  found : ∃ u, db.user o.target = some u
  target : ∀ u, db.user o.target = some u → db'.user o.target = some (o.userAfter u)
  others : ∀ v, v ≠ o.target → db'.user v = db.user v
  roles : ∀ v r, db'.hasRole v r =
    if v = o.target then o.hasRoleAfter r (db.hasRole v r) else db.hasRole v r
  grants : db'.refreshGrants = (db.consumeGrants (liveGrantOf o.target) now).refreshGrants

theorem grants_writes (o : AdminOp) (db : Db) :
    (o.writes db).refreshGrants = db.refreshGrants := by
  cases o with
  | changeRole a t role grant => cases grant <;> rfl
  | _ => rfl

/-- The inversion of every operation at once. -/
theorem exec_effect {o : AdminOp} {env : Env} {db db' : Db} {now : Time}
    (h : o.exec env db now = .ok db') : o.Effect now db db' := by
  obtain ⟨hauth, hfound, logs, rfl⟩ := exec_eq_ok h
  have huser : ∀ v, Db.user { invalidateAuthorization (o.writes db) o.target now with
      auditLogs := logs } v = (invalidateAuthorization (o.writes db) o.target now).user v :=
    fun _ => rfl
  refine ⟨hauth, hfound, ?_, ?_, ?_, ?_⟩
  · intro u hu
    rw [huser, user_invalidate, user_writes, if_pos rfl, if_pos rfl, hu]
    rfl
  · intro v hv
    rw [huser, user_invalidate, user_writes, if_neg hv, if_neg hv]
  · intro v r
    exact hasRole_writes o db v r
  · have hg := grants_writes o db
    simp only [invalidateAuthorization, Db.consumeGrants, Db.setUser, hg]

/-- Versions only go up, by one for the target of an operation that returns. -/
theorem Effect.version {o : AdminOp} {now : Time} {db db' : Db} (h : o.Effect now db db')
    {v : String} {u : User} (hu : db.user v = some u) :
    ∃ u', db'.user v = some u' ∧
      u'.authzVersion = if v = o.target then u.authzVersion + 1 else u.authzVersion := by
  by_cases hv : v = o.target
  · subst hv
    exact ⟨_, h.target u hu, by simp [userAfter, User.bumpVersion, User.withStatus]⟩
  · exact ⟨u, by rw [h.others v hv, hu], by rw [if_neg hv]⟩

end AdminOp

end TemisLab.Sso
