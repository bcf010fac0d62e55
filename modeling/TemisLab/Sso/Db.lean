/-
  The authentication database (`persistence.py`, `external_idp/external_accounts.py`): one
  keyed table for each mapped class, and the readings the services make of them. Times are
  seconds; `User.email` is unique besides the primary key.

  Left out are the lengths of the columns, which `provisionUser` alone checks, and the columns `id`
  and `created_at` of `AuditLog`, which no modelled function reads: the rows of `auditLogs` stand in
  the order of the commits.
-/
import Mathlib.Data.Rat.Defs
import Mathlib.Algebra.Order.Ring.Rat
import TemisLab.Lib.Table
import TemisLab.Lib.PyText

namespace TemisLab.Sso

open TemisLab.Lib

/-- Seconds since the epoch. -/
abbrev Time := ℚ

/-- The values of `User.status`. -/
inductive Status where
  | pending | active | suspended
  deriving DecidableEq, Repr

/-- The values of `OneTimeToken.purpose`. -/
inductive Purpose where
  | verify | reset
  deriving DecidableEq, Repr

structure User where
  id : String
  email : String
  passwordHash : Option String
  status : Status := .pending
  authzVersion : ℤ := 1
  failedLogins : ℤ := 0
  lockedUntil : Option Time := none
  deriving DecidableEq, Repr

structure UserRole where
  userId : String
  role : String
  deriving DecidableEq, Repr

structure RefreshGrant where
  digest : String
  userId : String
  audience : String
  expiresAt : Time
  consumedAt : Option Time := none
  deriving DecidableEq, Repr

structure OneTimeToken where
  digest : String
  userId : String
  purpose : Purpose
  expiresAt : Time
  consumedAt : Option Time := none
  deriving DecidableEq, Repr

structure AuditLog where
  actorId : String
  targetId : String
  action : String
  details : List (String × String)
  deriving DecidableEq, Repr

structure ExternalIdentityLink where
  provider : String
  subject : String
  userId : String
  deriving DecidableEq, Repr

instance : Keyed User String := ⟨User.id⟩
instance : Keyed UserRole (String × String) := ⟨fun r => (r.userId, r.role)⟩
instance : Keyed RefreshGrant String := ⟨RefreshGrant.digest⟩
instance : Keyed OneTimeToken String := ⟨OneTimeToken.digest⟩
instance : Keyed ExternalIdentityLink (String × String) := ⟨fun l => (l.provider, l.subject)⟩

@[simp] theorem key_user (u : User) : Keyed.key u = u.id := rfl
@[simp] theorem key_userRole (r : UserRole) : Keyed.key r = (r.userId, r.role) := rfl
@[simp] theorem key_refreshGrant (g : RefreshGrant) : Keyed.key g = g.digest := rfl
@[simp] theorem key_oneTimeToken (t : OneTimeToken) : Keyed.key t = t.digest := rfl
@[simp] theorem key_link (l : ExternalIdentityLink) : Keyed.key l = (l.provider, l.subject) := rfl

/-- The committed tables. -/
structure Db where
  users : Table User
  userRoles : Table UserRole
  refreshGrants : Table RefreshGrant
  oneTimeTokens : Table OneTimeToken
  auditLogs : List AuditLog
  links : Table ExternalIdentityLink
  deriving DecidableEq

/-- What the services take from outside: SHA-256 (as a hex digest), Python's `str.lower` and
    the argon2 check. -/
structure Env where
  sha256 : String → String
  lower : String → String
  verifyPassword : String → String → Bool

/-- The outside with readable digests: every text is its own. -/
def plainEnv : Env := ⟨id, id, fun hash password => hash = password⟩

def User.withStatus (status : Status) (u : User) : User := { u with status }

namespace Db

def empty : Db := ⟨.empty, .empty, .empty, .empty, [], .empty⟩

/-- `session.get(User, user_id)`. -/
def user (db : Db) (userId : String) : Option User := db.users.get userId

/-- `select(UserRole.role).where(UserRole.user_id == user_id)`. -/
def roles (db : Db) (userId : String) : List String :=
  (db.userRoles.select fun r => r.userId = userId).map UserRole.role

/-- `session.get(UserRole, {"user_id": …, "role": …}) is not None`. -/
def hasRole (db : Db) (userId role : String) : Bool :=
  (db.userRoles.get (userId, role)).isSome

/-- Assignments to the loaded row of one user, written back at the flush. -/
def setUser (db : Db) (userId : String) (f : User → User) (hf : ∀ u, (f u).id = u.id) : Db :=
  { db with users := db.users.modify (fun u => u.id = userId) f hf }

/-- The user row is there and its status is `active`. -/
def isActive (db : Db) (userId : String) : Bool :=
  (db.user userId).any fun u => u.status = .active

theorem user_setUser (db : Db) (userId uid : String) (f : User → User)
    (hf : ∀ u, (f u).id = u.id) :
    (db.setUser userId f hf).user uid =
      if uid = userId then (db.user uid).map f else db.user uid := by
  simp only [user, setUser, Table.get_modify]
  cases hg : db.users.get uid with
  | none => simp
  | some u =>
      have hk := Table.key_of_get hg
      simp only [key_user] at hk
      subst hk
      by_cases h : u.id = userId <;> simp [h]

theorem mem_roles {db : Db} {userId role : String} :
    role ∈ db.roles userId ↔ db.hasRole userId role = true := by
  unfold roles hasRole
  rw [List.mem_map, Option.isSome_iff_exists]
  constructor
  · rintro ⟨r, hr, rfl⟩
    obtain ⟨hmem, hu⟩ := Table.mem_select.mp hr
    simp only [decide_eq_true_eq] at hu
    subst hu
    exact ⟨r, Table.get_of_mem hmem⟩
  · rintro ⟨r, hr⟩
    obtain ⟨hmem, hk⟩ := Table.mem_of_get hr
    simp only [key_userRole, Prod.mk.injEq] at hk
    exact ⟨r, Table.mem_select.mpr ⟨hmem, by simp [hk.1]⟩, hk.2⟩

theorem isActive_iff {db : Db} {userId : String} :
    db.isActive userId = true ↔ ∃ u, db.user userId = some u ∧ u.status = .active := by
  simp [isActive, Option.any_eq_true]

end Db

/-- `user.status = status` on the row of one user. -/
def setStatus (db : Db) (userId : String) (status : Status) : Db :=
  db.setUser userId (User.withStatus status) fun _ => rfl

theorem user_setStatus (db : Db) (userId v : String) (s : Status) :
    (setStatus db userId s).user v =
      if v = userId then (db.user v).map (User.withStatus s) else db.user v :=
  Db.user_setUser db userId v (User.withStatus s) fun _ => rfl

end TemisLab.Sso
