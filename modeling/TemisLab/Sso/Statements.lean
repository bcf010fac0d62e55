/-
  The admin operations and `issue_bundle` statement by statement (`application/admin.py`,
  `api/auth.py`), run by `Lib.Isolation` under READ COMMITTED.

  A session keeps the rows it has loaded, whether or not the program still refers to them (an
  identity map that holds its instances): `session.get` of a loaded user sends no statement, and
  with `FOR UPDATE` takes the row lock only. Assigned columns are written by the flush
  before the next statement, with the values the instance has (`authz_version += 1` writes the
  loaded version plus one), and only if they differ from the loaded ones; the `UPDATE` takes
  the row lock. No program reads back a row it has written, so reads are of the committed
  tables.

  `Shape` is what a transaction keeps whatever the others do: the statements left and the
  writes made are those of its program.
-/
import TemisLab.Lib.Isolation
import TemisLab.Sso.Admin
import TemisLab.Sso.ExternalUsers

namespace TemisLab.Sso

open TemisLab.Lib

/-- A statement of a session, or the check of a value it has loaded. -/
inductive Stmt where
  | getUser (userId : String)
  | getRole (userId role : String)
  | assertAdmin (actorId : String)
  | requireUser (userId : String)
  | lockUser (userId : String)
  | setStatus (userId : String) (status : Status)
  | flush (userId : String)
  | deleteRole (userId role : String)
  | mergeRole (userId role : String)
  | flushVersion (userId : String)
  | insertRoles
  | consumeGrants (userId : String)
  | audit (actorId targetId action : String) (details : List (String × String))
  | raise
  | readRoles (userId : String)
  | insertGrant (raw userId aud : String)
  | sign (userId aud refresh : String) (activeKid : Option String)
  deriving DecidableEq, Repr

/-- `_assert_admin`. -/
@[simp] def assertAdminStmts (actorId : String) : List Stmt :=
  [.getUser actorId, .getRole actorId "admin", .assertAdmin actorId]

/-- `_invalidate_authorization`: the `UPDATE` of the grants flushes the version and the added
    role rows first. -/
@[simp] def invalidateStmts (userId : String) : List Stmt :=
  [.flushVersion userId, .insertRoles, .consumeGrants userId]

namespace AdminOp

/-- The statements of an operation, up to the commit. -/
def program : AdminOp → List Stmt
  | .bootstrapAdmin u =>
      [.getUser u, .requireUser u, .setStatus u .active, .flush u, .mergeRole u "admin"] ++
        invalidateStmts u
  | .approveUser a t failForTest =>
      assertAdminStmts a ++
        [.lockUser t, .setStatus t .active, .flush t, .deleteRole t "pending",
          .mergeRole t "user"] ++
        invalidateStmts t ++ [.audit a t "user.approved" []] ++
        if failForTest then [.raise] else []
  | .suspendUser a t reason =>
      assertAdminStmts a ++ [.lockUser t, .setStatus t .suspended] ++ invalidateStmts t ++
        [.audit a t "user.suspended" [("reason", reason)]]
  | .changeRole a t role grant =>
      assertAdminStmts a ++
        [.lockUser t, if grant then .mergeRole t role else .deleteRole t role] ++
        invalidateStmts t ++
        [.audit a t (if grant then "role.granted" else "role.revoked") [("role", role)]]
  | .revokeSessions a t =>
      assertAdminStmts a ++ [.lockUser t] ++ invalidateStmts t ++
        [.audit a t "sessions.revoked" []]

/-- The operation raises `SelfActionError` before it opens a session. -/
def isSelfAction : AdminOp → Bool
  | .suspendUser a t _ => a = t
  | .changeRole a t role grant => a = t && role = "admin" && !grant
  | .revokeSessions a t => a = t
  | _ => false

/-- The target's row is loaded by a plain `SELECT` before its row lock is taken. -/
def loadsEarly (o : AdminOp) : Bool := o.actor = none || o.actor = some o.target

end AdminOp

/-- A call that opens a session. -/
inductive Call where
  | admin (op : AdminOp)
  | bundle (userId aud : String) (refreshToken : Option String) (fresh : String)
      (activeKid : Option String)
  deriving DecidableEq, Repr

/-- `issue_bundle`. The check that the user is active stands with the `SELECT` of the roles; a
    given refresh token that is not empty is kept. -/
def bundleProgram (userId aud : String) (refreshToken : Option String) (fresh : String)
    (activeKid : Option String) : List Stmt :=
  let refresh := orDefault refreshToken fresh
  [.getUser userId, .readRoles userId] ++
    (if refreshToken.any (· ≠ "") then [] else [.insertGrant fresh userId aud]) ++
    [.sign userId aud refresh activeKid]

def Call.program : Call → List Stmt
  | .admin op => op.program
  | .bundle u aud refreshToken fresh kid => bundleProgram u aud refreshToken fresh kid

/-! ## Sessions -/

/-- A loaded user: the columns as last read or written, and as assigned since. -/
structure Loaded where
  saved : User
  current : User
  deriving DecidableEq, Repr

/-- A write the session has sent; it becomes visible at the commit. -/
inductive Write where
  | status (userId : String) (status : Status)
  | version (userId : String) (authzVersion : ℤ)
  | insertRole (userId role : String)
  | deleteRole (userId role : String)
  | consumeGrants (digests : List String) (now : Time)
  | insertGrant (raw userId aud : String) (now : Time)
  | audit (actorId targetId action : String) (details : List (String × String))
  deriving DecidableEq, Repr

/-- A session with the statements it has still to run. `roles` are the role rows it has loaded,
    `added` those it will insert, `roleNames` the list `issue_bundle` has read. -/
structure Txn where
  call : Call
  rest : List Stmt
  users : String → Option Loaded := fun _ => none
  roles : List (String × String) := []
  added : List (String × String) := []
  writes : List Write := []
  roleNames : Option (List String) := none
  bundle : Option TokenBundle := none

def User.withVersion (authzVersion : ℤ) (u : User) : User := { u with authzVersion }

@[simp] theorem User.withVersion_id (n : ℤ) (u : User) : (u.withVersion n).id = u.id := rfl

/-- A write on the committed tables; `none` is an `IntegrityError`. -/
def Write.apply (env : Env) (db : Db) : Write → Option Db
  | .status v s => some (setStatus db v s)
  | .version v n => some (db.setUser v (User.withVersion n) (User.withVersion_id n))
  | .insertRole v r => Sso.insertRole db v r
  | .deleteRole v r => some (Sso.deleteRole db v r)
  | .consumeGrants digests now => some (db.consumeGrants (fun g => g.digest ∈ digests) now)
  | .insertGrant raw v aud now => issueRefresh env db v aud raw now
  | .audit a t action details => some (Sso.audit env db a t action details)

def applyAll (env : Env) (db : Db) : List Write → Option Db
  | [] => some db
  | w :: ws => (w.apply env db).bind fun db' => applyAll env db' ws

/-- The columns an `UPDATE users` sets. -/
def Loaded.changes (l : Loaded) (userId : String) : List Write :=
  (if l.current.status = l.saved.status then [] else [.status userId l.current.status]) ++
    if l.current.authzVersion = l.saved.authzVersion then []
    else [.version userId l.current.authzVersion]

namespace Txn

/-- A row read into the session; one already loaded stays as it is. That rests on the identity map
    keeping its instances: SQLAlchemy's is weak, and reads a row again whose instance is gone. -/
def load (t : Txn) (userId : String) (row : Option User) : Txn :=
  match t.users userId, row with
  | none, some u => { t with users := Function.update t.users userId (some ⟨u, u⟩) }
  | _, _ => t

/-- Assignments to a loaded user. -/
def assign (t : Txn) (userId : String) (l : Loaded) : Txn :=
  { t with users := Function.update t.users userId (some l) }

/-- The flush of a loaded user. -/
def write (t : Txn) (userId : String) (l : Loaded) : Txn :=
  { t with
    users := Function.update t.users userId (some ⟨l.current, l.current⟩)
    writes := t.writes ++ l.changes userId }

/-- The digests `UPDATE refresh_grants` finds. -/
def liveDigests (db : Db) (userId : String) : List String :=
  (db.refreshGrants.select (liveGrantOf userId)).map RefreshGrant.digest

/-- One statement, on the committed tables. -/
def exec (now : Time) (db : Db) (t : Txn) : Stmt → Move Db Txn String TokenBundle
  | .getUser v => .next (t.load v (db.user v))
  | .getRole v r => .next (if db.hasRole v r then { t with roles := (v, r) :: t.roles } else t)
  | .assertAdmin a =>
      match t.users a with
      | none => .fail
      | some l =>
          if l.current.status = .active ∧ (a, "admin") ∈ t.roles then .next t else .fail
  | .requireUser v =>
      match t.users v with
      | none => .fail
      | some _ => .next t
  | .lockUser v =>
      match db.user v with
      | none => .fail
      | some u => .lock v (t.load v (some u))
  | .setStatus v s =>
      match t.users v with
      | none => .fail
      | some l => .next (t.assign v { l with current := l.current.withStatus s })
  | .flush v =>
      match t.users v with
      | none => .fail
      | some l => if l.current = l.saved then .next t else .lock v (t.write v l)
  | .deleteRole v r =>
      .next (if db.hasRole v r then { t with writes := t.writes ++ [.deleteRole v r] } else t)
  | .mergeRole v r =>
      if (v, r) ∈ t.roles ∨ db.hasRole v r = true then
        .next { t with roles := (v, r) :: t.roles }
      else .next { t with added := t.added ++ [(v, r)] }
  | .flushVersion v =>
      match t.users v with
      | none => .fail
      | some l => .lock v (t.write v { l with current := l.current.bumpVersion })
  | .insertRoles =>
      if t.added.any fun (v, r) => db.hasRole v r then .fail
      else
        .next { t with
          roles := t.added ++ t.roles
          added := []
          writes := t.writes ++ t.added.map fun (v, r) => .insertRole v r }
  | .consumeGrants v =>
      .next { t with writes := t.writes ++ [.consumeGrants (liveDigests db v) now] }
  | .audit a v action details =>
      .next { t with writes := t.writes ++ [.audit a v action details] }
  | .raise => .fail
  | .readRoles v =>
      match t.users v with
      | none => .fail
      | some l =>
          if l.current.status = .active then .next { t with roleNames := some (db.roles v) }
          else .fail
  | .insertGrant raw v aud =>
      .next { t with writes := t.writes ++ [.insertGrant raw v aud now] }
  | .sign v aud refresh activeKid =>
      match t.users v, t.roleNames with
      | some l, some names =>
          match issueAccess activeKid
              (bundleClaims v l.current.authzVersion names aud now) with
          | none => .fail
          | some access => .next { t with bundle := some ⟨v, access, refresh⟩ }
      | _, _ => .fail

/-- The next statement; after the last one, the commit. -/
def move (env : Env) (now : Time) (db : Db) (t : Txn) : Move Db Txn String TokenBundle :=
  match t.rest with
  | [] =>
      match applyAll env db t.writes with
      | none => .fail
      | some db' => .commit db' t.bundle
  | st :: rest => exec now db { t with rest } st

end Txn

/-- A call opens its session unless it is a self action. -/
def Call.begin (c : Call) : Option Txn :=
  match c with
  | .admin op => if op.isSelfAction then none else some { call := c, rest := c.program }
  | .bundle .. => some { call := c, rest := c.program }

/-- The calls under READ COMMITTED. The clock is read by each statement. -/
def engine (env : Env) : Engine Call Txn Db String TokenBundle Time where
  begin := Call.begin
  move := Txn.move env

/-- The next `n` statements of a transaction. -/
def stmts (tid n : ℕ) : List (Event Call Time) := List.replicate n (.stmt tid 2)

/-! ## What a statement can do -/

/-- Writes to the grants and the audit log. -/
def Write.isNeutral : Write → Bool
  | .consumeGrants _ _ => true
  | .insertGrant _ _ _ _ => true
  | .audit _ _ _ _ => true
  | _ => false

/-- The ways a statement goes on, with the row lock it takes. -/
inductive Txn.Ran (now : Time) (db : Db) (t : Txn) : Stmt → Option String → Txn → Prop where
  | check {st : Stmt} (hst : ∀ v, st ≠ .flushVersion v) (roles : List (String × String)) :
      Ran now db t st none { t with roles }
  | get (v : String) : Ran now db t (.getUser v) none (t.load v (db.user v))
  | lock (v : String) (u : User) (hu : db.user v = some u) :
      Ran now db t (.lockUser v) (some v) (t.load v (some u))
  | assign (v : String) (s : Status) (l : Loaded) (hl : t.users v = some l) :
      Ran now db t (.setStatus v s) none
        (t.assign v { l with current := l.current.withStatus s })
  | flush (v : String) (l : Loaded) (hl : t.users v = some l) :
      Ran now db t (.flush v) (some v) (t.write v l)
  | flushVersion (v : String) (l : Loaded) (hl : t.users v = some l) :
      Ran now db t (.flushVersion v) (some v)
        (t.write v { l with current := l.current.bumpVersion })
  | merge (v r : String) :
      Ran now db t (.mergeRole v r) none { t with added := t.added ++ [(v, r)] }
  | insert :
      Ran now db t .insertRoles none
        { t with
          roles := t.added ++ t.roles
          added := []
          writes := t.writes ++ t.added.map fun (v, r) => .insertRole v r }
  | send {st : Stmt} (hst : ∀ v, st ≠ .flushVersion v) (ws : List Write)
      (hws : ∀ w ∈ ws, (∃ v r, st = .deleteRole v r ∧ w = .deleteRole v r) ∨
        w.isNeutral = true) :
      Ran now db t st none { t with writes := t.writes ++ ws }
  | names (v : String) (l : Loaded) (hl : t.users v = some l) :
      Ran now db t (.readRoles v) none { t with roleNames := some (db.roles v) }
  | sign (v aud refresh : String) (activeKid : Option String) (l : Loaded) (names : List String)
      (access : AccessToken) (hl : t.users v = some l) (hn : t.roleNames = some names)
      (ha : issueAccess activeKid (bundleClaims v l.current.authzVersion names aud now) =
        some access) :
      Ran now db t (.sign v aud refresh activeKid) none
        { t with bundle := some ⟨v, access, refresh⟩ }

/-- The inversion of `Txn.exec`. -/
theorem exec_cases {now : Time} {db : Db} {t t' : Txn} {st : Stmt} {k : Option String}
    (h : (t.exec now db st).goesOn = some (k, t')) : t.Ran now db st k t' := by
  cases st with
  | getUser v =>
      cases h
      exact .get v
  | getRole v r =>
      cases h
      split
      · exact .check (by simp) _
      · exact .check (by simp) t.roles
  | assertAdmin a =>
      simp only [Txn.exec] at h
      split at h
      · cases h
      · split at h <;> cases h
        exact .check (by simp) t.roles
  | requireUser v =>
      simp only [Txn.exec] at h
      split at h <;> cases h
      exact .check (by simp) t.roles
  | lockUser v =>
      simp only [Txn.exec] at h
      split at h
      · cases h
      · next u hu =>
          cases h
          exact .lock v u hu
  | setStatus v s =>
      simp only [Txn.exec] at h
      split at h
      · cases h
      · next l hl =>
          cases h
          exact .assign v s l hl
  | flush v =>
      simp only [Txn.exec] at h
      split at h
      · cases h
      · next l hl =>
          split at h <;> cases h
          · exact .check (by simp) t.roles
          · exact .flush v l hl
  | deleteRole v r =>
      cases h
      split
      · refine .send (by simp) _ ?_
        intro w hw
        exact Or.inl ⟨v, r, rfl, List.mem_singleton.mp hw⟩
      · exact .check (by simp) t.roles
  | mergeRole v r =>
      simp only [Txn.exec] at h
      split at h <;> cases h
      · exact .check (by simp) _
      · exact .merge v r
  | flushVersion v =>
      simp only [Txn.exec] at h
      split at h
      · cases h
      · next l hl =>
          cases h
          exact .flushVersion v l hl
  | insertRoles =>
      simp only [Txn.exec] at h
      split at h <;> cases h
      exact .insert
  | consumeGrants v =>
      cases h
      exact .send (by simp) _ (by simp [Write.isNeutral])
  | audit a v action details =>
      cases h
      exact .send (by simp) _ (by simp [Write.isNeutral])
  | raise => cases h
  | readRoles v =>
      simp only [Txn.exec] at h
      split at h
      · cases h
      · next l hl =>
          split at h <;> cases h
          exact .names v l hl
  | insertGrant raw v aud =>
      cases h
      exact .send (by simp) _ (by simp [Write.isNeutral])
  | sign v aud refresh activeKid =>
      simp only [Txn.exec] at h
      split at h
      · next l names hl hn =>
          split at h
          · cases h
          · next access ha =>
              cases h
              exact .sign v aud refresh activeKid l names access hl hn ha
      · cases h

/-- The inversion of a move that goes on. -/
theorem move_cases {env : Env} {now : Time} {db : Db} {t t' : Txn} {k : Option String}
    (h : (t.move env now db).goesOn = some (k, t')) :
    ∃ st rest, t.rest = st :: rest ∧ Txn.Ran now db { t with rest } st k t' := by
  unfold Txn.move at h
  split at h
  · split at h <;> cases h
  · next st rest hrest => exact ⟨st, rest, hrest, exec_cases h⟩

/-- A commit comes after the last statement. -/
theorem exec_ne_commit {now : Time} {db db' : Db} {t : Txn} {st : Stmt}
    {out : Option TokenBundle} : t.exec now db st ≠ .commit db' out := by
  intro h
  cases st <;> simp only [Txn.exec] at h <;> (repeat' split at h) <;> cases h

theorem exec_eq_fail {now : Time} {db : Db} {t : Txn} {st : Stmt}
    (h : (t.exec now db st).goesOn = none) : t.exec now db st = .fail := by
  cases hm : t.exec now db st with
  | fail => rfl
  | commit db' out => exact absurd hm exec_ne_commit
  | next t' =>
      rw [hm] at h
      cases h
  | lock k t' =>
      rw [hm] at h
      cases h

/-- The inversion of a commit. -/
theorem move_commit {env : Env} {now : Time} {db db' : Db} {t : Txn} {out : Option TokenBundle}
    (h : t.move env now db = .commit db' out) :
    t.rest = [] ∧ applyAll env db t.writes = some db' ∧ out = t.bundle := by
  unfold Txn.move at h
  split at h
  · next hrest =>
      split at h
      · cases h
      · next db₁ ha =>
          cases h
          exact ⟨hrest, ha, rfl⟩
  · exact absurd h exec_ne_commit

/-! ## What a program can write -/

/-- The statements an operation may consist of: the actor is only read, everything else is about
    the target. -/
inductive AdminOp.Has (o : AdminOp) : Stmt → Prop where
  | loadActor (a : String) (ha : o.actor = some a) : Has o (.getUser a)
  | loadActorRole (a : String) (ha : o.actor = some a) : Has o (.getRole a "admin")
  | assertAdmin (a : String) (ha : o.actor = some a) : Has o (.assertAdmin a)
  | loadTarget (ha : o.actor = none) : Has o (.getUser o.target)
  | requireUser : Has o (.requireUser o.target)
  | lockUser : Has o (.lockUser o.target)
  | setStatus (s : Status) (hs : ∀ s', o.statusAfter s' = s) : Has o (.setStatus o.target s)
  | flush : Has o (.flush o.target)
  | deleteRole (r : String) (hr : o.hasRoleAfter r true = false) : Has o (.deleteRole o.target r)
  | mergeRole (r : String) (hr : o.hasRoleAfter r false = true) : Has o (.mergeRole o.target r)
  | flushVersion : Has o (.flushVersion o.target)
  | insertRoles : Has o .insertRoles
  | consumeGrants : Has o (.consumeGrants o.target)
  | audit (a action : String) (details : List (String × String)) :
      Has o (.audit a o.target action details)
  | raise : Has o .raise

theorem AdminOp.has_of_mem {o : AdminOp} {st : Stmt} (h : st ∈ o.program) : o.Has st := by
  have hassert : ∀ a, o.actor = some a → st ∈ assertAdminStmts a → o.Has st := by
    intro a ha hst
    simp only [assertAdminStmts, List.mem_cons, List.not_mem_nil, or_false] at hst
    rcases hst with rfl | rfl | rfl
    · exact .loadActor a ha
    · exact .loadActorRole a ha
    · exact .assertAdmin a ha
  have hinvalidate : st ∈ invalidateStmts o.target → o.Has st := by
    intro hst
    simp only [invalidateStmts, List.mem_cons, List.not_mem_nil, or_false] at hst
    rcases hst with rfl | rfl | rfl
    · exact .flushVersion
    · exact .insertRoles
    · exact .consumeGrants
  cases o with
  | bootstrapAdmin u =>
      simp only [program, List.mem_append, List.mem_cons, List.not_mem_nil, or_false] at h
      rcases h with (rfl | rfl | rfl | rfl | rfl) | h
      · exact .loadTarget rfl
      · exact .requireUser
      · exact .setStatus _ fun _ => rfl
      · exact .flush
      · exact .mergeRole _ (by simp [hasRoleAfter])
      · exact hinvalidate h
  | approveUser a t failForTest =>
      simp only [program, List.mem_append, List.mem_cons, List.not_mem_nil, or_false] at h
      rcases h with (((h | rfl | rfl | rfl | rfl | rfl) | h) | rfl) | h
      · exact hassert a rfl h
      · exact .lockUser
      · exact .setStatus _ fun _ => rfl
      · exact .flush
      · exact .deleteRole _ (by simp [hasRoleAfter])
      · exact .mergeRole _ (by simp [hasRoleAfter])
      · exact hinvalidate h
      · exact .audit ..
      · split at h
        · rw [List.mem_singleton.mp h]
          exact .raise
        · cases h
  | suspendUser a t reason =>
      simp only [program, List.mem_append, List.mem_cons, List.not_mem_nil, or_false] at h
      rcases h with ((h | rfl | rfl) | h) | rfl
      · exact hassert a rfl h
      · exact .lockUser
      · exact .setStatus _ fun _ => rfl
      · exact hinvalidate h
      · exact .audit ..
  | changeRole a t role grant =>
      simp only [program, List.mem_append, List.mem_cons, List.not_mem_nil, or_false] at h
      rcases h with ((h | rfl | rfl) | h) | rfl
      · exact hassert a rfl h
      · exact .lockUser
      · cases grant with
        | true => exact .mergeRole role (if_pos rfl)
        | false => exact .deleteRole role (if_pos rfl)
      · exact hinvalidate h
      · exact .audit ..
  | revokeSessions a t =>
      simp only [program, List.mem_append, List.mem_cons, List.not_mem_nil, or_false] at h
      rcases h with ((h | rfl) | h) | rfl
      · exact hassert a rfl h
      · exact .lockUser
      · exact hinvalidate h
      · exact .audit ..

/-- A bundle's statements write no user, role or version. -/
theorem mem_bundleProgram {u aud fresh : String} {refreshToken activeKid : Option String}
    {st : Stmt} (h : st ∈ bundleProgram u aud refreshToken fresh activeKid) :
    st = .getUser u ∨ st = .readRoles u ∨ st = .insertGrant fresh u aud ∨
      st = .sign u aud (orDefault refreshToken fresh) activeKid := by
  simp only [bundleProgram, List.mem_append, List.mem_cons, List.not_mem_nil, or_false] at h
  rcases h with ((rfl | rfl) | h) | rfl
  · exact Or.inl rfl
  · exact Or.inr (Or.inl rfl)
  · split at h
    · cases h
    · exact Or.inr (Or.inr (Or.inl (List.mem_singleton.mp h)))
  · exact Or.inr (Or.inr (Or.inr rfl))

/-- The statement of the program a write comes from. -/
def Call.Makes (c : Call) : Write → Prop
  | .status v s => .setStatus v s ∈ c.program
  | .version v _ => .flushVersion v ∈ c.program
  | .insertRole v r => .mergeRole v r ∈ c.program
  | .deleteRole v r => .deleteRole v r ∈ c.program
  | _ => True

theorem makes_of_neutral {c : Call} {w : Write} (h : w.isNeutral = true) : c.Makes w := by
  cases w with
  | status v s => cases h
  | version v n => cases h
  | insertRole v r => cases h
  | deleteRole v r => cases h
  | _ => trivial

/-- The statements left and the writes made are those of the program. -/
structure Txn.Shape (t : Txn) : Prop where
  rest : ∀ st ∈ t.rest, st ∈ t.call.program
  users : ∀ v l, t.users v = some l → l.current.authzVersion = l.saved.authzVersion ∧
    (l.current.status = l.saved.status ∨ .setStatus v l.current.status ∈ t.call.program)
  added : ∀ v r, (v, r) ∈ t.added → .mergeRole v r ∈ t.call.program
  writes : ∀ w ∈ t.writes, t.call.Makes w

theorem shape_begin {c : Call} {t : Txn} (h : c.begin = some t) : t.Shape ∧ t.call = c := by
  have ht : t = { call := c, rest := c.program } := by
    unfold Call.begin at h
    split at h
    · split at h
      · cases h
      · exact (Option.some.inj h).symm
    · exact (Option.some.inj h).symm
  rw [ht]
  exact ⟨⟨fun st hst => hst, by simp, by simp, by simp⟩, rfl⟩

/-- Changing the loaded copy of one user. -/
theorem users_update {t : Txn} {v w : String} {l l' : Loaded}
    (h : Function.update t.users v (some l) w = some l') :
    (w = v ∧ l' = l) ∨ t.users w = some l' := by
  by_cases hw : w = v
  · subst hw
    rw [Function.update_self] at h
    exact Or.inl ⟨rfl, (Option.some.inj h).symm⟩
  · rw [Function.update_of_ne hw] at h
    exact Or.inr h

theorem users_load {t : Txn} {v w : String} {row : Option User} {l : Loaded}
    (h : (t.load v row).users w = some l) :
    t.users w = some l ∨ (w = v ∧ t.users v = none ∧ ∃ u, row = some u ∧ l = ⟨u, u⟩) := by
  unfold Txn.load at h
  split at h
  · next u hn =>
      rcases users_update h with ⟨rfl, rfl⟩ | h
      · exact Or.inr ⟨rfl, hn, u, rfl, rfl⟩
      · exact Or.inl h
  · exact Or.inl h

theorem load_fields (t : Txn) (v : String) (row : Option User) :
    (t.load v row).call = t.call ∧ (t.load v row).rest = t.rest ∧
      (t.load v row).added = t.added ∧ (t.load v row).writes = t.writes ∧
      (t.load v row).roleNames = t.roleNames ∧ (t.load v row).bundle = t.bundle := by
  unfold Txn.load
  split <;> exact ⟨rfl, rfl, rfl, rfl, rfl, rfl⟩

theorem Txn.Shape.load {t : Txn} (h : t.Shape) (v : String) (row : Option User) :
    (t.load v row).Shape := by
  obtain ⟨hcall, hrest, hadded, hwrites, -, -⟩ := load_fields t v row
  refine ⟨?_, ?_, ?_, ?_⟩
  · rw [hcall, hrest]
    exact h.rest
  · intro w l hl
    rw [hcall]
    rcases users_load hl with hl | ⟨-, -, u, -, rfl⟩
    · exact h.users w l hl
    · exact ⟨rfl, Or.inl rfl⟩
  · rw [hcall, hadded]
    exact h.added
  · rw [hcall, hwrites]
    exact h.writes

theorem mem_changes {l : Loaded} {v : String} {w : Write} (h : w ∈ l.changes v) :
    (w = .status v l.current.status ∧ l.current.status ≠ l.saved.status) ∨
      (w = .version v l.current.authzVersion ∧
        l.current.authzVersion ≠ l.saved.authzVersion) := by
  unfold Loaded.changes at h
  rcases List.mem_append.mp h with h | h
  · split at h
    · cases h
    · next hne => exact Or.inl ⟨List.mem_singleton.mp h, hne⟩
  · split at h
    · cases h
    · next hne => exact Or.inr ⟨List.mem_singleton.mp h, hne⟩

/-- A flush writes what the program assigned. -/
theorem Txn.Shape.write {t : Txn} (h : t.Shape) {v : String} {l : Loaded}
    (hs : l.current.status = l.saved.status ∨ .setStatus v l.current.status ∈ t.call.program)
    (hv : l.current.authzVersion = l.saved.authzVersion ∨ .flushVersion v ∈ t.call.program) :
    (t.write v l).Shape := by
  refine ⟨h.rest, ?_, h.added, ?_⟩
  · intro w l' hl'
    rcases users_update hl' with ⟨rfl, rfl⟩ | hl'
    · exact ⟨rfl, Or.inl rfl⟩
    · exact h.users w l' hl'
  · intro w hw
    rcases List.mem_append.mp hw with hw | hw
    · exact h.writes w hw
    · rcases mem_changes hw with ⟨rfl, hne⟩ | ⟨rfl, hne⟩
      · exact hs.resolve_left hne
      · exact hv.resolve_left hne

/-- Every statement keeps the shape. -/
theorem shape_ran {now : Time} {db : Db} {t t' : Txn} {st : Stmt} {k : Option String}
    (h : t.Shape) (hst : st ∈ t.call.program) (hr : t.Ran now db st k t') :
    t'.Shape ∧ t'.call = t.call := by
  cases hr with
  | check hne roles => exact ⟨⟨h.rest, h.users, h.added, h.writes⟩, rfl⟩
  | get v => exact ⟨h.load v _, (load_fields t v _).1⟩
  | lock v u hu => exact ⟨h.load v _, (load_fields t v _).1⟩
  | assign v s l hl =>
      refine ⟨⟨h.rest, ?_, h.added, h.writes⟩, rfl⟩
      intro w l' hl'
      rcases users_update hl' with ⟨rfl, rfl⟩ | hl'
      · exact ⟨(h.users w l hl).1, Or.inr hst⟩
      · exact h.users w l' hl'
  | flush v l hl => exact ⟨h.write (h.users v l hl).2 (Or.inl (h.users v l hl).1), rfl⟩
  | flushVersion v l hl => exact ⟨h.write (h.users v l hl).2 (Or.inr hst), rfl⟩
  | merge v r =>
      refine ⟨⟨h.rest, h.users, ?_, h.writes⟩, rfl⟩
      intro w r' hw
      rcases List.mem_append.mp hw with hw | hw
      · exact h.added w r' hw
      · obtain ⟨rfl, rfl⟩ := Prod.mk.inj (List.mem_singleton.mp hw)
        exact hst
  | insert =>
      refine ⟨⟨h.rest, h.users, by simp, ?_⟩, rfl⟩
      intro w hw
      rcases List.mem_append.mp hw with hw | hw
      · exact h.writes w hw
      · obtain ⟨p, hp, rfl⟩ := List.mem_map.mp hw
        exact h.added p.1 p.2 hp
  | send hne ws hws =>
      refine ⟨⟨h.rest, h.users, h.added, ?_⟩, rfl⟩
      intro w hw
      rcases List.mem_append.mp hw with hw | hw
      · exact h.writes w hw
      · rcases hws w hw with ⟨v, r, rfl, rfl⟩ | hn
        · exact hst
        · exact makes_of_neutral hn
  | names v l hl => exact ⟨⟨h.rest, h.users, h.added, h.writes⟩, rfl⟩
  | sign v aud refresh kid l names access hl hn ha =>
      exact ⟨⟨h.rest, h.users, h.added, h.writes⟩, rfl⟩

/-- Every move that goes on keeps the shape. -/
theorem shape_move {env : Env} {now : Time} {db : Db} {t t' : Txn} {k : Option String}
    (h : t.Shape) (hm : (t.move env now db).goesOn = some (k, t')) :
    t'.Shape ∧ t'.call = t.call := by
  obtain ⟨st, rest, hrest, hr⟩ := move_cases hm
  have hst := h.rest st (by rw [hrest]; exact List.mem_cons_self)
  refine shape_ran (t := { t with rest }) ⟨?_, h.users, h.added, h.writes⟩ hst hr
  intro st' hst'
  exact h.rest st' (by rw [hrest]; exact List.mem_cons_of_mem st hst')

/-! ## What a commit does to the users and their roles -/

/-- What a write makes of the row of user `v`. -/
def Write.onUser (v : String) (u : User) : Write → User
  | .status w s => if v = w then u.withStatus s else u
  | .version w n => if v = w then u.withVersion n else u
  | _ => u

/-- Whether `v` holds the role `r` after a write, given whether it did before. -/
def Write.onRole (v r : String) (before : Bool) : Write → Bool
  | .insertRole w r' => before || decide (v = w ∧ r = r')
  | .deleteRole w r' => before && !decide (v = w ∧ r = r')
  | _ => before

theorem user_apply {env : Env} {db db' : Db} {w : Write} (h : w.apply env db = some db')
    (v : String) : db'.user v = (db.user v).map fun u => w.onUser v u := by
  have hsame : (db.user v).map (fun u => u) = db.user v := by cases db.user v <;> rfl
  have hif : ∀ (f : User → User) (x : String),
      (if v = x then (db.user v).map f else db.user v) =
        (db.user v).map fun u => if v = x then f u else u := by
    intro f x
    by_cases hx : v = x <;> simp [hx]
  cases w with
  | status x s =>
      cases h
      rw [user_setStatus, hif]
      rfl
  | version x n =>
      cases h
      rw [Db.user_setUser, hif]
      rfl
  | insertRole x r =>
      obtain ⟨roles, -, rfl⟩ := Option.map_eq_some_iff.mp h
      exact hsame.symm
  | deleteRole x r =>
      cases h
      exact hsame.symm
  | consumeGrants digests now =>
      cases h
      exact hsame.symm
  | insertGrant raw x aud now =>
      obtain ⟨grants, g, -, -, -, -, -, rfl⟩ := issueRefresh_eq_some h
      exact hsame.symm
  | audit a x action details =>
      cases h
      exact hsame.symm

theorem hasRole_insertRole {db db' : Db} {userId role : String}
    (h : Sso.insertRole db userId role = some db') (v r : String) :
    db'.hasRole v r = (db.hasRole v r || decide (v = userId ∧ r = role)) := by
  obtain ⟨roles, hi, rfl⟩ := Option.map_eq_some_iff.mp h
  simp only [Db.hasRole, Table.get_insert hi, key_userRole, Prod.mk.injEq]
  by_cases hk : userId = v ∧ role = r
  · simp [hk.1, hk.2]
  · have hk' : ¬ (v = userId ∧ r = role) := fun he => hk ⟨he.1.symm, he.2.symm⟩
    simp [hk, hk']

theorem hasRole_apply {env : Env} {db db' : Db} {w : Write} (h : w.apply env db = some db')
    (v r : String) : db'.hasRole v r = w.onRole v r (db.hasRole v r) := by
  cases w with
  | insertRole x r' => exact hasRole_insertRole h v r
  | deleteRole x r' =>
      cases h
      exact AdminOp.hasRole_deleteRole db x r' v r
  | insertGrant raw x aud now =>
      obtain ⟨grants, g, -, -, -, -, -, rfl⟩ := issueRefresh_eq_some h
      rfl
  | _ =>
      cases h
      rfl

/-- What every write of a commit keeps, the commit keeps. -/
theorem applyAll_keeps {env : Env} {P : Db → Prop} {ws : List Write}
    (hstep : ∀ w ∈ ws, ∀ db db', P db → w.apply env db = some db' → P db') {db db' : Db}
    (h0 : P db) (h : applyAll env db ws = some db') : P db' := by
  induction ws generalizing db with
  | nil =>
      cases h
      exact h0
  | cons w ws ih =>
      obtain ⟨db₁, hw, hws⟩ := Option.bind_eq_some_iff.mp h
      refine ih ?_ ?_ hws
      · intro w' hw'
        exact hstep w' (List.mem_cons_of_mem w hw')
      · exact hstep w List.mem_cons_self db db₁ h0 hw

end TemisLab.Sso
