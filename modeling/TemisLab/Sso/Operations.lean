/-
  `register`, `verify_email` and `reset_password` as their callers see them
  (`application/auth.py`). Each is two transactions, and a database statement, a commit or the
  password hasher may raise at every point it passes (`raises`).

  * `half_registered`: they are not atomic. A fault after the first commit leaves a user without
    a token, or a token consumed without its effect; `register_again` shows that the address of
    such a user is refused from then on.
  * `atomic_iff`: an operation is atomic exactly if its second transaction passes wherever its
    first one does.
-/
import TemisLab.Lib.Commit
import TemisLab.Sso.Accounts

namespace TemisLab.Sso.Operations

open TemisLab.Lib

/-- Where an operation may raise besides its own checks. A commit flushes the rows first. -/
inductive Point where
  | hashPassword | insertUser | commitUser | commitToken | selectToken | selectUser
  deriving DecidableEq, Repr

inductive Failure where
  | refused (error : AuthError)
  | fault (point : Point)
  deriving DecidableEq, Repr

/-- The operation gets past a point. -/
def pass (raises : Point → Bool) (point : Point) : Except Failure PUnit :=
  raiseIf (raises point) (.fault point)

/-! ## The transactions -/

/-- The first transaction of `register`. -/
def createBlock (env : Env) (raises : Point → Bool) (email uid passwordHash : String) :
    Block Db Failure AuthenticatedUser := fun db => do
  pass raises .hashPassword
  pass raises .insertUser
  let created ← (registerUser env db uid email passwordHash).mapError .refused
  pass raises .commitUser
  return created

/-- `_issue_one_time` in `register`, which turns an `IntegrityError` into a duplicate address. -/
def issueBlock (env : Env) (raises : Point → Bool) (raw : String) (now : Time)
    (identity : AuthenticatedUser) : Block Db Failure AuthenticatedUser := fun db => do
  pass raises .commitToken
  match issueOneTime env db identity.userId .verify raw now with
  | none => .error (.refused .duplicateEmail)
  | some db' => return (identity, db')

/-- `consume_one_time`. -/
def consumeBlock (env : Env) (raises : Point → Bool) (raw : String) (purpose : Purpose)
    (now : Time) : Block Db Failure String := fun db => do
  pass raises .selectToken
  let consumed ← (consumeOneTime env db raw purpose now).mapError .refused
  pass raises .commitToken
  return consumed

/-- The second transaction of `verify_email`. -/
def activateBlock (raises : Point → Bool) (userId : String) : Block Db Failure PUnit :=
  fun db => do
    pass raises .selectUser
    let db' ← (activateUser db userId).mapError .refused
    pass raises .commitUser
    return (.unit, db')

/-- The second transaction of `reset_password`. -/
def storeBlock (raises : Point → Bool) (passwordHash userId : String) : Block Db Failure PUnit :=
  fun db => do
    pass raises .selectUser
    let db' ← (storePassword db userId passwordHash).mapError .refused
    pass raises .hashPassword
    pass raises .commitUser
    return (.unit, db')

def register (env : Env) (raises : Point → Bool) (email uid passwordHash raw : String)
    (now : Time) (db : Db) : Except Failure AuthenticatedUser × Db :=
  twice (createBlock env raises email uid passwordHash) id (issueBlock env raises raw now) db

def verifyEmail (env : Env) (raises : Point → Bool) (raw : String) (now : Time) (db : Db) :
    Except Failure PUnit × Db :=
  twice (consumeBlock env raises raw .verify now) id (activateBlock raises) db

def resetPassword (env : Env) (raises : Point → Bool) (raw passwordHash : String) (now : Time)
    (db : Db) : Except Failure PUnit × Db :=
  twice (consumeBlock env raises raw .reset now) id (storeBlock raises passwordHash) db

/-! ## What atomic means -/

/-- The tables the operations write. -/
def accountTables (db : Db) : Table User × Table OneTimeToken := (db.users, db.oneTimeTokens)

/-- An operation that raises leaves the users and the tokens as they were; one that returns has
    taken both steps. -/
def Atomic {α : Type} (effect : α → Db → Prop) (db : Db) (r : Except Failure α × Db) : Prop :=
  Restores accountTables id db r ∧ ∀ a, r.1 = .ok a → effect a r.2

/-- The user is there with the password, and with a token to verify the address. -/
def Registered (env : Env) (email uid passwordHash raw : String) (now : Time)
    (identity : AuthenticatedUser) (db : Db) : Prop :=
  identity = ⟨uid, env.normalize email⟩ ∧
    db.user uid =
      some { id := uid, email := env.normalize email, passwordHash := some passwordHash } ∧
    db.oneTimeTokens.get (env.sha256 raw) =
      some ⟨env.sha256 raw, uid, .verify, now + 15 * 60, none⟩

/-- The token is consumed, and its user's row is `after` what it was. -/
def Redeemed (env : Env) (raw : String) (now : Time) (purpose : Purpose) (after : User → User)
    (db : Db) (_ : PUnit) (db' : Db) : Prop :=
  ∃ token user, liveOneTime env db raw purpose now = some token ∧
    db.user token.userId = some user ∧
    db'.oneTimeTokens.get (env.sha256 raw) = some (token.consume now) ∧
    db'.user token.userId = some (after user)

/-- The first transaction of `register` passes. -/
def Creates (env : Env) (raises : Point → Bool) (email uid : String) (db : Db) : Prop :=
  (∀ point ∈ [Point.hashPassword, .insertUser, .commitUser], raises point = false) ∧
    db.user uid = none ∧ userByEmail env db email = none

/-- The second transaction of `register` passes. -/
def Issues (env : Env) (raises : Point → Bool) (raw : String) (db : Db) : Prop :=
  raises .commitToken = false ∧ db.oneTimeTokens.get (env.sha256 raw) = none

/-- The first transaction of `verify_email` or `reset_password` passes, with this token. -/
def Consumes (env : Env) (raises : Point → Bool) (raw : String) (purpose : Purpose) (now : Time)
    (db : Db) (token : OneTimeToken) : Prop :=
  (∀ point ∈ [Point.selectToken, .commitToken], raises point = false) ∧
    liveOneTime env db raw purpose now = some token

/-- The second transaction passes the points `points`, and finds the user. -/
def Finds (raises : Point → Bool) (points : List Point) (db : Db) (userId : String) : Prop :=
  (∀ point ∈ points, raises point = false) ∧ db.user userId ≠ none

/-! ## When a transaction passes, and what it commits -/

variable {env : Env} {raises : Point → Bool} {email uid passwordHash raw userId : String}
  {purpose : Purpose} {now : Time} {db db' : Db} {identity identity' : AuthenticatedUser}

/-- `x` after points that are passed in turn. -/
def behind {α : Type} (raises : Point → Bool) (points : List Point) (x : Except Failure α) :
    Except Failure α :=
  points.foldr (fun point rest => pass raises point >>= fun _ => rest) x

theorem behind_eq_ok {α : Type} {points : List Point} {x : Except Failure α} {a : α} :
    behind raises points x = .ok a ↔
      (∀ point ∈ points, raises point = false) ∧ x = .ok a := by
  induction points with
  | nil => simp [behind]
  | cons point points ih =>
      show (pass raises point >>= fun _ => behind raises points x) = .ok a ↔ _
      rw [pass, raiseIf_bind, ih, List.forall_mem_cons, and_assoc]

/-- A transaction passes points, does its work, and passes points again up to its commit. -/
theorem block_eq_ok {α β : Type} (before after : List Point) (r : Except AuthError α)
    (f : α → β) {b : β} :
    behind raises before
        (r.mapError .refused >>= fun a => behind raises after (.ok (f a))) = .ok b ↔
      (∀ point ∈ before ++ after, raises point = false) ∧ ∃ a, r = .ok a ∧ f a = b := by
  simp only [behind_eq_ok, bind_eq_ok, mapError_eq_ok, List.forall_mem_append, Except.ok.injEq]
  constructor
  · rintro ⟨hbefore, a, hr, hafter, hb⟩
    exact ⟨⟨hbefore, hafter⟩, a, hr, hb⟩
  · rintro ⟨⟨hbefore, hafter⟩, a, hr, hb⟩
    exact ⟨hbefore, a, hr, hafter, hb⟩

theorem createBlock_eq_ok :
    createBlock env raises email uid passwordHash db = .ok (identity, db') ↔
      (∀ point ∈ [Point.hashPassword, .insertUser, .commitUser], raises point = false) ∧
        registerUser env db uid email passwordHash = .ok (identity, db') := by
  refine (block_eq_ok [.hashPassword, .insertUser] [.commitUser]
    (registerUser env db uid email passwordHash) id).trans ?_
  simp

theorem issueBlock_eq_ok :
    issueBlock env raises raw now identity db = .ok (identity', db') ↔
      raises .commitToken = false ∧ identity' = identity ∧
        issueOneTime env db identity.userId .verify raw now = some db' := by
  unfold issueBlock pass
  rw [raiseIf_bind]
  cases issueOneTime env db identity.userId .verify raw now with
  | none => simp
  | some db₁ =>
      simp only [pure, Except.pure, Except.ok.injEq, Prod.mk.injEq, Option.some.injEq]
      refine and_congr_right fun _ => ⟨?_, ?_⟩
      · rintro ⟨rfl, rfl⟩
        exact ⟨rfl, rfl⟩
      · rintro ⟨rfl, rfl⟩
        exact ⟨rfl, rfl⟩

theorem consumeBlock_eq_ok :
    consumeBlock env raises raw purpose now db = .ok (userId, db') ↔
      (∀ point ∈ [Point.selectToken, .commitToken], raises point = false) ∧
        consumeOneTime env db raw purpose now = .ok (userId, db') := by
  refine (block_eq_ok [.selectToken] [.commitToken] (consumeOneTime env db raw purpose now)
    id).trans ?_
  simp

theorem activateBlock_eq_ok {u : PUnit} :
    activateBlock raises userId db = .ok (u, db') ↔
      (∀ point ∈ [Point.selectUser, .commitUser], raises point = false) ∧
        activateUser db userId = .ok db' := by
  refine (block_eq_ok [.selectUser] [.commitUser] (activateUser db userId)
    (PUnit.unit, ·)).trans ?_
  simp

theorem storeBlock_eq_ok {u : PUnit} :
    storeBlock raises passwordHash userId db = .ok (u, db') ↔
      (∀ point ∈ [Point.selectUser, .hashPassword, .commitUser], raises point = false) ∧
        storePassword db userId passwordHash = .ok db' := by
  refine (block_eq_ok [.selectUser] [.hashPassword, .commitUser]
    (storePassword db userId passwordHash) (PUnit.unit, ·)).trans ?_
  simp

/-- `create` inserts the user exactly if the id and the address are free. -/
theorem registerUser_iff :
    (∃ identity db', registerUser env db uid email passwordHash = .ok (identity, db')) ↔
      db.user uid = none ∧ userByEmail env db email = none := by
  have hemail : userByEmail env db email = none ↔
      ¬ (db.users.rows.any fun u => u.email = env.normalize email) = true := by
    simp [userByEmail, List.find?_eq_none]
  rw [hemail]
  unfold registerUser createUser
  dsimp only
  split
  · next hnone =>
      split at hnone
      · next htaken => simp [htaken]
      · next hfree =>
          rw [Option.map_eq_none_iff, Table.insert_eq_none] at hnone
          obtain ⟨u, hu⟩ := hnone
          have htaken : db.user uid = some u := hu
          simp [htaken]
  · next user db₁ hsome =>
      split at hsome
      · cases hsome
      · next hfree =>
          obtain ⟨users, hi, -⟩ := Option.map_eq_some_iff.mp hsome
          have hnew : db.user uid = none := (Table.insert_eq_some hi).1
          exact ⟨fun _ => ⟨hnew, hfree⟩, fun _ => ⟨_, _, rfl⟩⟩

theorem registerUser_row
    (h : registerUser env db uid email passwordHash = .ok (identity, db')) :
    identity = ⟨uid, env.normalize email⟩ ∧
      db'.user uid =
        some { id := uid, email := env.normalize email, passwordHash := some passwordHash } ∧
      db'.oneTimeTokens = db.oneTimeTokens := by
  unfold registerUser at h
  split at h
  · cases h
  · next user db₁ hc =>
      cases h
      have hrow := user_createUser hc uid
      obtain ⟨rfl, users, -, rfl⟩ := createUser_eq_some hc
      rw [if_pos rfl] at hrow
      exact ⟨rfl, hrow, rfl⟩

theorem consumeOneTime_row (h : consumeOneTime env db raw purpose now = .ok (userId, db')) :
    ∃ token, liveOneTime env db raw purpose now = some token ∧ userId = token.userId ∧
      db'.users = db.users ∧
      db'.oneTimeTokens.get (env.sha256 raw) = some (token.consume now) := by
  unfold consumeOneTime at h
  split at h
  · cases h
  · next token hlive =>
      cases h
      obtain ⟨hget, -, -, -⟩ := liveOneTime_eq_some hlive
      have hdigest := Table.key_of_get hget
      refine ⟨token, hlive, rfl, rfl, ?_⟩
      rw [Table.get_modify, hget, Option.map_some]
      simp

theorem consumeOneTime_of_live {token : OneTimeToken}
    (h : liveOneTime env db raw purpose now = some token) :
    ∃ db', consumeOneTime env db raw purpose now = .ok (token.userId, db') := by
  unfold consumeOneTime
  rw [h]
  exact ⟨_, rfl⟩

/-- A registration that was committed shows in the users. -/
theorem registerUser_trace
    (h : registerUser env db uid email passwordHash = .ok (identity, db')) :
    accountTables db' ≠ accountTables db := by
  intro he
  have husers : db'.users = db.users := congrArg Prod.fst he
  have hnew := (registerUser_iff.mp ⟨identity, db', h⟩).1
  have hrow := (registerUser_row h).2.1
  unfold Db.user at hnew hrow
  rw [husers, hnew] at hrow
  cases hrow

/-- A consumed token shows in the tokens. -/
theorem consumeOneTime_trace (h : consumeOneTime env db raw purpose now = .ok (userId, db')) :
    accountTables db' ≠ accountTables db := by
  intro he
  have htokens : db'.oneTimeTokens = db.oneTimeTokens := congrArg Prod.snd he
  obtain ⟨token, hlive, -, -, hrow⟩ := consumeOneTime_row h
  obtain ⟨hget, -, hunused, -⟩ := liveOneTime_eq_some hlive
  rw [htokens, hget] at hrow
  have hsame : token = token.consume now := Option.some.inj hrow
  have hused : token.consumedAt = some now := by
    rw [hsame]
    rfl
  rw [hunused] at hused
  cases hused

theorem issueOneTime_row {token : Purpose}
    (h : issueOneTime env db userId token raw now = some db') :
    db'.users = db.users ∧ db'.oneTimeTokens.get (env.sha256 raw) =
      some ⟨env.sha256 raw, userId, token, now + 15 * 60, none⟩ := by
  obtain ⟨tokens, hi, rfl⟩ := Option.map_eq_some_iff.mp h
  refine ⟨rfl, ?_⟩
  rw [Table.get_insert hi, key_oneTimeToken, if_pos rfl]

theorem issueOneTime_iff : (∃ db', issueOneTime env db userId purpose raw now = some db') ↔
    db.oneTimeTokens.get (env.sha256 raw) = none := by
  unfold issueOneTime
  refine ⟨?_, ?_⟩
  · rintro ⟨db', h⟩
    obtain ⟨tokens, hi, -⟩ := Option.map_eq_some_iff.mp h
    exact (Table.insert_eq_some hi).1
  · intro h
    obtain ⟨tokens, hi⟩ := Table.exists_insert db.oneTimeTokens
      ⟨env.sha256 raw, userId, purpose, now + 15 * 60, none⟩ h
    exact ⟨_, by rw [hi]; rfl⟩

/-! ## The condition -/

theorem register_atomic_iff :
    Atomic (Registered env email uid passwordHash raw now) db
        (register env raises email uid passwordHash raw now db) ↔
      (Creates env raises email uid db → Issues env raises raw db) := by
  have heffect : ∀ identity,
      (register env raises email uid passwordHash raw now db).1 = .ok identity →
      Registered env email uid passwordHash raw now identity
        (register env raises email uid passwordHash raw now db).2 := by
    intro identity hok
    obtain ⟨created, db₁, hfirst, hsecond⟩ := twice_eq_ok hok
    obtain ⟨-, rfl, hissue⟩ := issueBlock_eq_ok.mp hsecond
    obtain ⟨rfl, hrow, -⟩ := registerUser_row (createBlock_eq_ok.mp hfirst).2
    obtain ⟨husers, htoken⟩ := issueOneTime_row hissue
    refine ⟨rfl, ?_, htoken⟩
    unfold register
    rw [Db.user, husers]
    exact hrow
  unfold Atomic
  rw [and_iff_left heffect]
  unfold register
  rw [restores_iff]
  constructor
  · rintro h ⟨hpoints, hfree⟩
    obtain ⟨created, db₁, hcreate⟩ := registerUser_iff.mpr hfree
    obtain ⟨identity, db₂, hissue⟩ :=
      h created db₁ (createBlock_eq_ok.mpr ⟨hpoints, hcreate⟩) (registerUser_trace hcreate)
    obtain ⟨hcommit, -, hissued⟩ := issueBlock_eq_ok.mp hissue
    have hnew := issueOneTime_iff.mp ⟨db₂, hissued⟩
    rw [id, (registerUser_row hcreate).2.2] at hnew
    exact ⟨hcommit, hnew⟩
  · intro h created db₁ hfirst _
    obtain ⟨hpoints, hcreate⟩ := createBlock_eq_ok.mp hfirst
    obtain ⟨hcommit, hnew⟩ := h ⟨hpoints, registerUser_iff.mp ⟨created, db₁, hcreate⟩⟩
    rw [← (registerUser_row hcreate).2.2] at hnew
    obtain ⟨db₂, hissued⟩ := issueOneTime_iff.mpr hnew
    exact ⟨created, db₂, issueBlock_eq_ok.mpr ⟨hcommit, rfl, hissued⟩⟩

/-- What a second transaction on the user of a token does. -/
structure Applies (raises : Point → Bool) (points : List Point) (after : User → User)
    (second : String → Block Db Failure PUnit) : Prop where
  passes : ∀ userId db, (∃ u db', second userId db = .ok (u, db')) ↔ Finds raises points db userId
  tokens : ∀ userId db u db', second userId db = .ok (u, db') →
    db'.oneTimeTokens = db.oneTimeTokens
  row : ∀ userId db u db', second userId db = .ok (u, db') →
    db'.user userId = (db.user userId).map after

theorem redeem_atomic_iff {points : List Point} {after : User → User}
    {second : String → Block Db Failure PUnit} (h : Applies raises points after second) :
    Atomic (Redeemed env raw now purpose after db) db
        (twice (consumeBlock env raises raw purpose now) id second db) ↔
      ∀ token, Consumes env raises raw purpose now db token →
        Finds raises points db token.userId := by
  have heffect : ∀ u, (twice (consumeBlock env raises raw purpose now) id second db).1 = .ok u →
      Redeemed env raw now purpose after db u
        (twice (consumeBlock env raises raw purpose now) id second db).2 := by
    intro u hok
    obtain ⟨userId, db₁, hfirst, hsecond⟩ := twice_eq_ok hok
    obtain ⟨token, hlive, rfl, husers, htoken⟩ :=
      consumeOneTime_row (consumeBlock_eq_ok.mp hfirst).2
    have hfound := ((h.passes _ _).mp ⟨u, _, hsecond⟩).2
    rw [id, Db.user, husers] at hfound
    obtain ⟨user, huser⟩ := Option.ne_none_iff_exists'.mp hfound
    refine ⟨token, user, hlive, huser, ?_, ?_⟩
    · rw [h.tokens _ _ _ _ hsecond]
      exact htoken
    · rw [h.row _ _ _ _ hsecond, id, Db.user, husers, huser]
      rfl
  unfold Atomic
  rw [and_iff_left heffect, restores_iff]
  constructor
  · rintro hall token ⟨hpoints, hlive⟩
    obtain ⟨db₁, hconsume⟩ := consumeOneTime_of_live hlive
    obtain ⟨u, db₂, hsecond⟩ := hall token.userId db₁
      (consumeBlock_eq_ok.mpr ⟨hpoints, hconsume⟩) (consumeOneTime_trace hconsume)
    obtain ⟨-, -, -, husers, -⟩ := consumeOneTime_row hconsume
    have hfinds := (h.passes _ _).mp ⟨u, db₂, hsecond⟩
    unfold Finds Db.user at hfinds
    rw [id, husers] at hfinds
    exact hfinds
  · intro hall userId db₁ hfirst _
    obtain ⟨hpoints, hconsume⟩ := consumeBlock_eq_ok.mp hfirst
    obtain ⟨token, hlive, rfl, husers, -⟩ := consumeOneTime_row hconsume
    have hfinds := hall token ⟨hpoints, hlive⟩
    unfold Finds Db.user at hfinds
    rw [← husers] at hfinds
    exact (h.passes _ _).mpr hfinds

theorem activateUser_iff : (∃ db', activateUser db userId = .ok db') ↔ db.user userId ≠ none := by
  unfold activateUser
  cases db.user userId with
  | none => simp
  | some user => simp

theorem storePassword_iff :
    (∃ db', storePassword db userId passwordHash = .ok db') ↔ db.user userId ≠ none := by
  unfold storePassword
  cases db.user userId with
  | none => simp
  | some user => simp

theorem applies_activate : Applies raises [.selectUser, .commitUser] (User.withStatus .active)
    (activateBlock raises) := by
  refine ⟨?_, ?_, ?_⟩
  · intro userId db
    unfold Finds
    constructor
    · rintro ⟨u, db', h⟩
      obtain ⟨hpoints, hok⟩ := activateBlock_eq_ok.mp h
      exact ⟨hpoints, activateUser_iff.mp ⟨db', hok⟩⟩
    · rintro ⟨hpoints, hfound⟩
      obtain ⟨db', hok⟩ := activateUser_iff.mpr hfound
      exact ⟨.unit, db', activateBlock_eq_ok.mpr ⟨hpoints, hok⟩⟩
  · intro userId db u db' h
    rw [activateUser_eq_ok (activateBlock_eq_ok.mp h).2]
    rfl
  · intro userId db u db' h
    rw [activateUser_eq_ok (activateBlock_eq_ok.mp h).2, user_setStatus, if_pos rfl]

theorem applies_store : Applies raises [.selectUser, .hashPassword, .commitUser]
    (User.withPassword passwordHash) (storeBlock raises passwordHash) := by
  refine ⟨?_, ?_, ?_⟩
  · intro userId db
    unfold Finds
    constructor
    · rintro ⟨u, db', h⟩
      obtain ⟨hpoints, hok⟩ := storeBlock_eq_ok.mp h
      exact ⟨hpoints, storePassword_iff.mp ⟨db', hok⟩⟩
    · rintro ⟨hpoints, hfound⟩
      obtain ⟨db', hok⟩ := storePassword_iff.mpr hfound
      exact ⟨.unit, db', storeBlock_eq_ok.mpr ⟨hpoints, hok⟩⟩
  · intro userId db u db' h
    rw [storePassword_eq_ok (storeBlock_eq_ok.mp h).2]
    rfl
  · intro userId db u db' h
    rw [storePassword_eq_ok (storeBlock_eq_ok.mp h).2]
    exact (Db.user_setUser db userId userId (User.withPassword passwordHash)
      fun _ => rfl).trans (if_pos rfl)

/-- An operation is atomic exactly if what its first transaction commits is always followed by
    its second. -/
theorem atomic_iff (env : Env) (raises : Point → Bool) (email uid passwordHash raw : String)
    (now : Time) (db : Db) :
    (Atomic (Registered env email uid passwordHash raw now) db
        (register env raises email uid passwordHash raw now db) ↔
      (Creates env raises email uid db → Issues env raises raw db)) ∧
    (Atomic (Redeemed env raw now .verify (User.withStatus .active) db) db
        (verifyEmail env raises raw now db) ↔
      ∀ token, Consumes env raises raw .verify now db token →
        Finds raises [.selectUser, .commitUser] db token.userId) ∧
    (Atomic (Redeemed env raw now .reset (User.withPassword passwordHash) db) db
        (resetPassword env raises raw passwordHash now db) ↔
      ∀ token, Consumes env raises raw .reset now db token →
        Finds raises [.selectUser, .hashPassword, .commitUser] db token.userId) :=
  ⟨register_atomic_iff, redeem_atomic_iff applies_activate, redeem_atomic_iff applies_store⟩

/-- A registration that broke off after its first commit cannot be tried again: its address is
    refused, with whatever password and id. -/
theorem register_again {created : AuthenticatedUser}
    (h : createBlock env raises email uid passwordHash db = .ok (created, db'))
    (uid' passwordHash' raw' : String) (later : Time) :
    (register env (fun _ => false) email uid' passwordHash' raw' later db').1 =
      .error (.refused .duplicateEmail) := by
  obtain ⟨-, hcreate⟩ := createBlock_eq_ok.mp h
  have hrow := (registerUser_row hcreate).2.1
  have htaken : userByEmail env db' email ≠ none := by
    intro hnone
    have hfree := List.find?_eq_none.mp hnone _ (Table.mem_of_get hrow).1
    simp at hfree
  have hrefused : registerUser env db' uid' email passwordHash' = .error .duplicateEmail := by
    cases hr : registerUser env db' uid' email passwordHash' with
    | ok p => exact absurd (registerUser_iff.mp ⟨p.1, p.2, hr⟩).2 htaken
    | error e =>
        unfold registerUser at hr
        split at hr
        · cases hr
          rfl
        · cases hr
  unfold register twice createBlock pass
  simp [raiseIf, bind, Except.bind, hrefused, Except.mapError]

/-- The connection is lost after the first commit of `register`. -/
def lostConnection (point : Point) : Bool := point = .commitToken

/-- The user is left without a token. -/
theorem half_registered :
    ¬ ∀ env raises email uid passwordHash raw now db,
      Atomic (Registered env email uid passwordHash raw now) db
        (register env raises email uid passwordHash raw now db) := by
  intro h
  have hrestores := (h plainEnv lostConnection "u" "u" "pw" "t" 0 .empty).1
  have hraises : Raises (register plainEnv lostConnection "u" "u" "pw" "t" 0 .empty).1 := by
    have herror : (register plainEnv lostConnection "u" "u" "pw" "t" 0 .empty).1 =
        .error (.fault .commitToken) := by
      decide +kernel
    rw [herror]
    intro identity hok
    cases hok
  have hleft : (register plainEnv lostConnection "u" "u" "pw" "t" 0 .empty).2.users ≠
      Db.empty.users := by
    decide +kernel
  exact hleft (congrArg Prod.fst (hrestores hraises))

end TemisLab.Sso.Operations
