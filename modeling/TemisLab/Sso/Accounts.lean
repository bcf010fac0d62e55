/-
  Accounts (`persistence.UserRepository`, `application/auth.py`). Each definition is one
  `session_scope` block: it takes the committed tables and returns its result with the tables
  it commits, or the error that rolls it back. `register`, `verify_email`,
  `request_password_reset` and `reset_password` are two such blocks each; the requests that
  run them one after the other are in `Sso.Requests` and `Sso.Operations`.

  Fresh values (the user id, the raw token, the password hash with its salt) and the clock are
  arguments.
-/
import TemisLab.Sso.Db

namespace TemisLab.Sso

open TemisLab.Lib

/-- `email.strip().lower()`. -/
def Env.normalize (env : Env) (email : String) : String := env.lower (PyText.strip email)

/-- `UserRepository.create`; `none` is the `IntegrityError` of a taken id or email. -/
def createUser (env : Env) (db : Db) (uid email : String) (passwordHash : Option String) :
    Option (User × Db) :=
  let user : User := { id := uid, email := env.normalize email, passwordHash }
  if db.users.rows.any fun u => u.email = user.email then none
  else (db.users.insert user).map fun users => (user, { db with users })

/-- `UserRepository.by_email`. -/
def userByEmail (env : Env) (db : Db) (email : String) : Option User :=
  db.users.rows.find? fun u => u.email = env.normalize email

/-- The errors of `application/auth.py`; `integrity` is an `IntegrityError` no block catches. -/
inductive AuthError where
  | duplicateEmail | invalidCredentials | verificationRequired | invalidOneTimeToken | integrity
  deriving DecidableEq, Repr

structure AuthenticatedUser where
  userId : String
  email : String
  deriving DecidableEq, Repr

/-- `_issue_one_time`: a token that lives fifteen minutes. -/
def issueOneTime (env : Env) (db : Db) (userId : String) (purpose : Purpose) (raw : String)
    (now : Time) : Option Db :=
  (db.oneTimeTokens.insert
      { digest := env.sha256 raw, userId, purpose, expiresAt := now + 15 * 60 }).map
    fun oneTimeTokens => { db with oneTimeTokens }

/-- The first block of `register`. -/
def registerUser (env : Env) (db : Db) (uid email passwordHash : String) :
    Except AuthError (AuthenticatedUser × Db) :=
  match createUser env db uid email (some passwordHash) with
  | none => .error .duplicateEmail
  | some (user, db') => .ok (⟨user.id, user.email⟩, db')

/-- `user.locked_until and user.locked_until > now`. -/
def User.isLocked (u : User) (now : Time) : Bool := u.lockedUntil.any fun t => now < t

/-- A failed check: the third one in a row locks the account for five minutes. -/
def User.recordFailure (now : Time) (u : User) : User :=
  { u with
    failedLogins := u.failedLogins + 1
    lockedUntil := if 3 ≤ u.failedLogins + 1 then some (now + 5 * 60) else u.lockedUntil }

def User.clearFailures (u : User) : User := { u with failedLogins := 0, lockedUntil := none }

/-- `authenticate`. The error is raised after the block, so every branch commits. -/
def authenticate (env : Env) (db : Db) (email password : String) (now : Time) :
    Except AuthError AuthenticatedUser × Db :=
  match userByEmail env db email with
  | none => (.error .invalidCredentials, db)
  | some user =>
      match user.passwordHash with
      | none => (.error .invalidCredentials, db)
      | some hash =>
          if user.isLocked now then (.error .invalidCredentials, db)
          else if !env.verifyPassword hash password then
            (.error .invalidCredentials,
              db.setUser user.id (User.recordFailure now) fun _ => rfl)
          else if user.status = .pending then (.error .verificationRequired, db)
          else if user.status ≠ .active then (.error .invalidCredentials, db)
          else (.ok ⟨user.id, user.email⟩, db.setUser user.id User.clearFailures fun _ => rfl)

/-- The one-time token `raw` names for `purpose`, unused and unexpired. -/
def liveOneTime (env : Env) (db : Db) (raw : String) (purpose : Purpose) (now : Time) :
    Option OneTimeToken :=
  match db.oneTimeTokens.get (env.sha256 raw) with
  | none => none
  | some token =>
      if token.purpose ≠ purpose ∨ token.consumedAt ≠ none ∨ token.expiresAt ≤ now then none
      else some token

def OneTimeToken.consume (now : Time) (t : OneTimeToken) : OneTimeToken :=
  { t with consumedAt := some now }

@[simp] theorem OneTimeToken.consume_digest (now : Time) (t : OneTimeToken) :
    (t.consume now).digest = t.digest := rfl

/-- `consume_one_time`. -/
def consumeOneTime (env : Env) (db : Db) (raw : String) (purpose : Purpose) (now : Time) :
    Except AuthError (String × Db) :=
  match liveOneTime env db raw purpose now with
  | none => .error .invalidOneTimeToken
  | some token =>
      .ok (token.userId,
        { db with
          oneTimeTokens := db.oneTimeTokens.modify (fun t => t.digest = token.digest)
            (OneTimeToken.consume now) (OneTimeToken.consume_digest now) })

/-- The second block of `verify_email`. -/
def activateUser (db : Db) (userId : String) : Except AuthError Db :=
  match db.user userId with
  | none => .error .invalidOneTimeToken
  | some _ => .ok (setStatus db userId .active)

def User.withPassword (passwordHash : String) (u : User) : User :=
  { u with passwordHash := some passwordHash }.clearFailures

/-- The second block of `reset_password`. -/
def storePassword (db : Db) (userId passwordHash : String) : Except AuthError Db :=
  match db.user userId with
  | none => .error .invalidOneTimeToken
  | some _ =>
      .ok (db.setUser userId (User.withPassword passwordHash) fun _ => rfl)

/-! ## What each block commits -/

/-- The account an address finds is stored under it. -/
theorem userByEmail_eq_some {env : Env} {db : Db} {email : String} {u : User}
    (h : userByEmail env db email = some u) :
    db.user u.id = some u ∧ u.email = env.normalize email :=
  ⟨Table.get_of_mem (List.mem_of_find?_eq_some h), by simpa using List.find?_some h⟩

theorem createUser_eq_some {env : Env} {db db' : Db} {uid email : String} {hash : Option String}
    {user : User} (h : createUser env db uid email hash = some (user, db')) :
    user = { id := uid, email := env.normalize email, passwordHash := hash } ∧
      ∃ users, db.users.insert user = some users ∧ db' = { db with users } := by
  unfold createUser at h
  simp only at h
  split at h
  · cases h
  · obtain ⟨users, hi, he⟩ := Option.map_eq_some_iff.mp h
    obtain ⟨rfl, rfl⟩ := Prod.mk.inj he
    exact ⟨rfl, users, hi, rfl⟩

/-- The new user's address was free. -/
theorem createUser_email {env : Env} {db db' : Db} {uid email : String} {hash : Option String}
    {user : User} (h : createUser env db uid email hash = some (user, db')) :
    ∀ u ∈ db.users.rows, u.email ≠ user.email := by
  intro u hu he
  have huser := (createUser_eq_some h).1
  unfold createUser at h
  simp only at h
  split at h
  · cases h
  · next hnone =>
      refine hnone (List.any_eq_true.mpr ⟨u, hu, ?_⟩)
      rw [huser] at he
      simpa using he

theorem user_createUser {env : Env} {db db' : Db} {uid email : String} {hash : Option String}
    {user : User} (h : createUser env db uid email hash = some (user, db')) (v : String) :
    db'.user v = if uid = v then some user else db.user v := by
  obtain ⟨rfl, users, hi, rfl⟩ := createUser_eq_some h
  exact Table.get_insert hi v

theorem registerUser_eq_ok {env : Env} {db db' : Db} {uid email hash : String}
    {who : AuthenticatedUser} (h : registerUser env db uid email hash = .ok (who, db')) :
    ∃ user, createUser env db uid email (some hash) = some (user, db') ∧ who.userId = uid := by
  unfold registerUser at h
  split at h
  · cases h
  · next user db₁ hc =>
      cases h
      exact ⟨user, hc, by rw [(createUser_eq_some hc).1]⟩

theorem issueOneTime_eq_some {env : Env} {db db' : Db} {userId raw : String} {purpose : Purpose}
    {now : Time} (h : issueOneTime env db userId purpose raw now = some db') :
    ∃ tokens, db' = { db with oneTimeTokens := tokens } := by
  obtain ⟨tokens, -, rfl⟩ := Option.map_eq_some_iff.mp h
  exact ⟨tokens, rfl⟩

/-- `authenticate` writes at most the failure counters of one user. -/
theorem authenticate_db (env : Env) (db : Db) (email password : String) (now : Time) :
    (authenticate env db email password now).2 = db ∨
      ∃ uid f hf, (∀ u : User, (f u).status = u.status ∧ (f u).authzVersion = u.authzVersion ∧
          (f u).email = u.email) ∧
        (authenticate env db email password now).2 = db.setUser uid f hf := by
  unfold authenticate
  split
  · exact Or.inl rfl
  · next user _ =>
      split
      · exact Or.inl rfl
      · split_ifs
        · exact Or.inl rfl
        · exact Or.inr ⟨user.id, User.recordFailure now, fun _ => rfl,
            fun _ => ⟨rfl, rfl, rfl⟩, rfl⟩
        · exact Or.inl rfl
        · exact Or.inl rfl
        · exact Or.inr ⟨user.id, User.clearFailures, fun _ => rfl,
            fun _ => ⟨rfl, rfl, rfl⟩, rfl⟩

theorem liveOneTime_eq_some {env : Env} {db : Db} {raw : String} {purpose : Purpose} {now : Time}
    {token : OneTimeToken} (h : liveOneTime env db raw purpose now = some token) :
    db.oneTimeTokens.get (env.sha256 raw) = some token ∧ token.purpose = purpose ∧
      token.consumedAt = none ∧ now < token.expiresAt := by
  unfold liveOneTime at h
  split at h
  · cases h
  · next t ht =>
      split at h
      · cases h
      · next hn =>
          cases h
          push Not at hn
          exact ⟨ht, hn.1, hn.2.1, hn.2.2⟩

theorem consumeOneTime_eq_ok {env : Env} {db db' : Db} {raw userId : String} {purpose : Purpose}
    {now : Time} (h : consumeOneTime env db raw purpose now = .ok (userId, db')) :
    ∃ token, liveOneTime env db raw purpose now = some token ∧ userId = token.userId ∧
      ∃ tokens, db' = { db with oneTimeTokens := tokens } := by
  unfold consumeOneTime at h
  split at h
  · cases h
  · next token ht =>
      cases h
      exact ⟨token, ht, rfl, _, rfl⟩

theorem activateUser_eq_ok {db db' : Db} {userId : String} (h : activateUser db userId = .ok db') :
    db' = setStatus db userId .active := by
  unfold activateUser at h
  split at h
  · cases h
  · cases h; rfl

theorem storePassword_eq_ok {db db' : Db} {userId hash : String}
    (h : storePassword db userId hash = .ok db') :
    db' = db.setUser userId (User.withPassword hash) fun _ => rfl := by
  unfold storePassword at h
  split at h
  · cases h
  · cases h; rfl

end TemisLab.Sso
