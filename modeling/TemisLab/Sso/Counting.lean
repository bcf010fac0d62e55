/-
  `authenticate` statement by statement, any number of calls at once (`application/auth.py`,
  READ COMMITTED). A call reads the row without a lock, checks the password, and at the commit
  writes the columns it changed, as values computed from the row it read. Only this UPDATE takes
  the row lock.

  * `alone`: a call that nobody disturbs is `authenticate`.
  * `lost_failure`: two wrong passwords at once count as one; no serial order explains it.
  * `serializable_of_current`: the calls that ended are explained by a serial order in every run
    in which a call that writes still finds the row as it read it.
-/
import TemisLab.Lib.History
import TemisLab.Lib.Isolation
import TemisLab.Sso.Accounts

namespace TemisLab.Sso.Counting

open TemisLab.Lib

/-- What `authenticate` returns or raises. -/
abbrev Result := Except AuthError AuthenticatedUser

structure Call where
  email : String
  password : String
  deriving DecidableEq, Repr

/-- A call with the time it read for `now`. -/
structure Timed where
  call : Call
  now : Time
  deriving DecidableEq, Repr

/-- The branches of `authenticate` on the row it read: what it returns or raises, and the object
    with the assignments it made. -/
def check (env : Env) (user : User) (password : String) (now : Time) : Result × User :=
  match user.passwordHash with
  | none => (.error .invalidCredentials, user)
  | some hash =>
      if user.isLocked now then (.error .invalidCredentials, user)
      else if !env.verifyPassword hash password then
        (.error .invalidCredentials, user.recordFailure now)
      else if user.status = .pending then (.error .verificationRequired, user)
      else if user.status ≠ .active then (.error .invalidCredentials, user)
      else (.ok ⟨user.id, user.email⟩, user.clearFailures)

/-- The columns an UPDATE sets: those whose value was changed. -/
structure Columns where
  failedLogins : Option ℤ
  lockedUntil : Option (Option Time)
  deriving DecidableEq, Repr

def changes (loaded object : User) : Columns where
  failedLogins :=
    if object.failedLogins = loaded.failedLogins then none else some object.failedLogins
  lockedUntil := if object.lockedUntil = loaded.lockedUntil then none else some object.lockedUntil

def Columns.isEmpty (cols : Columns) : Bool := cols.failedLogins.isNone && cols.lockedUntil.isNone

def Columns.write (cols : Columns) (u : User) : User :=
  { u with
    failedLogins := cols.failedLogins.getD u.failedLogins
    lockedUntil := cols.lockedUntil.getD u.lockedUntil }

/-- `UPDATE users SET … WHERE id = …`. -/
def update (db : Db) (userId : String) (cols : Columns) : Db :=
  db.setUser userId cols.write fun _ => rfl

/-- The next statement of a call, with what it has read and computed. -/
inductive Stage where
  | selecting
  | checking (row : Option User)
  | flushing (user object : User) (now : Time) (result : Result)
  | committing (user object : User) (now : Time) (result : Result)

structure Attempt where
  call : Call
  stage : Stage

/-- The committed tables; `past` is history, every version there has been. -/
structure Versions where
  db : Db
  past : List Db
  kept : db ∈ past

def Versions.start (db : Db) : Versions := ⟨db, [db], List.mem_singleton.mpr rfl⟩

def Versions.commit (v : Versions) (db : Db) : Versions := ⟨db, db :: v.past, List.mem_cons_self⟩

/-- One statement. A call without changes commits without an UPDATE. -/
def move (env : Env) (now : Time) (v : Versions) (t : Attempt) :
    Move Versions Attempt String (Timed × Result) :=
  match t.stage with
  | .selecting => .next { t with stage := .checking (userByEmail env v.db t.call.email) }
  | .checking none => .commit v (some (⟨t.call, now⟩, .error .invalidCredentials))
  | .checking (some user) =>
      let (result, object) := check env user t.call.password now
      .next { t with stage := .flushing user object now result }
  | .flushing user object readAt result =>
      if (changes user object).isEmpty then .commit v (some (⟨t.call, readAt⟩, result))
      else .lock user.id { t with stage := .committing user object readAt result }
  | .committing user object readAt result =>
      .commit (v.commit (update v.db user.id (changes user object)))
        (some (⟨t.call, readAt⟩, result))

def engine (env : Env) : Engine Call Attempt Versions String (Timed × Result) Time where
  begin call := some ⟨call, .selecting⟩
  move := move env

/-- What a call does alone. -/
def serial (env : Env) (c : Timed) (db : Db) : Result × Db :=
  authenticate env db c.call.email c.call.password c.now

/-- The tables, the counters of every account among them, and the outcomes are those of some
    order of the calls that ended. -/
def Explains (env : Env) (db : Db) (es : List (Event Call Time)) : Prop :=
  Serializable (serial env) db (run (engine env).step (.start (.start db)) es).out
    (run (engine env).step (.start (.start db)) es).db.db

/-- A call that is about to commit an UPDATE would read the row it has read. -/
def current (env : Env) (s : World Versions Attempt String (Timed × Result)) :
    Event Call Time → Bool
  | .stmt tid _ =>
      match s.txns tid with
      | some ⟨call, .committing user _ _ _⟩ => userByEmail env s.db.db call.email = some user
      | _ => true
  | _ => true

/-! ## A call alone -/

theorem write_changes {loaded object : User} (h : object =
    { loaded with failedLogins := object.failedLogins, lockedUntil := object.lockedUntil }) :
    (changes loaded object).write loaded = object := by
  have hfailed : ((changes loaded object).failedLogins).getD loaded.failedLogins =
      object.failedLogins := by
    unfold changes
    by_cases hf : object.failedLogins = loaded.failedLogins <;> simp [hf]
  have hlocked : ((changes loaded object).lockedUntil).getD loaded.lockedUntil =
      object.lockedUntil := by
    unfold changes
    by_cases hl : object.lockedUntil = loaded.lockedUntil <;> simp [hl]
  unfold Columns.write
  rw [hfailed, hlocked]
  exact h.symm

/-- Writing the changed columns onto the row they were computed from. -/
theorem update_changes {db : Db} {user : User} (f : User → User) (hf : ∀ u, (f u).id = u.id)
    (hrow : db.user user.id = some user) (hcounters : f user = { user with
      failedLogins := (f user).failedLogins, lockedUntil := (f user).lockedUntil }) :
    update db user.id (changes user (f user)) = db.setUser user.id f hf := by
  have husers : db.users.modify (fun u => u.id = user.id) (changes user (f user)).write
      (fun _ => rfl) = db.users.modify (fun u => u.id = user.id) f hf := by
    refine Table.modify_congr ?_
    intro u hu hid
    have hsame : u = user := by
      have hget := Table.get_of_mem hu
      rw [key_user, of_decide_eq_true hid] at hget
      exact Option.some.inj (hget.symm.trans hrow)
    rw [hsame, write_changes hcounters]
  unfold update Db.setUser
  rw [husers]

theorem update_same {db : Db} {user : User} (hrow : db.user user.id = some user) :
    update db user.id (changes user user) = db := by
  have husers : db.users.modify (fun u => u.id = user.id) id (fun _ => rfl) = db.users :=
    Table.modify_eq_self fun _ _ _ => rfl
  refine (update_changes id (fun _ => rfl) hrow rfl).trans ?_
  unfold Db.setUser
  rw [husers]

/-- `authenticate` is its check on the row, and the UPDATE of what the check changed. -/
theorem authenticate_eq {env : Env} {db : Db} {email : String} {user : User}
    (h : userByEmail env db email = some user) (password : String) (now : Time) :
    authenticate env db email password now =
      ((check env user password now).1,
        update db user.id (changes user (check env user password now).2)) := by
  have hrow := (userByEmail_eq_some h).1
  have hsame := update_same hrow
  cases hhash : user.passwordHash with
  | none => simp [authenticate, check, h, hhash, hsame]
  | some hash =>
      by_cases hlocked : user.isLocked now = true
      · simp [authenticate, check, h, hhash, hlocked, hsame]
      · by_cases hverify : env.verifyPassword hash password = true
        · cases hstatus : user.status with
          | pending => simp [authenticate, check, h, hhash, hlocked, hverify, hstatus, hsame]
          | suspended => simp [authenticate, check, h, hhash, hlocked, hverify, hstatus, hsame]
          | active =>
              have hcheck : check env user password now =
                  (.ok ⟨user.id, user.email⟩, user.clearFailures) := by
                simp [check, hhash, hlocked, hverify, hstatus]
              have hauth : authenticate env db email password now = (.ok ⟨user.id, user.email⟩,
                  db.setUser user.id User.clearFailures fun _ => rfl) := by
                simp [authenticate, h, hhash, hlocked, hverify, hstatus]
              have hupdate := update_changes User.clearFailures (fun _ => rfl) hrow rfl
              rw [hauth, hcheck]
              exact Prod.ext rfl hupdate.symm
        · have hcheck : check env user password now =
              (.error .invalidCredentials, user.recordFailure now) := by
            simp [check, hhash, hlocked, hverify]
          have hauth : authenticate env db email password now = (.error .invalidCredentials,
              db.setUser user.id (User.recordFailure now) fun _ => rfl) := by
            simp [authenticate, h, hhash, hlocked, hverify]
          have hupdate := update_changes (User.recordFailure now) (fun _ => rfl) hrow rfl
          rw [hauth, hcheck]
          exact Prod.ext rfl hupdate.symm

theorem authenticate_none {env : Env} {db : Db} {email : String}
    (h : userByEmail env db email = none) (password : String) (now : Time) :
    authenticate env db email password now = (.error .invalidCredentials, db) := by
  unfold authenticate
  rw [h]

/-- An UPDATE of no column changes nothing. -/
theorem update_isEmpty {db : Db} {user object : User}
    (h : (changes user object).isEmpty = true) : update db user.id (changes user object) = db := by
  unfold Columns.isEmpty at h
  rw [Bool.and_eq_true, Option.isNone_iff_eq_none, Option.isNone_iff_eq_none] at h
  have husers : db.users.modify (fun u => u.id = user.id) (changes user object).write
      (fun _ => rfl) = db.users := by
    refine Table.modify_eq_self ?_
    intro u _ _
    unfold Columns.write
    rw [h.1, h.2]
    rfl
  unfold update Db.setUser
  rw [husers]

/-! ## The invariant -/

/-- A call has read the row of its account in a version there has been. -/
def Read (env : Env) (v : Versions) (call : Call) (row : Option User) : Prop :=
  ∃ db ∈ v.past, userByEmail env db call.email = row

/-- What is known of an open call. -/
def Fits (env : Env) (v : Versions) (t : Attempt) : Prop :=
  match t.stage with
  | .selecting => True
  | .checking row => Read env v t.call row
  | .flushing user object now result =>
      Read env v t.call (some user) ∧ check env user t.call.password now = (result, object)
  | .committing user object now result => check env user t.call.password now = (result, object)

theorem Fits.commit {env : Env} {v : Versions} {t : Attempt} (h : Fits env v t) (db : Db) :
    Fits env (v.commit db) t := by
  obtain ⟨call, stage⟩ := t
  have hread : ∀ row, Read env v call row → Read env (v.commit db) call row := by
    rintro row ⟨db₁, hmem, hrow⟩
    exact ⟨db₁, List.mem_cons_of_mem _ hmem, hrow⟩
  cases stage with
  | selecting => trivial
  | checking row => exact hread row h
  | flushing user object now result => exact ⟨hread _ h.1, h.2⟩
  | committing user object now result => exact h

/-- The calls that ended are explained, with every version there has been. -/
def Accounted (env : Env) (db : Db) (v : Versions) (out : List (Timed × Result)) : Prop :=
  Explained (serial env) db out v.past v.db

/-- How a statement goes on. -/
theorem fits_goes {env : Env} {v : Versions} {t t' : Attempt} {now : Time} {k : Option String}
    (h : Fits env v t) (hm : (move env now v t).goesOn = some (k, t')) : Fits env v t' := by
  obtain ⟨call, stage⟩ := t
  cases stage with
  | selecting =>
      cases hm
      exact ⟨v.db, v.kept, rfl⟩
  | checking row =>
      cases row with
      | none => cases hm
      | some user =>
          cases hm
          exact ⟨h, rfl⟩
  | flushing user object readAt result =>
      simp only [move] at hm
      split at hm
      · cases hm
      · cases hm
        exact h.2
  | committing user object readAt result => cases hm

/-- What a commit is: a call that changes nothing, in a version it has read, or an UPDATE. -/
inductive CommitSpec (env : Env) (v : Versions) (t : Attempt) :
    Versions → Option (Timed × Result) → Prop where
  | read (db : Db) (mem : db ∈ v.past) (now : Time) (result : Result)
      (alone : serial env ⟨t.call, now⟩ db = (result, db)) :
      CommitSpec env v t v (some (⟨t.call, now⟩, result))
  | write (user object : User) (now : Time) (result : Result)
      (stage : t.stage = .committing user object now result)
      (checked : check env user t.call.password now = (result, object)) :
      CommitSpec env v t (v.commit (update v.db user.id (changes user object)))
        (some (⟨t.call, now⟩, result))

theorem commit_cases {env : Env} {v v' : Versions} {t : Attempt} {now : Time}
    {out : Option (Timed × Result)} (h : Fits env v t) (hm : move env now v t = .commit v' out) :
    CommitSpec env v t v' out := by
  obtain ⟨call, stage⟩ := t
  cases stage with
  | selecting => cases hm
  | checking row =>
      cases row with
      | none =>
          cases hm
          obtain ⟨db, hmem, hrow⟩ := h
          exact .read db hmem now _ (authenticate_none hrow call.password now)
      | some user => cases hm
  | flushing user object readAt result =>
      simp only [move] at hm
      split at hm
      · next hempty =>
          cases hm
          obtain ⟨⟨db, hmem, hrow⟩, hcheck⟩ := h
          refine .read db hmem readAt result ?_
          have hauth := authenticate_eq hrow call.password readAt
          rw [hcheck, update_isEmpty hempty] at hauth
          exact hauth
      · cases hm
  | committing user object readAt result =>
      cases hm
      exact .write user object readAt result rfl h

theorem counting_keeps (env : Env) (db : Db) :
    (engine env).Keeps (Accounted env db) (fun v _ t => Fits env v t)
      (fun s e => current env s e = true) := by
  refine ⟨?_, ?_, ?_, ?_⟩
  · intro v call t h
    cases h
    trivial
  · intro s tid now t k t' _ _ hI hm _
    exact fits_goes hI hm
  · intro s tid now t v out hq ht hG hI hm
    cases commit_cases hI hm with
    | read db₁ mem readAt result alone => exact hG.read mem alone
    | write user object readAt result stage checked =>
        -- the row is still the one the call computed its columns from
        have hrow : userByEmail env s.db.db t.call.email = some user := by
          obtain ⟨call, next⟩ := t
          change next = _ at stage
          subst stage
          simpa [current, ht] using hq
        refine hG.write ?_
        have hauth := authenticate_eq hrow t.call.password readAt
        rw [checked] at hauth
        exact hauth
  · intro s tid now t v out H t' _ _ hI hm _ hI'
    cases commit_cases hI hm with
    | read db₁ mem readAt result alone => exact hI'
    | write user object readAt result stage checked => exact hI'.commit _

/-- The calls are explained by a serial order where no UPDATE comes from an overtaken row. -/
theorem serializable_of_current (env : Env) (db : Db) (es : List (Event Call Time))
    (h : Along (engine env).step (fun s e => current env s e = true) (.start (.start db)) es) :
    Explains env db es := by
  have hstart : Accounted env db (.start db) [] := explained_start
  exact ((counting_keeps env db).run hstart h).committed.serializable

/-- A call and its statements, with nobody in between. -/
def whole (tid : ℕ) (call : Call) (now : Time) : List (Event Call Time) :=
  [.start tid call, .stmt tid now, .stmt tid now, .stmt tid now, .stmt tid now]

theorem alone (env : Env) (db : Db) (call : Call) (now : Time) :
    (run (engine env).step (.start (.start db)) (whole 0 call now)).db.db =
        (serial env ⟨call, now⟩ db).2 ∧
      (run (engine env).step (.start (.start db)) (whole 0 call now)).out =
        [(⟨call, now⟩, (serial env ⟨call, now⟩ db).1)] := by
  unfold serial whole
  cases hrow : userByEmail env db call.email with
  | none =>
      rw [authenticate_none hrow]
      simp [run, Engine.step, engine, move, World.start, World.put, World.close, Versions.start,
        hrow]
  | some user =>
      rw [authenticate_eq hrow]
      by_cases hempty : (changes user (check env user call.password now).2).isEmpty = true
      · rw [update_isEmpty hempty]
        simp [run, Engine.step, engine, move, World.start, World.put, World.close, Versions.start,
          hrow, hempty]
      · simp [run, Engine.step, engine, move, World.start, World.put, World.grab, World.close,
          Versions.start, Versions.commit, hrow, hempty]

/-! ## Two wrong passwords -/

def oneUser : Db :=
  { Db.empty with
    users :=
      ⟨[{ id := "u", email := "u", passwordHash := some "pw", status := .active }], by decide⟩ }

def wrong : Call := ⟨"u", "x"⟩

def right : Call := ⟨"u", "pw"⟩

/-- A wrong and a right password at once: the second call reads the row before the first writes
    it, and writes nothing. The third, another wrong one, has begun but not read. -/
def crossing : List (Event Call Time) :=
  [.start 0 wrong, .start 1 right, .start 2 wrong, .stmt 0 1, .stmt 1 1, .stmt 0 1, .stmt 0 1,
   .stmt 1 1, .stmt 0 1, .stmt 1 1, .stmt 2 2, .stmt 2 2, .stmt 2 2, .stmt 2 2]

/-- All three end, and some order of them explains it. -/
theorem crossing_explained :
    (run (engine plainEnv).step (.start (.start oneUser)) crossing).out.length = 3 ∧
      Explains plainEnv oneUser crossing :=
  ⟨by decide +kernel, serializable_of_current plainEnv oneUser _ (by decide +kernel)⟩

/-- Both have read the row before the first of them writes it. -/
def overlapping : List (Event Call Time) :=
  [.start 0 wrong, .start 1 wrong, .stmt 0 1, .stmt 1 1, .stmt 0 1, .stmt 1 1, .stmt 0 1,
   .stmt 0 1, .stmt 1 1, .stmt 1 1]

/-- Both fail, and the row counts one failure. -/
theorem lost_failure : ¬ ∀ env db es, Explains env db es := by
  intro h
  obtain ⟨order, hperm, hserial⟩ := h plainEnv oneUser overlapping
  have hout : (run (engine plainEnv).step (.start (.start oneUser)) overlapping).out =
      List.replicate 2 (⟨wrong, 1⟩, .error .invalidCredentials) := by
    decide +kernel
  rw [hout, List.perm_replicate] at hperm
  rw [hperm] at hserial
  have hdb : (run (engine plainEnv).step (.start (.start oneUser)) overlapping).db.db =
      (serial plainEnv ⟨wrong, 1⟩ (serial plainEnv ⟨wrong, 1⟩ oneUser).2).2 := hserial.2.2
  have hone : (run (engine plainEnv).step (.start (.start oneUser)) overlapping).db.db.users ≠
      (serial plainEnv ⟨wrong, 1⟩ (serial plainEnv ⟨wrong, 1⟩ oneUser).2).2.users := by
    decide +kernel
  exact hone (congrArg Db.users hdb)

end TemisLab.Sso.Counting
