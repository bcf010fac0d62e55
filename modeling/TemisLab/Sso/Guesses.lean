/-
  Guessing passwords against the lockout (`application/auth.py`). Any requests run one after the
  other on a clock that does not go back. A log keeps when the password check of an account
  failed, and when a login or a reset of its password cleared its counters.

  * `counters_run`: the counters of a row are the tally of its account's log.
  * `lockout_bounds_guessing`: a window of length `T` without a cleared counter has at most
    `3 + ⌊T / 300⌋` failed checks; and after a failure that brings the counter to three, every
    call of the next 300 seconds is refused and writes nothing, unless a reset comes between.
-/
import TemisLab.Lib.Spacing
import TemisLab.Sso.Requests

namespace TemisLab.Sso.Guesses

open TemisLab.Lib

/-- The account whose password check runs and fails in `authenticate`. -/
def failedCheck (env : Env) (db : Db) (email password : String) (now : Time) : Option String :=
  match userByEmail env db email with
  | none => none
  | some user =>
      match user.passwordHash with
      | none => none
      | some hash =>
          if user.isLocked now then none
          else if !env.verifyPassword hash password then some user.id
          else none

/-- What a transaction is for the lockout of an account: a failed check (`true`), or a login or
    a new password (`false`). -/
def mark (env : Env) (s : Sys) : Tx → Option (String × Bool)
  | .authenticate _ email password now =>
      match failedCheck env s.db email password now with
      | some v => some (v, true)
      | none =>
          match (authenticate env s.db email password now).1 with
          | .ok who => some (who.userId, false)
          | .error _ => none
  | .storePassword rid passwordHash =>
      match s.pending rid with
      | some (.storePassword v) =>
          match storePassword s.db v passwordHash with
          | .ok _ => some (v, false)
          | .error _ => none
      | _ => none
  | _ => none

/-- The transaction with the reading of the clock it makes. -/
def readAt (t : Time) : Tx → Tx
  | .issueOneTime rid raw _ => .issueOneTime rid raw t
  | .authenticate rid email password _ => .authenticate rid email password t
  | .consumeVerify rid raw _ => .consumeVerify rid raw t
  | .consumeReset rid raw _ => .consumeReset rid raw t
  | .rotate rid raw new _ => .rotate rid raw new t
  | .logout raw _ => .logout raw t
  | .bundle rid fresh activeKid _ => .bundle rid fresh activeKid t
  | .admin op _ => .admin op t
  | l => l

structure State where
  sys : Sys
  clock : Time
  log : List (String × Mark Time)

def State.start (clock : Time) : State := ⟨.start .empty, clock, []⟩

/-- When a transaction asked for at `now` runs. -/
def State.at (s : State) (now : Time) : Time := max s.clock now

/-- The log of one account, newest first. -/
def State.marks (s : State) (v : String) : List (Mark Time) :=
  (s.log.filter fun e => e.1 = v).map Prod.snd

def step (env : Env) (s : State) : Time × Tx → State
  | (now, l) =>
      let t := s.at now
      ⟨Sso.step env s.sys (readAt t l), t,
        (mark env s.sys (readAt t l)).elim s.log fun m => (m.1, t, m.2) :: s.log⟩

/-- `failed_logins` and `locked_until` of an account; a new one has none of either. -/
def counters (db : Db) (v : String) : ℤ × Option Time :=
  (db.user v).elim (0, none) fun u => (u.failedLogins, u.lockedUntil)

/-- The counters after one more failure. -/
def countFailure (t : Time) (c : ℤ × Option Time) : ℤ × Option Time :=
  (c.1 + 1, if 3 ≤ c.1 + 1 then some (t + 5 * 60) else c.2)

/-- The counters a log comes to. -/
def tally : List (Mark Time) → ℤ × Option Time
  | [] => (0, none)
  | (t, true) :: log => countFailure t (tally log)
  | (_, false) :: _ => (0, none)

/-! ## Who writes the counters -/

theorem counters_of_users {db db' : Db} (h : db'.users = db.users) :
    counters db' = counters db := by
  funext v
  unfold counters Db.user
  rw [h]

theorem counters_row {db : Db} {v : String} {u : User} (h : db.user v = some u) :
    counters db v = (u.failedLogins, u.lockedUntil) := by
  unfold counters
  rw [h]
  rfl

theorem counters_setUser (db : Db) (w : String) (f : User → User) (hf : ∀ u, (f u).id = u.id)
    (v : String) :
    counters (db.setUser w f hf) v =
      if v = w then (db.user w).elim (0, none) fun u => ((f u).failedLogins, (f u).lockedUntil)
      else counters db v := by
  unfold counters
  rw [Db.user_setUser]
  by_cases hv : v = w
  · rw [if_pos hv, if_pos hv, hv]
    cases db.user w <;> rfl
  · rw [if_neg hv, if_neg hv]

/-- Assignments to other columns. -/
theorem counters_setUser_same (db : Db) (w : String) (f : User → User)
    (hf : ∀ u, (f u).id = u.id)
    (hk : ∀ u : User, (f u).failedLogins = u.failedLogins ∧ (f u).lockedUntil = u.lockedUntil) :
    counters (db.setUser w f hf) = counters db := by
  funext v
  rw [counters_setUser]
  by_cases hv : v = w
  · rw [if_pos hv, hv]
    unfold counters
    cases db.user w with
    | none => rfl
    | some u => exact Prod.ext (hk u).1 (hk u).2
  · rw [if_neg hv]

theorem counters_createUser {env : Env} {db db' : Db} {uid email : String} {hash : Option String}
    {user : User} (h : createUser env db uid email hash = some (user, db')) :
    counters db' = counters db := by
  funext v
  have hrow := user_createUser h v
  obtain ⟨huser, users, hi, -⟩ := createUser_eq_some h
  have hnew : db.user uid = none := by
    have hkey := (Table.insert_eq_some hi).1
    rw [key_user, huser] at hkey
    exact hkey
  unfold counters
  rw [hrow]
  by_cases hv : uid = v
  · rw [if_pos hv, ← hv, hnew, huser]
    rfl
  · rw [if_neg hv]

theorem counters_createActive {env : Env} {db db' : Db} {uid email role id : String}
    (h : createActive env db uid email role = some (id, db')) : counters db' = counters db := by
  obtain ⟨user, db₁, roles, hc, -, -, rfl⟩ := createActive_writes h
  have hset : counters (setStatus db₁ user.id .active) = counters db₁ :=
    counters_setUser_same db₁ user.id _ _ fun _ => ⟨rfl, rfl⟩
  exact (counters_of_users rfl).trans (hset.trans (counters_createUser hc))

theorem counters_oauthUser {env : Env} {db db' : Db} {subject role uid id : String}
    (h : oauthUser env db subject role uid = .ok (id, db')) : counters db' = counters db := by
  rcases oauthUser_eq_ok h with ⟨u, -, -, rfl⟩ | hc
  · rfl
  · exact counters_createActive hc

theorem counters_provisionUser {domain : String} {env : Env} {db db' : Db}
    {identity : ExternalIdentity} {uid id : String}
    (h : provisionUser domain env db identity uid = .ok (id, db')) :
    counters db' = counters db := by
  rcases provisionUser_eq_ok h with ⟨-, rfl⟩ | ⟨db₁, -, hc, hl⟩
  · rfl
  · obtain ⟨links, rfl⟩ := insertLink_eq_some hl
    have hsame := counters_createActive hc
    exact hsame

theorem counters_effect {o : AdminOp} {now : Time} {db db' : Db} (h : o.Effect now db db') :
    counters db' = counters db := by
  funext v
  unfold counters
  by_cases hv : v = o.target
  · obtain ⟨u, hu⟩ := h.found
    rw [hv, h.target u hu, hu]
    rfl
  · rw [h.others v hv]

/-- What one call of `authenticate` does to the counters. -/
inductive Attempt (env : Env) (db : Db) (email password : String) (now : Time) : Prop where
  | refused (e : AuthError) (unchecked : failedCheck env db email password now = none)
      (result : authenticate env db email password now = (.error e, db))
  | failed (u : User) (row : db.user u.id = some u) (unlocked : u.isLocked now = false)
      (checked : failedCheck env db email password now = some u.id)
      (result : authenticate env db email password now =
        (.error .invalidCredentials, db.setUser u.id (User.recordFailure now) fun _ => rfl))
  | passed (u : User) (row : db.user u.id = some u) (unlocked : u.isLocked now = false)
      (unchecked : failedCheck env db email password now = none)
      (result : authenticate env db email password now =
        (.ok ⟨u.id, u.email⟩, db.setUser u.id User.clearFailures fun _ => rfl))

theorem attempt (env : Env) (db : Db) (email password : String) (now : Time) :
    Attempt env db email password now := by
  cases hfound : userByEmail env db email with
  | none =>
      refine .refused .invalidCredentials ?_ ?_
      · unfold failedCheck
        rw [hfound]
      · unfold authenticate
        rw [hfound]
  | some u =>
      obtain ⟨hrow, -⟩ := userByEmail_eq_some hfound
      cases hhash : u.passwordHash with
      | none =>
          exact .refused .invalidCredentials (by simp [failedCheck, hfound, hhash])
            (by simp [authenticate, hfound, hhash])
      | some hash =>
          by_cases hlocked : u.isLocked now = true
          · exact .refused .invalidCredentials (by simp [failedCheck, hfound, hhash, hlocked])
              (by simp [authenticate, hfound, hhash, hlocked])
          · rw [Bool.not_eq_true] at hlocked
            by_cases hverify : env.verifyPassword hash password = true
            · have hunchecked : failedCheck env db email password now = none := by
                simp [failedCheck, hfound, hhash, hverify]
              cases hstatus : u.status with
              | pending =>
                  exact .refused .verificationRequired hunchecked
                    (by simp [authenticate, hfound, hhash, hlocked, hverify, hstatus])
              | suspended =>
                  exact .refused .invalidCredentials hunchecked
                    (by simp [authenticate, hfound, hhash, hlocked, hverify, hstatus])
              | active =>
                  exact .passed u hrow hlocked hunchecked
                    (by simp [authenticate, hfound, hhash, hlocked, hverify, hstatus])
            · exact .failed u hrow hlocked
                (by simp [failedCheck, hfound, hhash, hlocked, hverify])
                (by simp [authenticate, hfound, hhash, hlocked, hverify])

/-- What a transaction does to the counters, by its mark. -/
inductive Counted (t : Time) (db db' : Db) : Option (String × Bool) → Prop where
  | kept (same : counters db' = counters db) : Counted t db db' none
  | failed (v : String) (counted : counters db' =
      Function.update (counters db) v (countFailure t (counters db v))) :
      Counted t db db' (some (v, true))
  | cleared (v : String) (reset : counters db' = Function.update (counters db) v (0, none)) :
      Counted t db db' (some (v, false))

/-- A row that is not locked has no deadline ahead. -/
theorem deadline_le {db : Db} {v : String} {u : User} {t : Time} (h : db.user v = some u)
    (hu : u.isLocked t = false) (deadline : Time) (hd : (counters db v).2 = some deadline) :
    deadline ≤ t := by
  rw [counters_row h] at hd
  change u.lockedUntil = some deadline at hd
  unfold User.isLocked at hu
  rw [hd] at hu
  simpa using hu

/-- A call that `authenticate` does not refuse finds no deadline ahead. -/
theorem deadline_of_mark {env : Env} {s : Sys} {rid : ℕ} {email password v : String} {t : Time}
    {b : Bool} (h : mark env s (.authenticate rid email password t) = some (v, b))
    (deadline : Time) (hd : (counters s.db v).2 = some deadline) : deadline ≤ t := by
  cases attempt env s.db email password t with
  | refused e unchecked result =>
      simp [mark, unchecked, result] at h
  | failed u row unlocked checked result =>
      have hv : u.id = v := by
        simp only [mark, checked, Option.some.injEq, Prod.mk.injEq] at h
        exact h.1
      exact deadline_le (hv ▸ row) unlocked deadline hd
  | passed u row unlocked unchecked result =>
      have hv : u.id = v := by
        simp only [mark, unchecked, result, Option.some.injEq, Prod.mk.injEq] at h
        exact h.1
      exact deadline_le (hv ▸ row) unlocked deadline hd

theorem Counted.same (t : Time) (db : Db) : Counted t db db none := .kept rfl

theorem counted_authenticate (env : Env) (s : Sys) (rid : ℕ) (email password : String)
    (t : Time) :
    Counted t s.db (Sso.step env s (.authenticate rid email password t)).db
      (mark env s (.authenticate rid email password t)) := by
  cases attempt env s.db email password t with
  | refused e unchecked result =>
      have hmark : mark env s (.authenticate rid email password t) = none := by
        simp [mark, unchecked, result]
      rw [hmark]
      simp only [Sso.step, result]
      exact .same t s.db
  | failed u row unlocked checked result =>
      have hmark : mark env s (.authenticate rid email password t) = some (u.id, true) := by
        simp [mark, checked]
      rw [hmark]
      simp only [Sso.step, result]
      refine .failed u.id ?_
      funext v
      refine (counters_setUser s.db u.id (User.recordFailure t) (fun _ => rfl) v).trans ?_
      by_cases hv : v = u.id
      · rw [if_pos hv, hv, Function.update_self, counters_row row, row]
        rfl
      · rw [if_neg hv, Function.update_of_ne hv]
  | passed u row unlocked unchecked result =>
      have hmark : mark env s (.authenticate rid email password t) = some (u.id, false) := by
        simp [mark, unchecked, result]
      rw [hmark]
      simp only [Sso.step, result]
      refine .cleared u.id ?_
      funext v
      refine (counters_setUser s.db u.id User.clearFailures (fun _ => rfl) v).trans ?_
      by_cases hv : v = u.id
      · rw [if_pos hv, hv, Function.update_self, row]
        rfl
      · rw [if_neg hv, Function.update_of_ne hv]

theorem counted_storePassword (env : Env) (s : Sys) (rid : ℕ) (passwordHash : String) (t : Time) :
    Counted t s.db (Sso.step env s (.storePassword rid passwordHash)).db
      (mark env s (.storePassword rid passwordHash)) := by
  simp only [Sso.step, mark]
  generalize s.pending rid = next
  cases next with
  | none => exact .same t s.db
  | some next =>
      cases next with
      | storePassword v =>
          cases hs : storePassword s.db v passwordHash with
          | error e =>
              simp only [hs]
              exact .same t s.db
          | ok db =>
              simp only [hs]
              refine .cleared v ?_
              funext w
              change counters db w = _
              rw [storePassword_eq_ok hs]
              refine (counters_setUser s.db v (User.withPassword passwordHash)
                (fun _ => rfl) w).trans ?_
              by_cases hw : w = v
              · rw [if_pos hw, hw, Function.update_self]
                cases s.db.user v <;> rfl
              · rw [if_neg hw, Function.update_of_ne hw]
      | _ => exact .same t s.db

/-- Only `authenticate` and the second block of `reset_password` write the counters. -/
theorem counters_step (env : Env) (s : Sys) (l : Tx)
    (hlogin : ∀ rid email password now, l ≠ .authenticate rid email password now)
    (hreset : ∀ rid passwordHash, l ≠ .storePassword rid passwordHash) :
    counters (Sso.step env s l).db = counters s.db := by
  have hc := step_committed env s l
  generalize Sso.step env s l = s' at hc ⊢
  cases hc with
  | stayed | ended | asked | google | loggedOut => rfl
  | registered rid uid email passwordHash who db hregister =>
      obtain ⟨user, hcreate, -⟩ := registerUser_eq_ok hregister
      exact counters_createUser hcreate
  | issued rid raw now userId purpose db hpending hissue =>
      obtain ⟨tokens, rfl⟩ := issueOneTime_eq_some hissue
      exact counters_of_users rfl
  | authenticated rid email password now => exact absurd rfl (hlogin rid email password now)
  | verified rid raw now userId db hconsume =>
      obtain ⟨-, -, -, tokens, rfl⟩ := consumeOneTime_eq_ok hconsume
      exact counters_of_users rfl
  | activated rid userId hpending =>
      exact counters_setUser_same s.db userId _ _ fun _ => ⟨rfl, rfl⟩
  | redeemed rid raw now userId db hconsume =>
      obtain ⟨-, -, -, tokens, rfl⟩ := consumeOneTime_eq_ok hconsume
      exact counters_of_users rfl
  | stored rid passwordHash => exact absurd rfl (hreset rid passwordHash)
  | rotated rid raw new now userId aud db rotation hpresented hsuccessor hversion hrotate =>
      obtain ⟨g, grants, g', -, -, -, -, -, -, -, -, -, -, rfl⟩ := rotateRefresh_eq_some hrotate
      exact counters_of_users rfl
  | bundled rid fresh activeKid now userId aud refreshToken via bundle db hpending hissue =>
      obtain ⟨-, -, -, -, -, -, -, hr⟩ := issueBundle_eq_ok hissue
      rcases bundleRefresh_eq_some hr with ⟨-, rfl⟩ | ⟨-, hi⟩
      · rfl
      · obtain ⟨grants, g, -, -, -, -, -, rfl⟩ := issueRefresh_eq_some hi
        exact counters_of_users rfl
  | administered op now db hexec => exact counters_effect (AdminOp.exec_effect hexec)
  | tokenUser rid subject role uid aud userId db huser => exact counters_oauthUser huser
  | naver rid identity uid userId db huser => exact counters_provisionUser huser
  | kakao rid identity uid userId db huser => exact counters_provisionUser huser
  | linked userId identity db hlink =>
      obtain ⟨links, rfl⟩ := insertLink_eq_some hlink
      exact counters_of_users rfl
  | unlinked provider userId accepted db hrevoke =>
      obtain ⟨links, rfl⟩ := revokeLink_eq_some hrevoke
      exact counters_of_users rfl

theorem counted_step (env : Env) (s : Sys) (t : Time) (l : Tx) :
    Counted t s.db (Sso.step env s (readAt t l)).db (mark env s (readAt t l)) := by
  cases l with
  | authenticate rid email password now => exact counted_authenticate env s rid email password t
  | storePassword rid passwordHash => exact counted_storePassword env s rid passwordHash t
  | _ => exact .kept (counters_step env s _ (by simp [readAt]) (by simp [readAt]))

/-! ## The log and the counters -/

/-- The number of failures a log counts, and the deadline from the third on. -/
theorem tally_streak (log : List (Mark Time)) :
    (tally log).1 = (streak log).length ∧
      (3 ≤ (streak log).length → (tally log).2 = (streak log).head?.map (· + 5 * 60)) := by
  induction log with
  | nil => exact ⟨rfl, fun h => absurd h (by decide)⟩
  | cons m log ih =>
      obtain ⟨t, failed⟩ := m
      cases failed with
      | false => exact ⟨rfl, fun h => absurd h (by simp [streak])⟩
      | true =>
          have hcount : (tally ((t, true) :: log)).1 = (streak ((t, true) :: log)).length := by
            change (tally log).1 + 1 = ((streak log).length + 1 : ℕ)
            rw [ih.1]
            rfl
          refine ⟨hcount, ?_⟩
          intro hlong
          have hthree : 3 ≤ (tally log).1 + 1 := by
            change (3 : ℤ) ≤ (tally ((t, true) :: log)).1
            rw [hcount]
            exact_mod_cast hlong
          change (if 3 ≤ (tally log).1 + 1 then some (t + 5 * 60) else (tally log).2) = _
          rw [if_pos hthree]
          rfl

/-- The counters of an account are those of its log, and the log is throttled. -/
structure Fair (clock : Time) (c : ℤ × Option Time) (log : List (Mark Time)) : Prop where
  counted : c = tally log
  past : ∀ m ∈ log, m.1 ≤ clock
  ordered : Chronological log
  throttled : Throttled 3 300 log

variable {clock t : Time} {c : ℤ × Option Time} {log : List (Mark Time)}

theorem Fair.later (h : Fair clock c log) (hle : clock ≤ t) : Fair t c log :=
  ⟨h.counted, fun m hm => le_trans (h.past m hm) hle, h.ordered, h.throttled⟩

theorem Fair.ordered_cons (h : Fair clock c log) (hle : clock ≤ t) (b : Bool) :
    Chronological ((t, b) :: log) ∧ ∀ m ∈ (t, b) :: log, m.1 ≤ t := by
  have hbound : ∀ m ∈ log, m.1 ≤ t := (h.later hle).past
  refine ⟨List.pairwise_cons.mpr ⟨hbound, h.ordered⟩, ?_⟩
  intro m hm
  rcases List.mem_cons.mp hm with rfl | hm
  · exact le_refl _
  · exact hbound m hm

theorem Fair.clear (h : Fair clock c log) (hle : clock ≤ t) :
    Fair t (0, none) ((t, false) :: log) :=
  ⟨rfl, (h.ordered_cons hle false).2, (h.ordered_cons hle false).1, h.throttled⟩

/-- A failure with no deadline ahead comes 300 seconds after the last one of a long streak. -/
theorem Fair.fail (h : Fair clock c log) (hle : clock ≤ t)
    (hdue : ∀ deadline, c.2 = some deadline → deadline ≤ t) :
    Fair t (countFailure t c) ((t, true) :: log) := by
  refine ⟨?_, (h.ordered_cons hle true).2, (h.ordered_cons hle true).1, ?_, h.throttled⟩
  · rw [h.counted]
    rfl
  · intro hlong last hlast
    refine hdue _ ?_
    rw [h.counted, (tally_streak log).2 hlong, Option.mem_def.mp hlast]
    norm_num

def Inv (s : State) : Prop := ∀ v, Fair s.clock (counters s.sys.db v) (s.marks v)

theorem inv_start (clock : Time) : Inv (.start clock) :=
  fun _ => ⟨rfl, by simp [State.marks, State.start], List.Pairwise.nil, trivial⟩

/-- The log of an account after a step. -/
theorem marks_step (env : Env) (s : State) (now : Time) (l : Tx) (v : String) :
    (step env s (now, l)).marks v =
      match mark env s.sys (readAt (s.at now) l) with
      | none => s.marks v
      | some (w, b) => if w = v then (s.at now, b) :: s.marks v else s.marks v := by
  unfold State.marks step
  simp only
  cases mark env s.sys (readAt (s.at now) l) with
  | none => rfl
  | some m =>
      by_cases hv : m.1 = v
      · simp [hv]
      · simp [hv]

theorem clock_step (env : Env) (s : State) (e : Time × Tx) : s.clock ≤ (step env s e).clock :=
  le_max_left _ _

/-- A failed check finds no deadline ahead. -/
theorem deadline_of_failed {env : Env} {s : Sys} {l : Tx} {v : String} {t : Time}
    (h : mark env s (readAt t l) = some (v, true)) (deadline : Time)
    (hd : (counters s.db v).2 = some deadline) : deadline ≤ t := by
  cases l with
  | authenticate rid email password now => exact deadline_of_mark h deadline hd
  | storePassword rid passwordHash =>
      simp only [readAt, mark] at h
      split at h
      · split at h <;> simp at h
      · simp at h
  | _ => simp [readAt, mark] at h

theorem inv_step (env : Env) (s : State) (e : Time × Tx) (h : Inv s) : Inv (step env s e) := by
  obtain ⟨now, l⟩ := e
  intro v
  have hle : s.clock ≤ s.at now := le_max_left _ _
  have hcounted := counted_step env s.sys (s.at now) l
  have hmarks := marks_step env s now l v
  change Fair (s.at now) (counters (Sso.step env s.sys (readAt (s.at now) l)).db v)
    ((step env s (now, l)).marks v)
  rw [hmarks]
  cases hmark : mark env s.sys (readAt (s.at now) l) with
  | none =>
      rw [hmark] at hcounted
      cases hcounted with
      | kept same =>
          rw [same]
          exact (h v).later hle
  | some m =>
      obtain ⟨w, b⟩ := m
      rw [hmark] at hcounted
      dsimp only
      by_cases hw : w = v
      · rw [if_pos hw]
        cases hcounted with
        | failed w counted =>
            rw [counted, hw, Function.update_self]
            exact (h v).fail hle (deadline_of_failed (hw ▸ hmark))
        | cleared w reset =>
            rw [reset, hw, Function.update_self]
            exact (h v).clear hle
      · rw [if_neg hw]
        cases hcounted with
        | failed w counted =>
            rw [counted, Function.update_of_ne (Ne.symm hw)]
            exact (h v).later hle
        | cleared w reset =>
            rw [reset, Function.update_of_ne (Ne.symm hw)]
            exact (h v).later hle

theorem inv_run (env : Env) (clock : Time) (ls : List (Time × Tx)) :
    Inv (run (step env) (.start clock) ls) :=
  run_always (step env) Inv (inv_step env) (inv_start clock) ls

/-- The counters of a row are what the log of its account comes to. -/
theorem counters_run (env : Env) (clock : Time) (ls : List (Time × Tx)) (v : String) :
    counters (run (step env) (.start clock) ls).sys.db v =
      tally ((run (step env) (.start clock) ls).marks v) :=
  (inv_run env clock ls v).counted

/-! ## The lock -/

/-- The transaction is the second block of a `reset_password` of the account. -/
def Resets (env : Env) (s : State) (e : Time × Tx) (v : String) : Prop :=
  ∃ rid passwordHash, e.2 = .storePassword rid passwordHash ∧ mark env s.sys e.2 = some (v, false)

/-- Every call for the account is refused, whatever the password, and writes nothing. -/
def Refuses (env : Env) (db : Db) (v : String) (t : Time) : Prop :=
  ∀ email password u, userByEmail env db email = some u → u.id = v →
    authenticate env db email password t = (.error .invalidCredentials, db)

theorem refuses_of_deadline {env : Env} {db : Db} {v : String} {deadline : Time}
    (h : (counters db v).2 = some deadline) (ht : t < deadline) : Refuses env db v t := by
  intro email password u hfound hv
  have hrow := (userByEmail_eq_some hfound).1
  rw [hv] at hrow
  rw [counters_row hrow] at h
  have hlocked : u.isLocked t = true := by
    change u.lockedUntil = some deadline at h
    unfold User.isLocked
    rw [h]
    simpa using ht
  unfold authenticate
  rw [hfound]
  cases hhash : u.passwordHash with
  | none => simp [hhash]
  | some hash => simp [hhash, hlocked]

/-- Until the deadline only a reset marks the account. -/
theorem held_step (env : Env) (v : String) (deadline : Time) (s : State) (e : Time × Tx)
    (h : s.clock < deadline → (counters s.sys.db v).2 = some deadline)
    (hreset : ¬ Resets env s e v) :
    (step env s e).clock < deadline →
      (counters (step env s e).sys.db v).2 = some deadline := by
  obtain ⟨now, l⟩ := e
  intro ht
  change s.at now < deadline at ht
  have hheld := h (lt_of_le_of_lt (le_max_left _ _) ht)
  have hcounted := counted_step env s.sys (s.at now) l
  change (counters (Sso.step env s.sys (readAt (s.at now) l)).db v).2 = some deadline
  cases hmark : mark env s.sys (readAt (s.at now) l) with
  | none =>
      rw [hmark] at hcounted
      cases hcounted with
      | kept same => rw [same, hheld]
  | some m =>
      obtain ⟨w, b⟩ := m
      rw [hmark] at hcounted
      have hne : w ≠ v := by
        intro hw
        rw [hw] at hmark
        cases l with
        | authenticate rid email password now =>
            exact absurd ht (not_lt.mpr (deadline_of_mark hmark deadline hheld))
        | storePassword rid passwordHash =>
            cases b with
            | true => exact absurd ht (not_lt.mpr (deadline_of_failed hmark deadline hheld))
            | false => exact hreset ⟨rid, passwordHash, rfl, hmark⟩
        | _ => simp [readAt, mark] at hmark
      cases hcounted with
      | failed w counted => rw [counted, Function.update_of_ne (Ne.symm hne), hheld]
      | cleared w reset => rw [reset, Function.update_of_ne (Ne.symm hne), hheld]

/-- The failure that brings the counter to three sets the deadline. -/
theorem deadline_of_third {env : Env} {s : State} {now : Time} {l : Tx} {v : String}
    (hfailed : mark env s.sys (readAt (s.at now) l) = some (v, true))
    (hthird : 3 ≤ (counters (step env s (now, l)).sys.db v).1) :
    (counters (step env s (now, l)).sys.db v).2 = some (s.at now + 300) := by
  have hcounted := counted_step env s.sys (s.at now) l
  rw [hfailed] at hcounted
  cases hcounted with
  | failed w counted =>
      have hafter : counters (step env s (now, l)).sys.db v =
          countFailure (s.at now) (counters s.sys.db v) := by
        change counters (Sso.step env s.sys (readAt (s.at now) l)).db v = _
        rw [counted, Function.update_self]
      rw [hafter] at hthird ⊢
      have hthree : 3 ≤ (counters s.sys.db v).1 + 1 := hthird
      change (if 3 ≤ (counters s.sys.db v).1 + 1 then _ else _) = _
      rw [if_pos hthree]
      norm_num

/-- The lockout bounds how often the password of an account is tried. -/
theorem lockout_bounds_guessing (env : Env) (clock : Time) (ls : List (Time × Tx)) (v : String) :
    (∀ a T : Time,
      (∀ m ∈ (run (step env) (.start clock) ls).marks v, m.2 = false →
        ¬ (a ≤ m.1 ∧ m.1 ≤ a + T)) →
      (failuresIn a (a + T) ((run (step env) (.start clock) ls).marks v)).length ≤
        3 + ⌊T / 300⌋₊) ∧
    (∀ pre now l post, ls = pre ++ (now, l) :: post →
      mark env (run (step env) (.start clock) pre).sys
        (readAt ((run (step env) (.start clock) pre).at now) l) = some (v, true) →
      3 ≤ (counters (run (step env) (.start clock) (pre ++ [(now, l)])).sys.db v).1 →
      Along (step env) (fun s e => ¬ Resets env s e v)
        (run (step env) (.start clock) (pre ++ [(now, l)])) post →
      ∀ now', (run (step env) (.start clock) ls).at now' <
          (run (step env) (.start clock) pre).at now + 300 →
        Refuses env (run (step env) (.start clock) ls).sys.db v
          ((run (step env) (.start clock) ls).at now')) := by
  refine ⟨?_, ?_⟩
  · intro a T hcleared
    have hfair := inv_run env clock ls v
    have hwindow := hfair.throttled.window (by decide) (by norm_num) hfair.ordered hcleared
    rw [add_sub_cancel_left] at hwindow
    exact hwindow
  · intro pre now l post hls hfailed hthird hkept now' hsoon
    rw [run_append] at hthird hkept
    have hdeadline := deadline_of_third hfailed hthird
    have hheld := run_invariant (step env)
      (fun s => s.clock < (run (step env) (.start clock) pre).at now + 300 →
        (counters s.sys.db v).2 = some ((run (step env) (.start clock) pre).at now + 300))
      (fun s e => held_step env v _ s e) (fun _ => hdeadline) hkept
    have hrun : run (step env) (.start clock) ls =
        run (step env) (step env (run (step env) (.start clock) pre) (now, l)) post := by
      rw [hls, run_append]
      rfl
    rw [hrun] at hsoon ⊢
    exact refuses_of_deadline (hheld (lt_of_le_of_lt (le_max_left _ _) hsoon)) hsoon

/-- Three wrong passwords in twenty seconds, and then the right one. -/
def thirdFailure : List (Time × Tx) :=
  [(0, .register 0 "u" "u" "pw"), (0, .authenticate 1 "u" "x" 0), (10, .authenticate 2 "u" "y" 0)]

theorem third_failure_locks :
    (failuresIn 0 (0 + 319) ((run (step plainEnv) (.start 0)
      (thirdFailure ++ (20, .authenticate 3 "u" "z" 0) ::
        [(30, .authenticate 4 "u" "pw" 0)])).marks "u")).length ≤ 3 + ⌊(319 : ℚ) / 300⌋₊ ∧
      Refuses plainEnv (run (step plainEnv) (.start 0)
        (thirdFailure ++ (20, .authenticate 3 "u" "z" 0) ::
          [(30, .authenticate 4 "u" "pw" 0)])).sys.db "u"
        ((run (step plainEnv) (.start 0) (thirdFailure ++ (20, .authenticate 3 "u" "z" 0) ::
          [(30, .authenticate 4 "u" "pw" 0)])).at 319) := by
  obtain ⟨hwindow, hlock⟩ := lockout_bounds_guessing plainEnv 0
    (thirdFailure ++ (20, .authenticate 3 "u" "z" 0) :: [(30, .authenticate 4 "u" "pw" 0)]) "u"
  refine ⟨hwindow 0 319 (by decide +kernel), ?_⟩
  refine hlock thirdFailure 20 (.authenticate 3 "u" "z" 0) [(30, .authenticate 4 "u" "pw" 0)] rfl
    (by decide +kernel) (by decide +kernel) ⟨?_, trivial⟩ 319 (by decide +kernel)
  rintro ⟨rid, passwordHash, h, -⟩
  cases h

end TemisLab.Sso.Guesses
