/-
  The admin operations one after another, where any statement may raise (`application/admin.py`,
  `session_scope`). An operation runs the statements of its program; the numbered one of them,
  or the commit, fails if it is its turn to; `session_scope` commits or rolls back. Between the
  operations users register and sign in.

  * `AllOrNothing`: an operation that raises leaves every table; one that returns changes its target
    only, leaves it no live grant and adds the one audit row of a current admin; a user's version
    counts the audit rows and bootstraps of the user.
  * `admin_audited`: it holds of every run.
  * `attempt_eq`: an attempt without a fault is the operation in one step, as it is on the engine
    of `Statements` (`Alone`).
-/
import TemisLab.Sso.Alone
import TemisLab.Sso.Accounts

namespace TemisLab.Sso.Attempts

open TemisLab.Lib

/-- A call. The statement `fault` counts to raises; the commit comes after the last statement. -/
structure Attempt where
  op : AdminOp
  now : Time
  fault : Option ℕ
  deriving DecidableEq, Repr

inductive Outcome where
  | returned | raised
  deriving DecidableEq, Repr

/-- The statements of a session in turn; `none` is an exception. -/
def body (now : Time) (db : Db) : Option ℕ → List Stmt → Txn → Option Txn
  | fault, [], t => if fault = some 0 then none else some t
  | fault, st :: sts, t =>
      if fault = some 0 then none
      else (t.exec now db st).goesOn.bind fun p => body now db (fault.map (· - 1)) sts p.2

/-- `session_scope`: what the body wrote is committed, or rolled back. -/
def sessionScope (env : Env) (db : Db) (a : Attempt) : Outcome × Db :=
  match body a.now db a.fault a.op.program { call := .admin a.op, rest := a.op.program } with
  | none => (.raised, db)
  | some t =>
      match applyAll env db t.writes with
      | none => (.raised, db)
      | some db' => (.returned, db')

/-- The operation; `SelfActionError` is raised before the session. -/
def attempt (env : Env) (db : Db) (a : Attempt) : Outcome × Db :=
  if a.op.isSelfAction then (.raised, db) else sessionScope env db a

/-- The tables, and the users of the bootstraps that returned. -/
structure State where
  db : Db
  bootstraps : List String

def State.start (db : Db) : State := ⟨db, []⟩

inductive Label where
  | attempt (a : Attempt)
  | register (uid email passwordHash : String)
  | issue (userId aud raw : String) (now : Time)
  deriving DecidableEq, Repr

def step (env : Env) (s : State) : Label → State
  | .attempt a =>
      match Attempts.attempt env s.db a with
      | (.raised, db) => { s with db }
      | (.returned, db) =>
          { db
            bootstraps := if a.op.actor = none then a.op.target :: s.bootstraps
              else s.bootstraps }
  | .register uid email passwordHash =>
      match registerUser env s.db uid email passwordHash with
      | .error _ => s
      | .ok (_, db) => { s with db }
  | .issue userId aud raw now =>
      match issueRefresh env s.db userId aud raw now with
      | none => s
      | some db => { s with db }

/-! ## The claims of a run -/

/-- What an operation that returned did. -/
structure Commits (o : AdminOp) (now : Time) (db db' : Db) : Prop where
  users : ∀ v, v ≠ o.target → db'.user v = db.user v
  roles : ∀ v, v ≠ o.target → ∀ r, db'.hasRole v r = db.hasRole v r
  grants : db'.refreshGrants.rows = db.refreshGrants.rows.map
    fun g => if liveGrantOf o.target g then g.consume now else g
  noLive : ∀ g ∈ db'.refreshGrants.rows, g.userId = o.target → g.isLive = false
  tokens : db'.oneTimeTokens = db.oneTimeTokens
  links : db'.links = db.links
  bootstrap : o.actor = none → db'.auditLogs = db.auditLogs
  audit : ∀ actor, o.actor = some actor → db.isCurrentAdmin actor = true ∧
    ∃ action details, db'.auditLogs = db.auditLogs ++ [⟨actor, o.target, action, details⟩]

/-- Each version is one more than the audit rows and the bootstraps of its user. -/
structure Counted (s : State) : Prop where
  versions : ∀ v u, s.db.user v = some u → u.authzVersion =
    1 + (s.db.auditLogs.countP fun row => row.targetId = v) + s.bootstraps.count v
  audited : ∀ row ∈ s.db.auditLogs, ∃ u, s.db.user row.targetId = some u
  bootstrapped : ∀ v ∈ s.bootstraps, ∃ u, s.db.user v = some u

/-- In the run of `ls` from `db`. -/
structure AllOrNothing (env : Env) (db : Db) (ls : List Label) : Prop where
  raised : ∀ pre a post, ls = pre ++ .attempt a :: post →
    let before := run (step env) (.start db) pre
    (attempt env before.db a).1 = .raised → step env before (.attempt a) = before
  returned : ∀ pre a post, ls = pre ++ .attempt a :: post →
    let before := run (step env) (.start db) pre
    (attempt env before.db a).1 = .returned →
      Commits a.op a.now before.db (step env before (.attempt a)).db
  counted : Counted (.start db) → Counted (run (step env) (.start db) ls)

/-! ## What an attempt does -/

theorem body_none (now : Time) (db : Db) (sts : List Stmt) (t : Txn) :
    body now db none sts t = Txn.runs now db sts t := by
  induction sts generalizing t with
  | nil => rfl
  | cons st sts ih =>
      simp only [body, Txn.runs, reduceCtorEq, if_false, Option.map_none, ih]

/-- A statement that fails in its turn ends the body, whatever ran before it. -/
theorem body_fault (now : Time) (db : Db) {k : ℕ} {sts : List Stmt} (hk : k ≤ sts.length)
    (t : Txn) : body now db (some k) sts t = none := by
  induction sts generalizing k t with
  | nil =>
      rw [Nat.le_zero.mp hk]
      rfl
  | cons st sts ih =>
      unfold body
      by_cases h0 : k = 0
      · rw [if_pos (by rw [h0])]
      · rw [if_neg (by simpa using h0)]
        rw [List.length_cons] at hk
        cases (t.exec now db st).goesOn with
        | none => rfl
        | some p => exact ih (show k - 1 ≤ sts.length by omega) p.2

/-- A fault past the commit does not happen. -/
theorem body_late (now : Time) (db : Db) {k : ℕ} {sts : List Stmt} (hk : sts.length < k)
    (t : Txn) : body now db (some k) sts t = Txn.runs now db sts t := by
  induction sts generalizing k t with
  | nil =>
      rw [List.length_nil] at hk
      exact if_neg (by simp; omega)
  | cons st sts ih =>
      unfold body Txn.runs
      rw [List.length_cons] at hk
      rw [if_neg (by simp; omega)]
      cases (t.exec now db st).goesOn with
      | none => rfl
      | some p => exact ih (show sts.length < k - 1 by omega) p.2

/-- The fault comes before the commit is done. -/
def Attempt.faulty (a : Attempt) : Bool := a.fault.any (· ≤ a.op.program.length)

/-- An attempt without a fault does what the operation does in one step. -/
theorem attempt_eq (env : Env) (db : Db) (a : Attempt) :
    attempt env db a =
      if a.faulty then (.raised, db)
      else match a.op.exec env db a.now with
        | .error _ => (.raised, db)
        | .ok db' => (.returned, db') := by
  unfold attempt
  by_cases hself : a.op.isSelfAction = true
  · rw [if_pos hself, exec_selfAction hself]
    split <;> rfl
  · rw [if_neg hself]
    unfold sessionScope
    by_cases hf : a.faulty = true
    · obtain ⟨k, hk, hle⟩ := (Option.any_eq_true _ _).mp hf
      rw [if_pos hf, hk, body_fault a.now db (by simpa using hle)]
    · have hruns : body a.now db a.fault a.op.program
          { call := .admin a.op, rest := a.op.program } =
            Txn.runs a.now db a.op.program { call := .admin a.op, rest := a.op.program } := by
        cases hfault : a.fault with
        | none => exact body_none a.now db _ _
        | some k =>
            refine body_late a.now db ?_ _
            simp only [Attempt.faulty, hfault, Option.any_some, decide_eq_true_eq] at hf
            omega
      have hends : Txn.ends env a.now db a.op.program
          { call := .admin a.op, rest := a.op.program } = committed (a.op.exec env db a.now) :=
        admin_ends a.op (by simpa using hself) (fresh_begin (.admin a.op))
      rw [if_neg hf, hruns]
      unfold Txn.ends committed at hends
      cases hbody : Txn.runs a.now db a.op.program
          { call := .admin a.op, rest := a.op.program } with
      | none =>
          rw [hbody] at hends
          cases hexec : a.op.exec env db a.now with
          | error e => rfl
          | ok db' =>
              rw [hexec] at hends
              cases hends
      | some t =>
          rw [hbody, Option.bind_some] at hends
          cases happly : applyAll env db t.writes with
          | none =>
              rw [happly] at hends
              cases hexec : a.op.exec env db a.now with
              | error e => simp only [happly]
              | ok db' =>
                  rw [hexec] at hends
                  cases hends
          | some db₁ =>
              rw [happly] at hends
              cases hexec : a.op.exec env db a.now with
              | error e =>
                  rw [hexec] at hends
                  cases hends
              | ok db' =>
                  rw [hexec] at hends
                  have hdb : db₁ = db' := congrArg Prod.fst (Option.some.inj hends)
                  simp only [happly, hdb]

/-- The inversion of an attempt. -/
theorem attempt_returned {env : Env} {db db' : Db} {a : Attempt}
    (h : attempt env db a = (.returned, db')) : a.op.exec env db a.now = .ok db' := by
  rw [attempt_eq] at h
  split at h
  · cases h
  · split at h
    · cases h
    · next db₁ hexec =>
        cases h
        exact hexec

/-- Rollback. -/
theorem attempt_raised {env : Env} {db : Db} {a : Attempt}
    (h : (attempt env db a).1 = .raised) : attempt env db a = (.raised, db) := by
  rw [attempt_eq] at h ⊢
  split at h
  · next hf => rw [if_pos hf]
  · next hf =>
      rw [if_neg hf]
      split at h
      · rfl
      · cases h

/-- The audit rows an operation adds. -/
theorem exec_logs {o : AdminOp} {env : Env} {db db' : Db} {now : Time}
    (h : o.exec env db now = .ok db') :
    (o.actor = none → db'.auditLogs = db.auditLogs) ∧
      ∀ actor, o.actor = some actor →
        ∃ action details, db'.auditLogs = db.auditLogs ++ [⟨actor, o.target, action, details⟩] := by
  have hactor : ∀ {a actor t action : String} {details : List (String × String)},
      db'.auditLogs = db.auditLogs ++ [⟨a, t, action, details⟩] → some a = some actor →
      ∃ action details, db'.auditLogs = db.auditLogs ++ [⟨actor, t, action, details⟩] := by
    intro a actor t action details hlogs he
    rw [← Option.some.inj he]
    exact ⟨action, details, hlogs⟩
  cases o with
  | bootstrapAdmin u =>
      simp only [AdminOp.exec, bootstrapAdmin] at h
      split at h
      · cases h
      · cases h
        exact ⟨fun _ => rfl, by simp [AdminOp.actor]⟩
  | approveUser a t fail =>
      obtain ⟨-, -, hr⟩ := AdminOp.checked_eq_ok h
      split at hr <;> cases hr
      exact ⟨by simp [AdminOp.actor], fun _ => hactor rfl⟩
  | suspendUser a t reason =>
      simp only [AdminOp.exec, suspendUser] at h
      split at h
      · cases h
      · obtain ⟨-, -, hr⟩ := AdminOp.checked_eq_ok h
        cases hr
        exact ⟨by simp [AdminOp.actor], fun _ => hactor rfl⟩
  | changeRole a t role grant =>
      simp only [AdminOp.exec, changeRole] at h
      split at h
      · cases h
      · obtain ⟨-, -, hr⟩ := AdminOp.checked_eq_ok h
        cases hr
        cases grant with
        | true => exact ⟨by simp [AdminOp.actor], fun _ => hactor rfl⟩
        | false => exact ⟨by simp [AdminOp.actor], fun _ => hactor rfl⟩
  | revokeSessions a t =>
      simp only [AdminOp.exec, revokeSessions] at h
      split at h
      · cases h
      · obtain ⟨-, -, hr⟩ := AdminOp.checked_eq_ok h
        cases hr
        exact ⟨by simp [AdminOp.actor], fun _ => hactor rfl⟩

theorem commits_exec {o : AdminOp} {env : Env} {db db' : Db} {now : Time}
    (h : o.exec env db now = .ok db') : Commits o now db db' := by
  have heff := AdminOp.exec_effect h
  have hlogs := exec_logs h
  have hgrants : db'.refreshGrants.rows = db.refreshGrants.rows.map
      fun g => if liveGrantOf o.target g then g.consume now else g := by
    rw [heff.grants]
    rfl
  have hrest : db'.oneTimeTokens = db.oneTimeTokens ∧ db'.links = db.links := by
    obtain ⟨-, -, logs, rfl⟩ := AdminOp.exec_eq_ok h
    cases o with
    | changeRole a t role grant => cases grant <;> exact ⟨rfl, rfl⟩
    | _ => exact ⟨rfl, rfl⟩
  refine ⟨heff.others, ?_, hgrants, ?_, hrest.1, hrest.2, hlogs.1, ?_⟩
  · intro v hv r
    rw [heff.roles, if_neg hv]
  · intro g hg htarget
    rw [hgrants] at hg
    obtain ⟨g₀, -, rfl⟩ := List.mem_map.mp hg
    by_cases hl : liveGrantOf o.target g₀ = true
    · rw [if_pos hl]
      rfl
    · rw [if_neg hl] at htarget ⊢
      simpa [liveGrantOf, htarget] using hl
  · intro actor ha
    exact ⟨heff.authority actor ha, hlogs.2 actor ha⟩

/-! ## The count -/

/-- Users that are known and their versions do not depend on the grants. -/
theorem Counted.congr {s : State} (h : Counted s) {db : Db} (hu : ∀ v, db.user v = s.db.user v)
    (hl : db.auditLogs = s.db.auditLogs) : Counted { s with db } := by
  refine ⟨?_, ?_, ?_⟩
  · intro v u huser
    rw [hu] at huser
    rw [hl]
    exact h.versions v u huser
  · intro row hrow
    rw [hl] at hrow
    rw [hu]
    exact h.audited row hrow
  · intro v hv
    rw [hu]
    exact h.bootstrapped v hv

/-- A new user has version 1, and nothing names it yet. -/
theorem Counted.register {s : State} (h : Counted s) {env : Env} {uid email : String}
    {hash : Option String} {user : User} {db : Db}
    (hc : createUser env s.db uid email hash = some (user, db)) : Counted { s with db } := by
  have huser := user_createUser hc
  obtain ⟨hrow, users, hi, hdb⟩ := createUser_eq_some hc
  have hnew : s.db.user uid = none := by
    have hnone := (Table.insert_eq_some hi).1
    rw [hrow] at hnone
    exact hnone
  have hlogs : db.auditLogs = s.db.auditLogs := by rw [hdb]
  have hkept : ∀ v, (∃ u, s.db.user v = some u) → ∃ u, db.user v = some u := by
    intro v hv
    obtain ⟨u, hu⟩ := hv
    have hne : uid ≠ v := by
      intro he
      rw [he, hu] at hnew
      cases hnew
    exact ⟨u, by rw [huser, if_neg hne, hu]⟩
  refine ⟨?_, ?_, ?_⟩
  · intro v u hu
    rw [huser] at hu
    by_cases hv : uid = v
    · rw [if_pos hv] at hu
      cases hu
      have haudit : (s.db.auditLogs.countP fun row => row.targetId = v) = 0 := by
        rw [List.countP_eq_zero]
        intro row hr ht
        obtain ⟨u', hu'⟩ := h.audited row hr
        rw [of_decide_eq_true ht, ← hv, hnew] at hu'
        cases hu'
      have hboot : s.bootstraps.count v = 0 := by
        rw [List.count_eq_zero]
        intro hmem
        obtain ⟨u', hu'⟩ := h.bootstrapped v hmem
        rw [← hv, hnew] at hu'
        cases hu'
      rw [hlogs, haudit, hboot, hrow]
      rfl
    · rw [if_neg hv] at hu
      rw [hlogs]
      exact h.versions v u hu
  · intro row hr
    rw [hlogs] at hr
    exact hkept _ (h.audited row hr)
  · intro v hv
    exact hkept v (h.bootstrapped v hv)

/-- An operation that returns adds one to the version and one to the count. -/
theorem Counted.exec {s : State} (h : Counted s) {env : Env} {o : AdminOp} {now : Time} {db : Db}
    (hexec : o.exec env s.db now = .ok db) :
    Counted ⟨db, if o.actor = none then o.target :: s.bootstraps else s.bootstraps⟩ := by
  have heff := AdminOp.exec_effect hexec
  have hlogs := exec_logs hexec
  have hkept : ∀ v, (∃ u, s.db.user v = some u) → ∃ u, db.user v = some u := by
    intro v hv
    obtain ⟨u, hu⟩ := hv
    obtain ⟨u', hu', -⟩ := heff.version hu
    exact ⟨u', hu'⟩
  have hversion : ∀ v u, db.user v = some u → u.authzVersion =
      1 + (s.db.auditLogs.countP fun row => row.targetId = v) + s.bootstraps.count v +
        if v = o.target then 1 else 0 := by
    intro v u hu
    have hbefore : ∃ u₀, s.db.user v = some u₀ := by
      by_cases hv : v = o.target
      · rw [hv]
        exact heff.found
      · exact ⟨u, by rw [← heff.others v hv, hu]⟩
    obtain ⟨u₀, hu₀⟩ := hbefore
    obtain ⟨u₁, hu₁, hv₁⟩ := heff.version hu₀
    rw [hu] at hu₁
    cases hu₁
    have hcount := h.versions v u₀ hu₀
    rw [hv₁, hcount]
    split <;> omega
  cases hactor : o.actor with
  | none =>
      rw [if_pos rfl]
      refine ⟨?_, ?_, ?_⟩
      · intro v u hu
        rw [hversion v u hu, hlogs.1 hactor, List.count_cons]
        by_cases hv : v = o.target
        · simp [hv]
          omega
        · have hne : ¬ o.target = v := fun he => hv he.symm
          simp [hv, hne]
      · intro row hr
        rw [hlogs.1 hactor] at hr
        exact hkept _ (h.audited row hr)
      · intro v hv
        rcases List.mem_cons.mp hv with rfl | hv
        · exact hkept _ heff.found
        · exact hkept v (h.bootstrapped v hv)
  | some actor =>
      obtain ⟨action, details, hrow⟩ := hlogs.2 actor hactor
      rw [if_neg (by simp)]
      refine ⟨?_, ?_, ?_⟩
      · intro v u hu
        rw [hversion v u hu, hrow, List.countP_append, List.countP_singleton]
        by_cases hv : v = o.target
        · simp [hv]
          omega
        · have hne : ¬ o.target = v := fun he => hv he.symm
          simp [hv, hne]
      · intro row hr
        rw [hrow] at hr
        rcases List.mem_append.mp hr with hr | hr
        · exact hkept _ (h.audited row hr)
        · rw [List.mem_singleton.mp hr]
          exact hkept _ heff.found
      · intro v hv
        exact hkept v (h.bootstrapped v hv)

theorem counted_step (env : Env) (s : State) (l : Label) (h : Counted s) :
    Counted (step env s l) := by
  cases l with
  | attempt a =>
      simp only [step]
      cases hout : Attempts.attempt env s.db a with
      | mk outcome db =>
          cases outcome with
          | raised =>
              have hsame : attempt env s.db a = (.raised, s.db) := attempt_raised (by rw [hout])
              rw [hout] at hsame
              cases hsame
              exact h
          | returned => exact h.exec (attempt_returned hout)
  | register uid email passwordHash =>
      simp only [step]
      split
      · exact h
      · next who db hr =>
          obtain ⟨user, hc, -⟩ := registerUser_eq_ok hr
          exact h.register hc
  | issue userId aud raw now =>
      simp only [step]
      split
      · exact h
      · next db hi =>
          obtain ⟨grants, g, -, -, -, -, -, rfl⟩ := issueRefresh_eq_some hi
          exact h.congr (fun _ => rfl) rfl

/-- Admin operations are all or nothing, and audited. -/
theorem admin_audited (env : Env) (db : Db) (ls : List Label) : AllOrNothing env db ls := by
  refine ⟨?_, ?_, fun h => run_always (step env) Counted (counted_step env) h ls⟩
  · intro pre a post _ before hraised
    show step env before (.attempt a) = before
    simp only [step, attempt_raised hraised]
  · intro pre a post _ before hreturned
    obtain ⟨db', hout⟩ : ∃ db', attempt env before.db a = (.returned, db') :=
      ⟨_, Prod.ext hreturned rfl⟩
    have hdb : (step env before (.attempt a)).db = db' := by simp only [step, hout]
    rw [hdb]
    exact commits_exec (attempt_returned hout)

/-- `a` becomes an admin. Its approval of `t` fails at a statement and is made again; then `t` is
    suspended. -/
def sampleRun : List Label :=
  [.register "a" "a" "pw", .register "t" "t" "pw", .attempt ⟨.bootstrapAdmin "a", 0, none⟩,
   .issue "t" audience "g" 1, .attempt ⟨.approveUser "a" "t" false, 2, some 9⟩,
   .attempt ⟨.approveUser "a" "t" false, 3, none⟩, .attempt ⟨.suspendUser "a" "t" "abuse", 4, none⟩]

theorem counted_empty : Counted (.start .empty) :=
  ⟨by simp [State.start, Db.empty, Db.user, Table.empty, Table.get],
    by simp [State.start, Db.empty], by simp [State.start]⟩

theorem sample_counted : Counted (run (step plainEnv) (.start .empty) sampleRun) :=
  (admin_audited plainEnv .empty sampleRun).counted counted_empty

example : ((run (step plainEnv) (.start .empty) sampleRun).db.user "t").map
    (fun u => (u.status, u.authzVersion)) = some (.suspended, 3) := by decide +kernel

end TemisLab.Sso.Attempts
