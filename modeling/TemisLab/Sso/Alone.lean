/-
  Calls that run one at a time. Statement by statement, with nobody else's statements in between,
  an admin operation commits what `AdminOp.exec` does in one step and `issue_bundle` what
  `issueBundle` does, and each rolls back where these raise (`ends_call`).

  `Txn.runs` is the session without the engine: `run_alone` says that the engine adds nothing,
  as every row lock is free. `Txn.View` relates a session to the tables it would leave if it
  ended here; each statement of a program does to those what `AdminOp.exec` does at that point.

  * `calls_in_turn`: a run in which each call ends before the next begins, at its commit or at a
    rollback after any of its statements, is a run of the one-step descriptions.
-/
import TemisLab.Sso.Statements

namespace TemisLab.Sso

open TemisLab.Lib

variable {env : Env} {now : Time} {db : Db}

/-- The statements `sts` on tables nobody else changes; `none` is a rollback. -/
def Txn.runs (now : Time) (db : Db) : List Stmt → Txn → Option Txn
  | [], t => some t
  | st :: sts, t => (t.exec now db st).goesOn.bind fun p => Txn.runs now db sts p.2

/-- The same with the commit: the tables it leaves and what it returns. -/
def Txn.ends (env : Env) (now : Time) (db : Db) (sts : List Stmt) (t : Txn) :
    Option (Db × Option TokenBundle) :=
  (Txn.runs now db sts t).bind fun t' => (applyAll env db t'.writes).map (·, t'.bundle)

theorem runs_append (xs ys : List Stmt) (t : Txn) :
    Txn.runs now db (xs ++ ys) t = (Txn.runs now db xs t).bind (Txn.runs now db ys) := by
  induction xs generalizing t with
  | nil => rfl
  | cons st xs ih =>
      simp only [List.cons_append, Txn.runs]
      cases (t.exec now db st).goesOn with
      | none => rfl
      | some p => exact ih p.2

/-- A statement does not look at the statements left. -/
theorem exec_withRest (now : Time) (db : Db) (t : Txn) (rest : List Stmt) (st : Stmt) :
    (Txn.exec now db { t with rest } st).goesOn =
      (t.exec now db st).goesOn.map fun p => (p.1, { p.2 with rest }) := by
  have hload : ∀ v row, Txn.load { t with rest } v row = { t.load v row with rest } := by
    intro v row
    unfold Txn.load
    simp only
    split <;> rfl
  cases st <;> simp only [Txn.exec, hload] <;> (repeat' split) <;> rfl

theorem runs_withRest (sts rest : List Stmt) (t : Txn) :
    Txn.runs now db sts { t with rest } =
      (Txn.runs now db sts t).map fun t' => { t' with rest } := by
  induction sts generalizing t with
  | nil => rfl
  | cons st sts ih =>
      simp only [Txn.runs, exec_withRest]
      cases (t.exec now db st).goesOn with
      | none => rfl
      | some p => exact ih p.2

/-! ## The engine adds nothing -/

/-- Statements of no transaction. -/
theorem run_closed {s : World Db Txn String TokenBundle} {tid : ℕ} (h : s.txns tid = none)
    (n : ℕ) : run (engine env).step s (List.replicate n (.stmt tid now)) = s := by
  induction n with
  | zero => rfl
  | succ n ih => rw [List.replicate_succ, run_cons, Engine.step_closed h, ih]

/-- One statement of a transaction that is alone: it is rolled back, or goes on. -/
theorem step_stmt (env : Env) (now : Time) {s : World Db Txn String TokenBundle} {tid : ℕ}
    {t : Txn} (ht : s.txns tid = some t) (h : s.Alone tid) {st : Stmt} {rest : List Stmt}
    (hrest : t.rest = st :: rest) :
    ((t.exec now s.db st).goesOn = none ∧
        (engine env).step s (.stmt tid now) = s.close tid) ∨
      ∃ k t', (t.exec now s.db st).goesOn = some (k, t') ∧
        let s' := (engine env).step s (.stmt tid now)
        s'.db = s.db ∧ s'.out = s.out ∧ s'.txns tid = some { t' with rest } ∧ s'.Alone tid := by
  have hmove : (engine env).move now s.db t = Txn.exec now s.db { t with rest } st := by
    show t.move env now s.db = _
    unfold Txn.move
    rw [hrest]
  have hexec := exec_withRest now s.db t rest st
  cases hgo : (t.exec now s.db st).goesOn with
  | none =>
      rw [hgo] at hexec
      exact Or.inl ⟨rfl, Engine.step_fail ht (hmove.trans (exec_eq_fail hexec))⟩
  | some p =>
      rw [hgo, ← hmove] at hexec
      obtain ⟨s', rfl, hdb, hout, htxns, h'⟩ := Engine.step_goesOn ht hexec h
      exact Or.inr ⟨p.1, p.2, rfl, hdb, hout, htxns, h'⟩

theorem run_alone (env : Env) (now : Time) {s : World Db Txn String TokenBundle} {tid : ℕ} {t : Txn}
    (ht : s.txns tid = some t) (h : s.Alone tid) :
    let s' := run (engine env).step s (List.replicate (t.rest.length + 1) (.stmt tid now))
    s'.Quiet ∧ (s'.db, s'.out) =
      ((t.ends env now s.db t.rest).map fun p => (p.1, p.2.toList ++ s.out)).getD
        (s.db, s.out) := by
  simp only
  unfold Txn.ends
  generalize hsts : t.rest = sts
  induction sts generalizing s t with
  | nil =>
      have hmove : (engine env).move now s.db t =
          (applyAll env s.db t.writes).elim .fail fun db' => .commit db' t.bundle := by
        show t.move env now s.db = _
        unfold Txn.move
        rw [hsts]
        simp only
        cases applyAll env s.db t.writes <;> rfl
      rw [List.length_nil, List.replicate_one, run_cons, run_nil]
      cases ha : applyAll env s.db t.writes with
      | none =>
          rw [ha] at hmove
          rw [Engine.step_fail ht hmove]
          simp only [Txn.runs, Option.bind_some, ha]
          exact ⟨h.close, rfl⟩
      | some db' =>
          rw [ha] at hmove
          rw [Engine.step_commit ht hmove]
          simp only [Txn.runs, Option.bind_some, ha]
          exact ⟨⟨h.close.txns, h.close.locks⟩, rfl⟩
  | cons st sts ih =>
      rw [List.length_cons, List.replicate_succ, run_cons]
      rcases step_stmt env now ht h hsts with
        ⟨hgo, hstep⟩ | ⟨k, t', hgo, hdb, hout, htxns, h'⟩
      · rw [hstep, run_closed (h.close.txns tid)]
        simp only [Txn.runs, hgo]
        exact ⟨h.close, rfl⟩
      · obtain ⟨hquiet, hends⟩ := ih htxns h' rfl
        refine ⟨hquiet, ?_⟩
        rw [hends, hdb, hout]
        simp only [Txn.runs, hgo, Option.bind_some, runs_withRest, Option.bind_map]
        rfl

/-- The statements before the last leave the committed tables. -/
theorem run_stmts (env : Env) (now : Time) {s : World Db Txn String TokenBundle} {tid : ℕ} {t : Txn}
    (ht : s.txns tid = some t) (h : s.Alone tid) {n : ℕ} (hn : n ≤ t.rest.length) :
    let s' := run (engine env).step s (List.replicate n (.stmt tid now))
    s'.Alone tid ∧ (s'.db, s'.out) = (s.db, s.out) := by
  simp only
  induction n generalizing s t with
  | zero => exact ⟨h, rfl⟩
  | succ n ih =>
      obtain ⟨st, rest, hrest⟩ : ∃ st rest, t.rest = st :: rest :=
        List.exists_cons_of_length_pos (by omega)
      rw [List.replicate_succ, run_cons]
      rcases step_stmt env now ht h hrest with
        ⟨-, hstep⟩ | ⟨k, t', -, hdb, hout, htxns, h'⟩
      · rw [hstep, run_closed (h.close.txns tid)]
        exact ⟨h.close.alone tid, rfl⟩
      · rw [hrest, List.length_cons] at hn
        rw [← hdb, ← hout]
        exact ih htxns h' (Nat.le_of_succ_le_succ hn)

/-! ## The reads -/

/-- A session that has written nothing; what it has loaded is committed. -/
structure Txn.Fresh (db : Db) (t : Txn) : Prop where
  users : ∀ v l, t.users v = some l → ∃ u, db.user v = some u ∧ l = ⟨u, u⟩
  roles : ∀ v r, (v, r) ∈ t.roles → db.hasRole v r = true
  added : t.added = []
  writes : t.writes = []
  bundle : t.bundle = none

theorem Txn.Fresh.load {t : Txn} (h : t.Fresh db) (v : String) :
    (t.load v (db.user v)).Fresh db ∧
      (t.load v (db.user v)).users v = (db.user v).map fun u => ⟨u, u⟩ := by
  have hroles : (t.load v (db.user v)).roles = t.roles := by
    unfold Txn.load
    split <;> rfl
  obtain ⟨-, -, hadded, hwrites, -, hbundle⟩ := load_fields t v (db.user v)
  refine ⟨⟨?_, ?_, hadded.trans h.added, hwrites.trans h.writes, hbundle.trans h.bundle⟩, ?_⟩
  · intro w l hl
    rcases users_load hl with hl | ⟨rfl, -, u, hu, rfl⟩
    · exact h.users w l hl
    · exact ⟨u, hu, rfl⟩
  · intro w r hw
    rw [hroles] at hw
    exact h.roles w r hw
  · unfold Txn.load
    cases ht : t.users v with
    | none => cases hu : db.user v <;> simp [ht]
    | some l =>
        obtain ⟨u, hu, rfl⟩ := h.users v l ht
        simp [hu, ht]

theorem Txn.Fresh.addRole {t : Txn} (h : t.Fresh db) {v r : String}
    (hr : db.hasRole v r = true) : Txn.Fresh db { t with roles := (v, r) :: t.roles } := by
  refine ⟨h.users, ?_, h.added, h.writes, h.bundle⟩
  intro w s hw
  rcases List.mem_cons.mp hw with he | hw
  · obtain ⟨rfl, rfl⟩ := Prod.mk.inj he
    exact hr
  · exact h.roles w s hw

theorem fresh_begin (c : Call) : Txn.Fresh db { call := c, rest := c.program } :=
  ⟨by simp, by simp, rfl, rfl, rfl⟩

/-- `_assert_admin` alone. -/
theorem runs_assertAdmin (now : Time) {t : Txn} (h : t.Fresh db) (a : String) :
    ∃ t', t'.Fresh db ∧ Txn.runs now db (assertAdminStmts a) t =
      if db.isCurrentAdmin a then some t' else none := by
  obtain ⟨hload, huser⟩ := h.load a
  have hactive : db.isActive a = (db.user a).any fun u => u.status = .active := rfl
  by_cases hr : db.hasRole a "admin" = true
  · refine ⟨_, hload.addRole hr, ?_⟩
    cases hu : db.user a with
    | none =>
        rw [hu] at huser
        simp [Txn.runs, Txn.exec, Move.goesOn, hr, Db.isCurrentAdmin, hactive, hu, huser]
    | some u =>
        rw [hu] at huser
        by_cases hs : u.status = .active <;>
          simp [Txn.runs, Txn.exec, Move.goesOn, hr, Db.isCurrentAdmin, hactive, hu, huser, hs]
  · have hmem : (a, "admin") ∉ (t.load a (db.user a)).roles := fun hm => hr (hload.roles _ _ hm)
    refine ⟨_, hload, ?_⟩
    cases hl : (t.load a (db.user a)).users a <;>
      simp [Txn.runs, Txn.exec, Move.goesOn, hr, Db.isCurrentAdmin, hl, hmem]

/-- `session.get(User, …, with_for_update=True)` alone. -/
theorem runs_lockUser (now : Time) {t : Txn} (h : t.Fresh db) {v : String} {u : User}
    (hu : db.user v = some u) :
    ∃ t', t'.Fresh db ∧ t'.users v = some ⟨u, u⟩ ∧
      Txn.runs now db [.lockUser v] t = some t' := by
  obtain ⟨hload, huser⟩ := h.load v
  rw [hu] at hload huser
  refine ⟨_, hload, huser, ?_⟩
  simp only [Txn.runs, Txn.exec, hu]
  rfl

/-! ## The writes -/

theorem applyAll_append (ws ws' : List Write) :
    applyAll env db (ws ++ ws') =
      (applyAll env db ws).bind fun db' => applyAll env db' ws' := by
  induction ws generalizing db with
  | nil => rfl
  | cons w ws ih =>
      simp only [List.cons_append, applyAll]
      cases w.apply env db with
      | none => rfl
      | some db' => exact ih

theorem eq_of_user {v : String} {u r : User} (hu : db.user v = some u) (hr : r ∈ db.users.rows)
    (hid : r.id = v) : r = u := by
  have hget := Table.get_of_mem hr
  rw [key_user, hid] at hget
  exact Option.some.inj (hget.symm.trans hu)

/-- An assignment depends on the user's row only. -/
theorem setUser_congr {v : String} {u : User} (hu : db.user v = some u) {f g : User → User}
    (hf : ∀ u, (f u).id = u.id) (hg : ∀ u, (g u).id = u.id) (hfg : f u = g u) :
    db.setUser v f hf = db.setUser v g hg := by
  unfold Db.setUser
  congr 1
  refine Table.modify_congr ?_
  intro r hr hid
  rw [eq_of_user hu hr (of_decide_eq_true hid), hfg]

/-- Assigning what the row has changes nothing. -/
theorem setStatus_same {v : String} {u : User} (hu : db.user v = some u) :
    setStatus db v u.status = db := by
  have husers : db.users.modify (fun r => r.id = v) (User.withStatus u.status) (fun _ => rfl) =
      db.users := by
    refine Table.modify_eq_self ?_
    intro r hr hid
    rw [eq_of_user hu hr (of_decide_eq_true hid)]
    rfl
  exact congrArg (fun users => { db with users }) husers

/-- Deleting a role nobody has. -/
theorem deleteRole_same {v r : String} (h : db.hasRole v r = false) :
    Sso.deleteRole db v r = db := by
  have hrows : db.userRoles.delete (fun row => row.userId = v && row.role = r) =
      db.userRoles := by
    refine Table.delete_eq_self ?_
    intro row hrow
    rw [Bool.eq_false_iff]
    intro hp
    simp only [Bool.and_eq_true, decide_eq_true_eq] at hp
    have hget := Table.get_of_mem hrow
    rw [key_userRole, hp.1, hp.2] at hget
    rw [Db.hasRole, hget] at h
    cases h
  exact congrArg (fun userRoles => { db with userRoles }) hrows

/-- Merging one somebody has. -/
theorem mergeRole_same {v r : String} (h : db.hasRole v r = true) :
    Sso.mergeRole db v r = db := by
  have htaken : db.userRoles.insert ⟨v, r⟩ = none :=
    Table.insert_eq_none.mpr (Option.isSome_iff_exists.mp h)
  unfold Sso.mergeRole Table.merge
  rw [htaken]
  rfl

theorem insertRole_new {v r : String} (h : db.hasRole v r = false) :
    Sso.insertRole db v r = some (Sso.mergeRole db v r) := by
  unfold Sso.insertRole Sso.mergeRole Table.merge
  cases hi : db.userRoles.insert ⟨v, r⟩ with
  | some roles => rfl
  | none =>
      have hrow := Option.isSome_iff_exists.mpr (Table.insert_eq_none.mp hi)
      exact absurd (hrow.symm.trans h) (by simp)

/-- The `UPDATE` of a user whose status has been assigned. -/
theorem applyAll_status {v : String} {u : User} (hu : db.user v = some u) (s : Status) :
    applyAll env db (Loaded.changes ⟨u, u.withStatus s⟩ v) = some (setStatus db v s) := by
  unfold Loaded.changes
  by_cases hs : s = u.status
  · subst hs
    rw [setStatus_same hu]
    simp [User.withStatus, applyAll]
  · simp [User.withStatus, applyAll, hs, Write.apply]

/-- The same, with the version. -/
theorem applyAll_version {v : String} {u : User} (hu : db.user v = some u) (s : Status) :
    applyAll env db (Loaded.changes ⟨u, (u.withStatus s).bumpVersion⟩ v) =
      some ((setStatus db v s).setUser v User.bumpVersion fun _ => rfl) := by
  have hrow : (setStatus db v s).user v = some (u.withStatus s) := by
    rw [user_setStatus, if_pos rfl, hu]
    rfl
  have hsplit : Loaded.changes ⟨u, (u.withStatus s).bumpVersion⟩ v =
      Loaded.changes ⟨u, u.withStatus s⟩ v ++ [.version v (u.authzVersion + 1)] := by
    by_cases hs : s = u.status <;> simp [Loaded.changes, User.bumpVersion, User.withStatus, hs]
  rw [hsplit, applyAll_append, applyAll_status hu]
  have hversion := setUser_congr hrow (User.withVersion_id (u.authzVersion + 1))
    (g := User.bumpVersion) (fun _ => rfl) rfl
  exact congrArg some hversion

/-- The role rows are inserted whatever the users are. -/
theorem applyAll_inserts {db' : Db} {rows : List (String × String)}
    (h : applyAll env db (rows.map fun (v, r) => .insertRole v r) = some db')
    (users : Table User) :
    applyAll env { db with users } (rows.map fun (v, r) => .insertRole v r) =
      some { db' with users } := by
  induction rows generalizing db with
  | nil =>
      cases h
      rfl
  | cons row rows ih =>
      obtain ⟨db₁, h₁, h₂⟩ := Option.bind_eq_some_iff.mp h
      obtain ⟨roles, hroles, rfl⟩ := Option.map_eq_some_iff.mp h₁
      refine Option.bind_eq_some_iff.mpr ⟨_, ?_, ih h₂⟩
      exact Option.map_eq_some_iff.mpr ⟨roles, hroles, rfl⟩

/-- The grants of the digests found are the user's live ones. -/
theorem consumeGrants_liveDigests {d : Db} (hd : d.refreshGrants = db.refreshGrants)
    (v : String) :
    d.consumeGrants (fun g => g.digest ∈ Txn.liveDigests db v) now =
      d.consumeGrants (liveGrantOf v) now := by
  unfold Db.consumeGrants
  congr 1
  refine Table.ext (List.map_congr_left ?_)
  intro g hg
  have hfound : (g.digest ∈ Txn.liveDigests db v) ↔ liveGrantOf v g = true := by
    rw [hd] at hg
    constructor
    · intro hmem
      obtain ⟨g', hg', he⟩ := List.mem_map.mp hmem
      obtain ⟨hrow, hlive⟩ := Table.mem_select.mp hg'
      rw [List.inj_on_of_nodup_map db.refreshGrants.nodup hg hrow he.symm]
      exact hlive
    · intro hlive
      exact List.mem_map_of_mem (Table.mem_select.mpr ⟨hg, hlive⟩)
  simp only [hfound, Bool.decide_eq_true]

/-! ## The session's own tables -/

/-- `t` has loaded the row `u` of `v`, and would leave the tables `d` if it ended here. -/
structure Txn.View (env : Env) (db d : Db) (v : String) (u : User)
    (added : List (String × String)) (t : Txn) : Prop where
  loaded : t.users v = some ⟨u, u⟩
  roles : ∀ w r, (w, r) ∈ t.roles → db.hasRole w r = true
  added_eq : t.added = added
  absent : ∀ p ∈ added, db.hasRole p.1 p.2 = false
  tables : applyAll env db (t.writes ++ added.map fun (w, r) => .insertRole w r) = some d
  row : d.user v = some u
  grants : d.refreshGrants = db.refreshGrants
  bundle : t.bundle = none

theorem Txn.Fresh.view {t : Txn} (h : t.Fresh db) {v : String} {u : User}
    (hl : t.users v = some ⟨u, u⟩) (hu : db.user v = some u) : t.View env db db v u [] := by
  refine ⟨hl, h.roles, h.added, by simp, ?_, hu, rfl, h.bundle⟩
  rw [h.writes]
  rfl

variable {d : Db} {v : String} {u : User} {added : List (String × String)} {t : Txn}

theorem Txn.View.assign_same (h : t.View env db d v u added) : t.assign v ⟨u, u⟩ = t := by
  unfold Txn.assign
  rw [← h.loaded, Function.update_eq_self]

/-- Writes sent while nothing waits for the flush. -/
theorem Txn.View.send (h : t.View env db d v u []) {d' : Db} {ws : List Write}
    (hws : applyAll env d ws = some d') (hrow : d'.user v = some u)
    (hgrants : d'.refreshGrants = d.refreshGrants) :
    Txn.View env db d' v u [] { t with writes := t.writes ++ ws } := by
  have htables := h.tables
  rw [List.map_nil, List.append_nil] at htables
  refine ⟨h.loaded, h.roles, h.added_eq, h.absent, ?_, hrow, hgrants.trans h.grants, h.bundle⟩
  rw [List.map_nil, List.append_nil, applyAll_append, htables]
  exact hws

/-- An assigned status, flushed. -/
theorem runs_setStatus (now : Time) (h : t.View env db d v u []) (s : Status) :
    ∃ t', t'.View env db (Sso.setStatus d v s) v (u.withStatus s) [] ∧
      Txn.runs now db [.setStatus v s, .flush v] t = some t' := by
  have hrow : (Sso.setStatus d v s).user v = some (u.withStatus s) := by
    rw [user_setStatus, if_pos rfl, h.row]
    rfl
  have htables := h.tables
  rw [List.map_nil, List.append_nil] at htables
  by_cases hs : u.withStatus s = u
  · have hstatus : s = u.status := congrArg User.status hs
    refine ⟨t, ?_, ?_⟩
    · rw [hs, hstatus, setStatus_same h.row]
      exact h
    · simp [Txn.runs, Txn.exec, Move.goesOn, h.loaded, hs, h.assign_same]
  · refine ⟨t.write v ⟨u, u.withStatus s⟩, ⟨Function.update_self .., h.roles, h.added_eq,
      h.absent, ?_, hrow, h.grants, h.bundle⟩, ?_⟩
    · rw [List.map_nil, List.append_nil]
      show applyAll env db (t.writes ++ _) = _
      rw [applyAll_append, htables]
      exact applyAll_status h.row s
    · simp [Txn.runs, Txn.exec, Move.goesOn, Txn.assign, Txn.write, h.loaded, hs]

theorem runs_deleteRole (now : Time) (h : t.View env db d v u []) {r : String}
    (hr : d.hasRole v r = db.hasRole v r) :
    ∃ t', t'.View env db (Sso.deleteRole d v r) v u [] ∧
      Txn.runs now db [.deleteRole v r] t = some t' := by
  by_cases hd : d.hasRole v r = true
  · have hdelete : applyAll env d [.deleteRole v r] = some (Sso.deleteRole d v r) := rfl
    refine ⟨_, h.send hdelete h.row rfl, ?_⟩
    rw [hr] at hd
    simp [Txn.runs, Txn.exec, Move.goesOn, hd]
  · refine ⟨t, ?_, ?_⟩
    · rw [deleteRole_same (by simpa using hd)]
      exact h
    · rw [hr] at hd
      simp [Txn.runs, Txn.exec, Move.goesOn, hd]

theorem runs_mergeRole (now : Time) (h : t.View env db d v u []) {r : String}
    (hr : d.hasRole v r = db.hasRole v r) :
    ∃ t' added, t'.View env db (Sso.mergeRole d v r) v u added ∧
      Txn.runs now db [.mergeRole v r] t = some t' := by
  have htables := h.tables
  rw [List.map_nil, List.append_nil] at htables
  cases hd : db.hasRole v r with
  | true =>
      refine ⟨{ t with roles := (v, r) :: t.roles }, [], ?_, ?_⟩
      · rw [mergeRole_same (hr.trans hd)]
        refine ⟨h.loaded, ?_, h.added_eq, h.absent, h.tables, h.row, h.grants, h.bundle⟩
        intro w s hw
        rcases List.mem_cons.mp hw with he | hw
        · obtain ⟨rfl, rfl⟩ := Prod.mk.inj he
          exact hd
        · exact h.roles w s hw
      · simp [Txn.runs, Txn.exec, Move.goesOn, hd]
  | false =>
      have hmem : (v, r) ∉ t.roles := by
        intro hm
        rw [h.roles v r hm] at hd
        cases hd
      refine ⟨{ t with added := [(v, r)] }, [(v, r)], ⟨h.loaded, h.roles, rfl, ?_, ?_, h.row,
        h.grants, h.bundle⟩, ?_⟩
      · intro p hp
        rw [List.mem_singleton.mp hp]
        exact hd
      · rw [applyAll_append, htables]
        simp only [List.map_cons, List.map_nil, applyAll, Write.apply, Option.bind_some]
        rw [insertRole_new (hr.trans hd)]
        rfl
      · simp [Txn.runs, Txn.exec, Move.goesOn, hd, hmem, h.added_eq]

/-- `t` has nothing left to flush. -/
structure Txn.Sent (env : Env) (db d : Db) (t : Txn) : Prop where
  tables : applyAll env db t.writes = some d
  bundle : t.bundle = none

/-- `_invalidate_authorization`, which flushes an assigned status. -/
theorem runs_assigned (now : Time) (h : t.View env db d v u added) (s : Status) :
    ∃ t', t'.Sent env db (invalidateAuthorization (Sso.setStatus d v s) v now) ∧
      Txn.runs now db (invalidateStmts v) (t.assign v ⟨u, u.withStatus s⟩) = some t' := by
  obtain ⟨d₀, h₀, hd⟩ := Option.bind_eq_some_iff.mp ((applyAll_append ..).symm.trans h.tables)
  have hsame : some { d with users := d₀.users } = some d :=
    (applyAll_inserts hd d₀.users).symm.trans hd
  have husers : d.users = d₀.users := (congrArg Db.users (Option.some.inj hsame)).symm
  have hrow : d₀.user v = some u := by
    unfold Db.user
    rw [← husers]
    exact h.row
  have habsent : (added.any fun p => db.hasRole p.1 p.2) = false := by
    rw [List.any_eq_false]
    intro p hp
    simp [h.absent p hp]
  let users := ((Sso.setStatus d₀ v s).setUser v User.bumpVersion fun _ => rfl).users
  have hlast : { d with users }.consumeGrants (fun g => g.digest ∈ Txn.liveDigests db v) now =
      invalidateAuthorization (Sso.setStatus d v s) v now := by
    rw [consumeGrants_liveDigests (d := { d with users }) h.grants]
    simp only [users, invalidateAuthorization, Sso.setStatus, Db.setUser, husers]
  refine ⟨{ t with
    users := Function.update t.users v (some ⟨(u.withStatus s).bumpVersion,
      (u.withStatus s).bumpVersion⟩)
    roles := added ++ t.roles
    added := []
    writes := t.writes ++ Loaded.changes ⟨u, (u.withStatus s).bumpVersion⟩ v ++
      (added.map fun (w, r) => .insertRole w r) ++
      [.consumeGrants (Txn.liveDigests db v) now] }, ⟨?_, h.bundle⟩, ?_⟩
  · simp only
    rw [applyAll_append, applyAll_append, applyAll_append, h₀, Option.bind_some,
      applyAll_version hrow, Option.bind_some]
    refine (congrArg (Option.bind · _) (applyAll_inserts hd users)).trans ?_
    exact congrArg some hlast
  · simp [Txn.runs, Txn.exec, Move.goesOn, Txn.assign, Txn.write, h.added_eq, habsent]

/-- `_invalidate_authorization` with nothing assigned. -/
theorem runs_invalidate (now : Time) (h : t.View env db d v u added) :
    ∃ t', t'.Sent env db (invalidateAuthorization d v now) ∧
      Txn.runs now db (invalidateStmts v) t = some t' := by
  obtain ⟨t', hsent, hruns⟩ := runs_assigned now h u.status
  rw [setStatus_same h.row] at hsent
  rw [show u.withStatus u.status = u from rfl, h.assign_same] at hruns
  exact ⟨t', hsent, hruns⟩

theorem runs_audit (now : Time) (h : t.Sent env db d) (a action : String)
    (details : List (String × String)) :
    ∃ t', t'.Sent env db (Sso.audit env d a v action details) ∧
      Txn.runs now db [.audit a v action details] t = some t' := by
  refine ⟨{ t with writes := t.writes ++ [.audit a v action details] }, ⟨?_, h.bundle⟩, rfl⟩
  simp only
  rw [applyAll_append, h.tables]
  rfl

/-! ## The operations -/

theorem ends_append (xs ys : List Stmt) (t : Txn) :
    t.ends env now db (xs ++ ys) = (Txn.runs now db xs t).bind (Txn.ends env now db ys) := by
  unfold Txn.ends
  rw [runs_append]
  cases Txn.runs now db xs t <;> rfl

theorem Txn.Sent.ends (h : t.Sent env db d) : t.ends env now db [] = some (d, none) := by
  show (applyAll env db t.writes).map _ = _
  rw [h.tables, h.bundle]
  rfl

/-- What an operation commits: its tables, or nothing if it raises. -/
def committed (r : Except AdminError Db) : Option (Db × Option TokenBundle) :=
  r.toOption.map (·, none)

/-- `_assert_admin` and the locked `SELECT` of the target are the checks of `checked`. -/
theorem ends_checked {t : Txn} (h : t.Fresh db) (a v : String) {sts : List Stmt}
    {r : Except AdminError Db}
    (hr : ∀ (u : User) (t' : Txn), t'.View env db db v u [] →
      t'.ends env now db sts = committed r) :
    t.ends env now db (assertAdminStmts a ++ ([.lockUser v] ++ sts)) =
      committed (AdminOp.checked db a v r) := by
  obtain ⟨t₁, h₁, e₁⟩ := runs_assertAdmin now h a
  rw [ends_append, e₁]
  unfold AdminOp.checked
  by_cases ha : db.isCurrentAdmin a = true
  · rw [if_pos ha, Option.bind_some, ends_append, ha]
    cases hu : db.user v with
    | none =>
        have hfail : Txn.runs now db [.lockUser v] t₁ = none := by
          simp only [Txn.runs, Txn.exec, hu]
          rfl
        rw [hfail]
        rfl
    | some u =>
        obtain ⟨t₂, h₂, hl, e₂⟩ := runs_lockUser now h₁ hu
        rw [e₂]
        exact hr u t₂ (h₂.view hl hu)
  · rw [if_neg ha]
    simp only [ha]
    rfl

theorem ends_runs {xs ys : List Stmt} {t t' : Txn} (h : Txn.runs now db xs t = some t') :
    t.ends env now db (xs ++ ys) = t'.ends env now db ys := by
  rw [ends_append, h, Option.bind_some]

/-- `bootstrap_admin`, which checks no actor and takes no lock for its read. -/
theorem ends_bootstrapAdmin {t : Txn} (h : t.Fresh db) (v : String) :
    t.ends env now db (AdminOp.program (.bootstrapAdmin v)) =
      committed (Sso.bootstrapAdmin db v now) := by
  obtain ⟨hload, hl⟩ := h.load v
  have hread : Txn.runs now db [.getUser v, .requireUser v] t =
      (db.user v).map fun _ => t.load v (db.user v) := by
    cases hu : db.user v <;> rw [hu] at hl <;> simp [Txn.runs, Txn.exec, Move.goesOn, hu, hl]
  show t.ends env now db (([.getUser v, .requireUser v] : List Stmt) ++
    (([.setStatus v .active, .flush v] : List Stmt) ++
      (([.mergeRole v "admin"] : List Stmt) ++ (invalidateStmts v ++ [])))) = _
  unfold Sso.bootstrapAdmin
  cases hu : db.user v with
  | none =>
      rw [ends_append, hread, hu]
      rfl
  | some u =>
      rw [hu] at hload hl hread
      have hview : Txn.View env db db v u [] (t.load v (some u)) := hload.view hl hu
      obtain ⟨t₁, h₁, e₁⟩ := runs_setStatus now hview .active
      obtain ⟨t₂, added, h₂, e₂⟩ := runs_mergeRole now (r := "admin") h₁ rfl
      obtain ⟨t₃, h₃, e₃⟩ := runs_invalidate now h₂
      rw [ends_runs hread, ends_runs e₁, ends_runs e₂, ends_runs e₃, h₃.ends]
      rfl

/-- `approve_user`: the role `user` is looked up before `pending` has been deleted. -/
theorem ends_approveUser {t : Txn} (h : t.Fresh db) (a v : String) (failForTest : Bool) :
    t.ends env now db (AdminOp.program (.approveUser a v failForTest)) =
      committed (Sso.approveUser env db a v failForTest now) := by
  refine ends_checked h a v ?_
  intro u t h
  obtain ⟨t₁, h₁, e₁⟩ := runs_setStatus now h .active
  obtain ⟨t₂, h₂, e₂⟩ := runs_deleteRole now (r := "pending") h₁ rfl
  have hrole : (Sso.deleteRole (Sso.setStatus db v .active) v "pending").hasRole v "user" =
      db.hasRole v "user" := by
    rw [AdminOp.hasRole_deleteRole]
    show (db.hasRole v "user" && _) = _
    simp
  obtain ⟨t₃, added, h₃, e₃⟩ := runs_mergeRole now h₂ hrole
  obtain ⟨t₄, h₄, e₄⟩ := runs_invalidate now h₃
  obtain ⟨t₅, h₅, e₅⟩ := runs_audit now (v := v) h₄ a "user.approved" []
  show t.ends env now db (([.setStatus v .active, .flush v] : List Stmt) ++
    (([.deleteRole v "pending"] : List Stmt) ++ (([.mergeRole v "user"] : List Stmt) ++
      (invalidateStmts v ++ (([.audit a v "user.approved" []] : List Stmt) ++
        if failForTest then [.raise] else []))))) = _
  rw [ends_runs e₁, ends_runs e₂, ends_runs e₃, ends_runs e₄, ends_runs e₅]
  cases failForTest with
  | true => rfl
  | false => exact h₅.ends

/-- `suspend_user`: the version's flush writes the status as well. -/
theorem ends_suspendUser {t : Txn} (h : t.Fresh db) {a v : String} (hne : a ≠ v)
    (reason : String) :
    t.ends env now db (AdminOp.program (.suspendUser a v reason)) =
      committed (Sso.suspendUser env db a v reason now) := by
  rw [Sso.suspendUser, if_neg hne]
  refine ends_checked h a v ?_
  intro u t h
  obtain ⟨t₁, h₁, e₁⟩ := runs_assigned now h .suspended
  obtain ⟨t₂, h₂, e₂⟩ := runs_audit now (v := v) h₁ a "user.suspended" [("reason", reason)]
  have e₀ : Txn.runs now db [.setStatus v .suspended] t =
      some (t.assign v ⟨u, u.withStatus .suspended⟩) := by
    simp [Txn.runs, Txn.exec, Move.goesOn, h.loaded]
  show t.ends env now db (([.setStatus v .suspended] : List Stmt) ++ (invalidateStmts v ++
    (([.audit a v "user.suspended" [("reason", reason)]] : List Stmt) ++ []))) = _
  rw [ends_runs e₀, ends_runs e₁, ends_runs e₂]
  exact h₂.ends

theorem ends_changeRole {t : Txn} (h : t.Fresh db) {a v role : String} {grant : Bool}
    (hne : ¬ (a = v ∧ role = "admin" ∧ grant = false)) :
    t.ends env now db (AdminOp.program (.changeRole a v role grant)) =
      committed (Sso.changeRole env db a v role grant now) := by
  rw [Sso.changeRole, if_neg hne]
  refine ends_checked h a v ?_
  intro u t h
  have hrole : ∃ t₁ added, t₁.View env db
        (if grant then Sso.mergeRole db v role else Sso.deleteRole db v role) v u added ∧
      Txn.runs now db [if grant then .mergeRole v role else .deleteRole v role] t =
        some t₁ := by
    cases grant with
    | true => exact runs_mergeRole now h rfl
    | false =>
        obtain ⟨t₁, h₁, e₁⟩ := runs_deleteRole now (r := role) h rfl
        exact ⟨t₁, [], h₁, e₁⟩
  obtain ⟨t₁, added, h₁, e₁⟩ := hrole
  obtain ⟨t₂, h₂, e₂⟩ := runs_invalidate now h₁
  obtain ⟨t₃, h₃, e₃⟩ := runs_audit now (v := v) h₂ a
    (if grant then "role.granted" else "role.revoked") [("role", role)]
  show t.ends env now db
    (([if grant then .mergeRole v role else .deleteRole v role] : List Stmt) ++
      (invalidateStmts v ++ (([.audit a v (if grant then "role.granted" else "role.revoked")
        [("role", role)]] : List Stmt) ++ []))) = _
  rw [ends_runs e₁, ends_runs e₂, ends_runs e₃]
  exact h₃.ends

theorem ends_revokeSessions {t : Txn} (h : t.Fresh db) {a v : String} (hne : a ≠ v) :
    t.ends env now db (AdminOp.program (.revokeSessions a v)) =
      committed (Sso.revokeSessions env db a v now) := by
  rw [Sso.revokeSessions, if_neg hne]
  refine ends_checked h a v ?_
  intro u t h
  obtain ⟨t₁, h₁, e₁⟩ := runs_invalidate now h
  obtain ⟨t₂, h₂, e₂⟩ := runs_audit now (v := v) h₁ a "sessions.revoked" []
  show t.ends env now db (invalidateStmts v ++ ([.audit a v "sessions.revoked" []] ++ [])) = _
  rw [ends_runs e₁, ends_runs e₂]
  exact h₂.ends

theorem admin_ends (o : AdminOp) (hself : o.isSelfAction = false) {t : Txn} (h : t.Fresh db) :
    t.ends env now db o.program = committed (o.exec env db now) := by
  cases o with
  | bootstrapAdmin v => exact ends_bootstrapAdmin h v
  | approveUser a v failForTest => exact ends_approveUser h a v failForTest
  | suspendUser a v reason => exact ends_suspendUser h (of_decide_eq_false hself) reason
  | changeRole a v role grant =>
      exact ends_changeRole h (by simpa [AdminOp.isSelfAction] using hself)
  | revokeSessions a v => exact ends_revokeSessions h (of_decide_eq_false hself)

/-- The refresh token of a bundle, and the grant `issue_bundle` inserts for it. -/
theorem bundleRefresh_eq (v aud : String) (refreshToken : Option String) (fresh : String) :
    bundleRefresh env db v aud refreshToken fresh now =
      (if refreshToken.any (· ≠ "") then some db
        else issueRefresh env db v aud fresh now).map (orDefault refreshToken fresh, ·) := by
  cases refreshToken with
  | none => rfl
  | some raw => by_cases hr : raw = "" <;> simp [bundleRefresh, orDefault, hr]

/-- The last statement of `issue_bundle`, and the commit. -/
theorem ends_sign {t : Txn} {v : String} {u : User} {names : List String}
    (hu : t.users v = some ⟨u, u⟩) (hn : t.roleNames = some names) (aud refresh : String)
    (activeKid : Option String) :
    t.ends env now db [.sign v aud refresh activeKid] =
      (issueAccess activeKid (bundleClaims v u.authzVersion names aud now)).bind fun access =>
        (applyAll env db t.writes).map (·, some ⟨v, access, refresh⟩) := by
  cases hi : issueAccess activeKid (bundleClaims v u.authzVersion names aud now) <;>
    simp [Txn.ends, Txn.runs, Txn.exec, Move.goesOn, hu, hn, hi]

/-- What `issue_bundle` does once it has read the user and the roles: a taken digest is found at
    the commit here, and rolls the same back. -/
theorem ends_issue {t : Txn} {v : String} {u : User} {names : List String}
    (hu : t.users v = some ⟨u, u⟩) (hn : t.roleNames = some names) (hw : t.writes = [])
    (aud : String) (refreshToken : Option String) (fresh : String) (activeKid : Option String) :
    t.ends env now db ((if refreshToken.any (· ≠ "") then [] else [.insertGrant fresh v aud]) ++
        [.sign v aud (orDefault refreshToken fresh) activeKid]) =
      (bundleRefresh env db v aud refreshToken fresh now).bind fun (refresh, db') =>
        (issueAccess activeKid (bundleClaims v u.authzVersion names aud now)).map fun access =>
          (db', some ⟨v, access, refresh⟩) := by
  rw [bundleRefresh_eq]
  by_cases hgiven : (refreshToken.any (· ≠ "")) = true
  · rw [if_pos hgiven, if_pos hgiven, List.nil_append, ends_sign hu hn, hw]
    cases issueAccess activeKid (bundleClaims v u.authzVersion names aud now) <;> rfl
  · rw [if_neg hgiven, if_neg hgiven]
    have hinsert : Txn.runs now db [.insertGrant fresh v aud] t =
        some { t with writes := [.insertGrant fresh v aud now] } := by
      simp [Txn.runs, Txn.exec, Move.goesOn, hw]
    have happly : applyAll env db [.insertGrant fresh v aud now] =
        issueRefresh env db v aud fresh now := Option.bind_fun_some _
    rw [ends_runs hinsert,
      ends_sign (t := { t with writes := [.insertGrant fresh v aud now] }) hu hn, happly]
    cases issueAccess activeKid (bundleClaims v u.authzVersion names aud now) <;>
      cases issueRefresh env db v aud fresh now <;> rfl

theorem bundle_ends {t : Txn} (h : t.Fresh db) (v aud : String) (refreshToken : Option String)
    (fresh : String) (activeKid : Option String) :
    t.ends env now db (bundleProgram v aud refreshToken fresh activeKid) =
      (issueBundle env db v aud refreshToken fresh activeKid now).toOption.map
        fun p => (p.2, some p.1) := by
  obtain ⟨hload, hl⟩ := h.load v
  have hread : Txn.runs now db [.getUser v, .readRoles v] t =
      if db.isActive v then
        some { t.load v (db.user v) with roleNames := some (db.roles v) } else none := by
    cases hu : db.user v with
    | none =>
        rw [hu] at hl
        simp [Txn.runs, Txn.exec, Move.goesOn, Db.isActive, hu, hl]
    | some u =>
        rw [hu] at hl
        by_cases hs : u.status = .active <;>
          simp [Txn.runs, Txn.exec, Move.goesOn, Db.isActive, hu, hl, hs]
  have hprogram : bundleProgram v aud refreshToken fresh activeKid =
      [.getUser v, .readRoles v] ++ ((if refreshToken.any (· ≠ "") then []
        else [.insertGrant fresh v aud]) ++
          [.sign v aud (orDefault refreshToken fresh) activeKid]) :=
    List.append_assoc ..
  rw [hprogram, ends_append, hread]
  unfold issueBundle
  cases hu : db.user v with
  | none =>
      rw [show db.isActive v = false by simp [Db.isActive, hu]]
      rfl
  | some u =>
      rw [hu] at hl hload
      by_cases hs : u.status = .active
      · rw [show db.isActive v = true by simp [Db.isActive, hu, hs], if_pos rfl,
          Option.bind_some,
          ends_issue (t := { t.load v (some u) with roleNames := some (db.roles v) }) hl rfl
            hload.writes]
        simp only [hs, ne_eq, not_true_eq_false, ite_false]
        cases bundleRefresh env db v aud refreshToken fresh now with
        | none => rfl
        | some p =>
            simp only [Option.bind_some]
            cases issueAccess activeKid (bundleClaims v u.authzVersion (db.roles v) aud now) <;>
              rfl
      · rw [show db.isActive v = false by simp [Db.isActive, hu, hs]]
        simp [hs, Except.toOption]

/-! ## Calls one after another -/

theorem exec_selfAction {o : AdminOp} (h : o.isSelfAction = true) :
    o.exec env db now = .error .selfAction := by
  cases o with
  | bootstrapAdmin u => cases h
  | approveUser a t failForTest => cases h
  | suspendUser a t reason => exact if_pos (of_decide_eq_true h)
  | changeRole a t role grant =>
      refine if_pos ?_
      simpa [AdminOp.isSelfAction, and_assoc] using h
  | revokeSessions a t => exact if_pos (of_decide_eq_true h)

/-- A call in one step: the tables it leaves and the bundle; `none` where it raises. -/
def Call.exec (env : Env) (now : Time) (db : Db) : Call → Option (Db × Option TokenBundle)
  | .admin op => committed (op.exec env db now)
  | .bundle v aud refreshToken fresh activeKid =>
      (issueBundle env db v aud refreshToken fresh activeKid now).toOption.map
        fun p => (p.2, some p.1)

theorem ends_call {c : Call} {t₀ : Txn} (hc : c.begin = some t₀) {t : Txn} (h : t.Fresh db) :
    t.ends env now db c.program = c.exec env now db := by
  cases c with
  | admin o =>
      have hself : o.isSelfAction = false := by
        by_contra hself
        rw [Bool.not_eq_false] at hself
        simp [Call.begin, hself] at hc
      exact admin_ends o hself h
  | bundle v aud refreshToken fresh activeKid =>
      exact bundle_ends h v aud refreshToken fresh activeKid

/-- A call that is refused raises. -/
theorem exec_refused {c : Call} (hc : c.begin = none) : c.exec env now db = none := by
  cases c with
  | admin o =>
      have hself : o.isSelfAction = true := by
        by_contra hself
        simp [Call.begin, hself] at hc
      show committed (o.exec env db now) = none
      rw [exec_selfAction hself]
      rfl
  | bundle v aud refreshToken fresh activeKid => cases hc

/-- A call whose statements nobody else's interrupt. After `fault` of them its transaction is
    rolled back, unless it has been committed. -/
structure Turn where
  tid : ℕ
  call : Call
  now : Time
  fault : Option ℕ
  deriving DecidableEq, Repr

namespace Turn

/-- The rollback comes before the commit is done. -/
def faulty (a : Turn) : Bool := a.fault.any (· ≤ a.call.program.length)

/-- The call begins, its statements run, and it is rolled back or commits. -/
def events (a : Turn) : List (Event Call Time) :=
  .start a.tid a.call ::
    if a.faulty then List.replicate (a.fault.getD 0) (.stmt a.tid a.now) ++ [.abort a.tid]
    else List.replicate (a.call.program.length + 1) (.stmt a.tid a.now)

/-- The turn in one step, on the tables and the bundles handed out so far. -/
def exec (env : Env) (s : Db × List TokenBundle) (a : Turn) : Db × List TokenBundle :=
  if a.faulty then s
  else ((a.call.exec env a.now s.1).map fun p => (p.1, p.2.toList ++ s.2)).getD s

end Turn

/-- A transaction that has been opened is that of the call. -/
theorem begin_eq_some {c : Call} {t : Txn} (h : c.begin = some t) :
    t = { call := c, rest := c.program } := by
  cases c with
  | admin o =>
      simp only [Call.begin] at h
      split at h
      · cases h
      · exact (Option.some.inj h).symm
  | bundle v aud refreshToken fresh activeKid => exact (Option.some.inj h).symm

/-- One turn. -/
theorem run_turn (env : Env) {s : World Db Txn String TokenBundle} (hs : s.Quiet) (a : Turn) :
    let s' := run (engine env).step s a.events
    s'.Quiet ∧ (s'.db, s'.out) = a.exec env (s.db, s.out) := by
  have hrefused : ∀ n, run (engine env).step s (List.replicate n (.stmt a.tid a.now)) = s :=
    run_closed (hs.txns a.tid)
  unfold Turn.events Turn.exec
  simp only [run_cons]
  cases hc : a.call.begin with
  | none =>
      rw [Engine.step_refused hc]
      split
      · rw [run_append, hrefused]
        exact ⟨(hs.alone a.tid).close, rfl⟩
      · rw [hrefused, exec_refused hc]
        exact ⟨hs, rfl⟩
  | some t =>
      rw [Engine.step_start (hs.txns a.tid) hc]
      have ht : (s.put a.tid t).txns a.tid = some t := World.txns_put.trans (if_pos rfl)
      have halone : (s.put a.tid t).Alone a.tid := (hs.alone a.tid).put t
      have hrest : t.rest = a.call.program := by rw [begin_eq_some hc]
      split
      · next hf =>
          obtain ⟨k, hk, hle⟩ := (Option.any_eq_true _ _).mp hf
          rw [hk, Option.getD_some, run_append]
          obtain ⟨h', hdb⟩ := run_stmts env a.now ht halone (n := k)
            (by rw [hrest]; simpa using hle)
          exact ⟨h'.close, hdb⟩
      · have hfresh : t.Fresh s.db := by
          rw [begin_eq_some hc]
          exact fresh_begin a.call
        obtain ⟨h', hends⟩ := run_alone env a.now ht halone
        rw [hrest] at h' hends
        refine ⟨h', hends.trans ?_⟩
        rw [← ends_call hc hfresh]
        rfl

/-- Turns run as their one-step descriptions do. -/
theorem run_turns (env : Env) (turns : List Turn) {s : World Db Txn String TokenBundle}
    (hs : s.Quiet) :
    let s' := run (engine env).step s (turns.flatMap Turn.events)
    (s'.db, s'.out) = turns.foldl (Turn.exec env) (s.db, s.out) := by
  simp only
  induction turns generalizing s with
  | nil => rfl
  | cons a turns ih =>
      obtain ⟨hquiet, hturn⟩ := run_turn env hs a
      rw [List.flatMap_cons, run_append, List.foldl_cons, ← hturn]
      exact ih hquiet

/-- One at a time, the calls do what their one-step descriptions do. -/
theorem calls_in_turn (env : Env) (db : Db) (turns : List Turn) :
    let s := run (engine env).step (World.start db) (turns.flatMap Turn.events)
    (s.db, s.out) = turns.foldl (Turn.exec env) (db, []) :=
  run_turns env turns (World.quiet_start db)

end TemisLab.Sso
