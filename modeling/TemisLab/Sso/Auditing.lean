/-
  What the audit log accounts for. The admin operations and `issue_bundle` run statement by
  statement under READ COMMITTED, in any interleaving, with rollbacks; the trail keeps beside them
  the calls that have committed, in their order.

  * `audit_accounts`: the audit log has the entries of the operations that committed. Its order is
    stated for one target only: the id of an entry is drawn when it is flushed, under the lock of
    the target's row, so that operations on two targets may commit the other way round.
  * `authority_traced`: whoever has the role `admin`, or has acted on it, was given it by
    `bootstrap_admin`, or by a committed grant of somebody of whom the same held before.

  `_assert_admin` is judged by what its transaction has read. What it has read was committed, and so
  had its own grant (`Traced`).
-/
import TemisLab.Sso.Statements

namespace TemisLab.Sso

open TemisLab.Lib

/-! ## The trail -/

/-- The entry of an operation. `bootstrap_admin` makes none. -/
def AdminOp.entry (env : Env) : AdminOp → Option AuditLog
  | .bootstrapAdmin _ => none
  | .approveUser a t _ => some ⟨a, t, "user.approved", redact env []⟩
  | .suspendUser a t reason => some ⟨a, t, "user.suspended", redact env [("reason", reason)]⟩
  | .changeRole a t role grant =>
      some ⟨a, t, if grant then "role.granted" else "role.revoked", redact env [("role", role)]⟩
  | .revokeSessions a t => some ⟨a, t, "sessions.revoked", redact env []⟩

def Call.entry (env : Env) : Call → Option AuditLog
  | .admin op => op.entry env
  | .bundle .. => none

/-- The calls with the ones that have committed. -/
structure Trail where
  world : World Db Txn String TokenBundle
  log : List Call

def Trail.start (db : Db) : Trail := ⟨.start db, []⟩

/-- The call that an event commits. -/
def commits (env : Env) (s : World Db Txn String TokenBundle) : Event Call Time → List Call
  | .stmt tid now =>
      match s.txns tid with
      | none => []
      | some t =>
          match t.move env now s.db with
          | .commit _ _ => [t.call]
          | _ => []
  | _ => []

def Trail.step (env : Env) (x : Trail) (e : Event Call Time) : Trail :=
  ⟨(engine env).step x.world e, x.log ++ commits env x.world e⟩

/-- The trail only watches. -/
theorem world_trail (env : Env) (x : Trail) (es : List (Event Call Time)) :
    (run (Trail.step env) x es).world = run (engine env).step x.world es := by
  induction es generalizing x with
  | nil => rfl
  | cons e es ih => exact ih (x.step env e)

/-- The role `admin` goes back to `db` or to a bootstrap, along grants each of which was committed
    when its author had the role. -/
inductive Empowered (db : Db) : List Call → String → Prop where
  | initial {log : List Call} {u : String} (h : db.hasRole u "admin" = true) : Empowered db log u
  | bootstrapped {log : List Call} {u : String} (h : .admin (.bootstrapAdmin u) ∈ log) :
      Empowered db log u
  | granted {log early late : List Call} {a u : String}
      (h : log = early ++ .admin (.changeRole a u "admin" true) :: late)
      (ha : Empowered db early a) : Empowered db log u

theorem Empowered.append {db : Db} {log : List Call} {u : String} (h : Empowered db log u)
    (more : List Call) : Empowered db (log ++ more) u := by
  cases h with
  | initial h => exact .initial h
  | bootstrapped h => exact .bootstrapped (List.mem_append_left more h)
  | @granted _ early late a _ h ha =>
      have hlog :
          log ++ more = early ++ .admin (.changeRole a u "admin" true) :: (late ++ more) := by
        rw [h, List.append_assoc]
        rfl
      exact .granted hlog ha

/-! ## The entries -/

/-- The entry a statement writes. -/
def Stmt.entry (env : Env) : Stmt → Option AuditLog
  | .audit a t action details => some ⟨a, t, action, redact env details⟩
  | _ => none

def Write.entry (env : Env) : Write → Option AuditLog
  | .audit a t action details => some ⟨a, t, action, redact env details⟩
  | _ => none

/-- A program writes its operation's entry. -/
theorem entries_program (env : Env) (c : Call) :
    c.program.filterMap (Stmt.entry env) = (c.entry env).toList := by
  cases c with
  | bundle u aud refreshToken fresh kid =>
      simp only [Call.program, bundleProgram]
      split <;> rfl
  | admin op =>
      cases op with
      | bootstrapAdmin u => rfl
      | approveUser a t failForTest => cases failForTest <;> rfl
      | suspendUser a t reason => rfl
      | changeRole a t role grant => cases grant <;> rfl
      | revokeSessions a t => rfl

theorem entries_changes (env : Env) (l : Loaded) (v : String) :
    (l.changes v).filterMap (Write.entry env) = [] := by
  unfold Loaded.changes
  split_ifs <;> rfl

/-- What a statement adds to the entries its transaction will commit. -/
theorem entries_exec (env : Env) {now : Time} {db : Db} {t t' : Txn} {st : Stmt}
    {k : Option String} (h : (t.exec now db st).goesOn = some (k, t')) :
    t'.writes.filterMap (Write.entry env) =
      t.writes.filterMap (Write.entry env) ++ (st.entry env).toList := by
  have hnone : ∀ ws : List Write, ws.filterMap (Write.entry env) = [] →
      (t.writes ++ ws).filterMap (Write.entry env) =
        t.writes.filterMap (Write.entry env) ++ [] := by
    intro ws hws
    rw [List.filterMap_append, hws]
  have hsame : t.writes.filterMap (Write.entry env) =
      t.writes.filterMap (Write.entry env) ++ [] := (List.append_nil _).symm
  cases st with
  | getUser v =>
      cases h
      rw [(load_fields t v _).2.2.2.1]
      exact hsame
  | getRole v r =>
      cases h
      split <;> exact hsame
  | assertAdmin a =>
      simp only [Txn.exec] at h
      split at h
      · cases h
      · split at h <;> cases h
        exact hsame
  | requireUser v =>
      simp only [Txn.exec] at h
      split at h <;> cases h
      exact hsame
  | lockUser v =>
      simp only [Txn.exec] at h
      split at h <;> cases h
      rw [(load_fields t v _).2.2.2.1]
      exact hsame
  | setStatus v s =>
      simp only [Txn.exec] at h
      split at h <;> cases h
      exact hsame
  | flush v =>
      simp only [Txn.exec] at h
      split at h
      · cases h
      · split at h <;> cases h
        · exact hsame
        · exact hnone _ (entries_changes env _ v)
  | deleteRole v r =>
      cases h
      split
      · exact hnone _ rfl
      · exact hsame
  | mergeRole v r =>
      simp only [Txn.exec] at h
      split at h <;> cases h <;> exact hsame
  | flushVersion v =>
      simp only [Txn.exec] at h
      split at h <;> cases h
      exact hnone _ (entries_changes env _ v)
  | insertRoles =>
      simp only [Txn.exec] at h
      split at h <;> cases h
      refine hnone _ ?_
      rw [List.filterMap_map]
      exact List.filterMap_eq_nil_iff.mpr fun _ _ => rfl
  | consumeGrants v =>
      cases h
      exact hnone _ rfl
  | audit a v action details =>
      cases h
      exact List.filterMap_append
  | raise => cases h
  | readRoles v =>
      simp only [Txn.exec] at h
      split at h
      · cases h
      · split at h <;> cases h
        exact hsame
  | insertGrant raw v aud =>
      cases h
      exact hnone _ rfl
  | sign v aud refresh activeKid =>
      simp only [Txn.exec] at h
      split at h
      · split at h <;> cases h
        exact hsame
      · cases h

theorem auditLogs_apply {env : Env} {db db' : Db} {w : Write} (h : w.apply env db = some db') :
    db'.auditLogs = db.auditLogs ++ (w.entry env).toList := by
  cases w with
  | insertRole v r =>
      obtain ⟨roles, -, rfl⟩ := Option.map_eq_some_iff.mp h
      simp [Write.entry]
  | insertGrant raw v aud now =>
      obtain ⟨grants, g, -, -, -, -, -, rfl⟩ := issueRefresh_eq_some h
      simp [Write.entry]
  | audit a v action details =>
      cases h
      rfl
  | _ =>
      cases h
      exact (List.append_nil _).symm

theorem auditLogs_applyAll {env : Env} {db db' : Db} {ws : List Write}
    (h : applyAll env db ws = some db') :
    db'.auditLogs = db.auditLogs ++ ws.filterMap (Write.entry env) := by
  induction ws generalizing db with
  | nil =>
      cases h
      exact (List.append_nil _).symm
  | cons w ws ih =>
      obtain ⟨db₁, hw, hws⟩ := Option.bind_eq_some_iff.mp h
      rw [ih hws, auditLogs_apply hw, List.append_assoc]
      cases hentry : w.entry env with
      | none => rw [List.filterMap_cons_none hentry]; rfl
      | some entry => rw [List.filterMap_cons_some hentry]; rfl

/-! ## What a session knows of roles -/

/-- The check of the actor is still to come. -/
def Unchecked (rest : List Stmt) : Prop := ∃ a, .assertAdmin a ∈ rest

/-- The statement adds a role row. -/
def Stmt.merges : Stmt → Bool
  | .mergeRole _ _ => true
  | _ => false

/-- No role row is added before the check of the actor. -/
def Guarded : List Stmt → Prop
  | [] => True
  | st :: rest => (st.merges = true → ¬ Unchecked rest) ∧ Guarded rest

theorem not_unchecked {rest : List Stmt} (h : ∀ a, .assertAdmin a ∉ rest) : ¬ Unchecked rest :=
  fun hrest => hrest.elim h

theorem guarded_of_checked {rest : List Stmt} (h : ∀ a, .assertAdmin a ∉ rest) :
    Guarded rest := by
  induction rest with
  | nil => trivial
  | cons st rest ih =>
      have hrest : ∀ a, .assertAdmin a ∉ rest :=
        fun a ha => h a (List.mem_cons_of_mem st ha)
      exact ⟨fun _ => not_unchecked hrest, ih hrest⟩

theorem guarded_assertAdmin {a : String} {rest : List Stmt} (h : ∀ b, .assertAdmin b ∉ rest) :
    Guarded (assertAdminStmts a ++ rest) := by
  have hguarded := guarded_of_checked h
  refine ⟨nofun, nofun, nofun, hguarded⟩

/-- Every program checks its actor first. -/
theorem guarded_program (c : Call) : Guarded c.program := by
  cases c with
  | bundle u aud refreshToken fresh kid =>
      refine guarded_of_checked ?_
      intro a ha
      have hmem := mem_bundleProgram ha
      simp at hmem
  | admin op =>
      cases op with
      | bootstrapAdmin u => exact guarded_of_checked (by simp [Call.program, AdminOp.program])
      | approveUser a t failForTest =>
          simp only [Call.program, AdminOp.program, List.append_assoc]
          refine guarded_assertAdmin ?_
          cases failForTest <;> simp
      | suspendUser a t reason =>
          simp only [Call.program, AdminOp.program, List.append_assoc]
          exact guarded_assertAdmin (by simp)
      | changeRole a t role grant =>
          simp only [Call.program, AdminOp.program, List.append_assoc]
          refine guarded_assertAdmin ?_
          cases grant <;> simp
      | revokeSessions a t =>
          simp only [Call.program, AdminOp.program, List.append_assoc]
          exact guarded_assertAdmin (by simp)

/-- What a statement does to what its session knows of roles. -/
structure Learns (db : Db) (t : Txn) (st : Stmt) (t' : Txn) : Prop where
  call : t'.call = t.call
  rest : t'.rest = t.rest
  roles : ∀ v r, (v, r) ∈ t'.roles →
    (v, r) ∈ t.roles ∨ db.hasRole v r = true ∨ (v, r) ∈ t.added
  added : st.merges = false → ∀ p ∈ t'.added, p ∈ t.added
  asserted : ∀ a, st = .assertAdmin a → (a, "admin") ∈ t.roles

theorem learns_exec {now : Time} {db : Db} {t t' : Txn} {st : Stmt} {k : Option String}
    (h : (t.exec now db st).goesOn = some (k, t')) : Learns db t st t' := by
  have hload : ∀ v row, Learns db t (.getUser v) (t.load v row) := by
    intro v row
    obtain ⟨hcall, hrest, hadded, -⟩ := load_fields t v row
    have hroles : (t.load v row).roles = t.roles := by
      unfold Txn.load
      split <;> rfl
    exact ⟨hcall, hrest, fun w r hw => Or.inl (hroles ▸ hw), fun _ p hp => hadded ▸ hp,
      fun _ he => by cases he⟩
  cases st with
  | getUser v =>
      cases h
      exact hload v _
  | lockUser v =>
      simp only [Txn.exec] at h
      split at h <;> cases h
      obtain ⟨hcall, hrest, hroles, hadded, -⟩ := hload v (some _)
      exact ⟨hcall, hrest, hroles, hadded, fun _ he => by cases he⟩
  | getRole v r =>
      cases h
      split
      · next hrole =>
          refine ⟨rfl, rfl, ?_, fun _ _ hp => hp, fun _ he => by cases he⟩
          intro w r' hw
          rcases List.mem_cons.mp hw with he | hw
          · cases he
            exact Or.inr (Or.inl hrole)
          · exact Or.inl hw
      · exact ⟨rfl, rfl, fun _ _ hw => Or.inl hw, fun _ _ hp => hp, fun _ he => by cases he⟩
  | assertAdmin a =>
      simp only [Txn.exec] at h
      split at h
      · cases h
      · split at h
        · next hadmin =>
            cases h
            refine ⟨rfl, rfl, fun _ _ hw => Or.inl hw, fun _ _ hp => hp, ?_⟩
            intro b hb
            cases hb
            exact hadmin.2
        · cases h
  | mergeRole v r =>
      simp only [Txn.exec] at h
      split at h
      · next hrole =>
          cases h
          refine ⟨rfl, rfl, ?_, (fun he => by cases he), fun _ he => by cases he⟩
          intro w r' hw
          rcases List.mem_cons.mp hw with he | hw
          · cases he
            exact hrole.imp_right Or.inl
          · exact Or.inl hw
      · cases h
        exact ⟨rfl, rfl, fun _ _ hw => Or.inl hw, (fun he => by cases he), fun _ he => by cases he⟩
  | insertRoles =>
      simp only [Txn.exec] at h
      split at h <;> cases h
      refine ⟨rfl, rfl, ?_, fun _ _ hp => absurd hp List.not_mem_nil, fun _ he => by cases he⟩
      intro w r hw
      exact (List.mem_append.mp hw).symm.imp_right Or.inr
  | deleteRole v r =>
      cases h
      split <;> exact ⟨rfl, rfl, fun _ _ hw => Or.inl hw, fun _ _ hp => hp, fun _ he => by cases he⟩
  | flush v =>
      simp only [Txn.exec] at h
      split at h
      · cases h
      · split at h <;> cases h
        · exact ⟨rfl, rfl, fun _ _ hw => Or.inl hw, fun _ _ hp => hp, fun _ he => by cases he⟩
        · exact ⟨rfl, rfl, fun _ _ hw => Or.inl hw, fun _ _ hp => hp, fun _ he => by cases he⟩
  | sign v aud refresh activeKid =>
      simp only [Txn.exec] at h
      split at h
      · split at h <;> cases h
        exact ⟨rfl, rfl, fun _ _ hw => Or.inl hw, fun _ _ hp => hp, fun _ he => by cases he⟩
      · cases h
  | readRoles v =>
      simp only [Txn.exec] at h
      split at h
      · cases h
      · split at h <;> cases h
        exact ⟨rfl, rfl, fun _ _ hw => Or.inl hw, fun _ _ hp => hp, fun _ he => by cases he⟩
  | requireUser v | setStatus v _ | flushVersion v =>
      simp only [Txn.exec] at h
      split at h <;> cases h
      exact ⟨rfl, rfl, fun _ _ hw => Or.inl hw, fun _ _ hp => hp, fun _ he => by cases he⟩
  | raise => cases h
  | consumeGrants | audit | insertGrant =>
      cases h
      exact ⟨rfl, rfl, fun _ _ hw => Or.inl hw, fun _ _ hp => hp, fun _ he => by cases he⟩

/-! ## The invariant -/

/-- What holds of a transaction, where `Emp` are those who are known to be empowered. -/
structure Traced (env : Env) (Emp : String → Prop) (t : Txn) : Prop where
  shape : t.Shape
  guarded : Guarded t.rest
  added : Unchecked t.rest → t.added = []
  roles : Unchecked t.rest → ∀ v, (v, "admin") ∈ t.roles → Emp v
  actor : ∀ op a, t.call = .admin op → op.actor = some a → .assertAdmin a ∈ t.rest ∨ Emp a
  entries : t.writes.filterMap (Write.entry env) ++ t.rest.filterMap (Stmt.entry env) =
    (t.call.entry env).toList

variable {env : Env} {Emp : String → Prop}

/-- An operation with an actor checks it. -/
theorem assertAdmin_program {op : AdminOp} {a : String} (ha : op.actor = some a) :
    .assertAdmin a ∈ op.program := by
  cases op with
  | bootstrapAdmin u => cases ha
  | approveUser b t failForTest =>
      cases ha
      cases failForTest <;> simp [AdminOp.program]
  | _ =>
      cases ha
      simp [AdminOp.program]

theorem traced_begin {c : Call} {t : Txn} (h : c.begin = some t) : Traced env Emp t := by
  obtain ⟨hshape, hcall⟩ := shape_begin h
  have ht : t = { call := c, rest := c.program } := by
    unfold Call.begin at h
    split at h
    · split at h
      · cases h
      · exact (Option.some.inj h).symm
    · exact (Option.some.inj h).symm
  rw [ht] at hshape ⊢
  refine ⟨hshape, guarded_program c, fun _ => rfl, fun _ _ hv => absurd hv List.not_mem_nil, ?_,
    entries_program env c⟩
  intro op a hop ha
  cases hop
  exact Or.inl (assertAdmin_program ha)

theorem Traced.mono {Emp' : String → Prop} {t : Txn} (h : Traced env Emp t)
    (hemp : ∀ v, Emp v → Emp' v) : Traced env Emp' t :=
  ⟨h.shape, h.guarded, h.added, fun hu v hv => hemp v (h.roles hu v hv),
    fun op a hop ha => (h.actor op a hop ha).imp_right (hemp a), h.entries⟩

/-- A statement keeps the invariant, where the committed admins are empowered. -/
theorem traced_move {now : Time} {db : Db} {t t' : Txn} {k : Option String}
    (hdb : ∀ v, db.hasRole v "admin" = true → Emp v) (h : Traced env Emp t)
    (hm : (t.move env now db).goesOn = some (k, t')) : Traced env Emp t' := by
  obtain ⟨hshape, -⟩ := shape_move h.shape hm
  unfold Txn.move at hm
  split at hm
  · split at hm <;> cases hm
  · next st rest hrest =>
      have hl := learns_exec hm
      have he := entries_exec env hm
      have hrest' : t'.rest = rest := hl.rest
      have hunchecked : Unchecked t'.rest → Unchecked t.rest := by
        rintro ⟨a, ha⟩
        rw [hrest'] at ha
        rw [hrest]
        exact ⟨a, List.mem_cons_of_mem st ha⟩
      have hguarded := h.guarded
      rw [hrest] at hguarded
      refine ⟨hshape, ?_, ?_, ?_, ?_, ?_⟩
      · rw [hrest']
        exact hguarded.2
      · intro hu
        have hmerges : st.merges = false := by
          rw [← Bool.not_eq_true]
          exact fun hst => hguarded.1 hst (hrest' ▸ hu)
        have hsub := hl.added hmerges
        have hnil : t.added = [] := h.added (hunchecked hu)
        refine List.eq_nil_iff_forall_not_mem.mpr ?_
        intro p hp
        have hmem := hsub p hp
        rw [hnil] at hmem
        cases hmem
      · intro hu v hv
        have hnil : t.added = [] := h.added (hunchecked hu)
        rcases hl.roles v "admin" hv with hv | hv | hv
        · exact h.roles (hunchecked hu) v hv
        · exact hdb v hv
        · rw [hnil] at hv
          cases hv
      · intro op a hop ha
        rw [hrest']
        rcases h.actor op a (hl.call.symm.trans hop) ha with hmem | hemp
        · rw [hrest] at hmem
          rcases List.mem_cons.mp hmem with hst | hmem
          · refine Or.inr (h.roles ⟨a, ?_⟩ a (hl.asserted a hst.symm))
            rw [hrest, hst]
            exact List.mem_cons_self
          · exact Or.inl hmem
        · exact Or.inr hemp
      · have hentries := h.entries
        rw [hrest] at hentries
        rw [hrest', he, hl.call, ← hentries, List.append_assoc]
        congr 1
        cases hentry : st.entry env with
        | none => rw [List.filterMap_cons_none hentry]; rfl
        | some entry => rw [List.filterMap_cons_some hentry]; rfl

theorem traced_keeps (env : Env) (Emp : String → Prop) :
    (engine env).Keeps (fun _ _ => True) (fun _ _ t => Traced env Emp t)
      fun s _ => ∀ v, s.db.hasRole v "admin" = true → Emp v where
  begins := fun _ _ _ hb => traced_begin hb
  goes := fun _ _ _ _ _ _ hdb _ h hm _ => traced_move hdb h hm
  commit := fun _ _ _ _ _ _ _ _ _ _ _ => trivial
  stable := fun _ _ _ _ _ _ _ _ _ _ _ _ _ h => h

/-- An event commits one call, or nothing. -/
theorem trail_cases (env : Env) (x : Trail) (e : Event Call Time) :
    ((x.step env e).world.db = x.world.db ∧ commits env x.world e = []) ∨
      ∃ tid t, x.world.txns tid = some t ∧ t.rest = [] ∧ commits env x.world e = [t.call] ∧
        applyAll env x.world.db t.writes = some (x.step env e).world.db := by
  cases e with
  | start tid c =>
      refine Or.inl ⟨?_, rfl⟩
      simp only [Trail.step, Engine.step]
      split <;> rfl
  | abort tid => exact Or.inl ⟨rfl, rfl⟩
  | stmt tid now =>
      simp only [Trail.step, Engine.step, commits]
      cases ht : x.world.txns tid with
      | none => exact Or.inl ⟨rfl, rfl⟩
      | some t =>
          dsimp only
          have hmove : (engine env).move now x.world.db t = t.move env now x.world.db := rfl
          rw [hmove]
          cases hm : t.move env now x.world.db with
          | fail => exact Or.inl ⟨rfl, rfl⟩
          | next t' => exact Or.inl ⟨rfl, rfl⟩
          | lock k t' =>
              refine Or.inl ⟨?_, rfl⟩
              dsimp only
              split <;> rfl
          | commit db out =>
              obtain ⟨hrest, happly, -⟩ := move_commit hm
              exact Or.inr ⟨tid, t, ht, hrest, rfl, happly⟩

/-- A committed role row `admin` is of a bootstrap or of a grant. -/
theorem makes_admin {c : Call} {v : String} (h : c.Makes (.insertRole v "admin")) :
    c = .admin (.bootstrapAdmin v) ∨ ∃ a, c = .admin (.changeRole a v "admin" true) := by
  have hmem : .mergeRole v "admin" ∈ c.program := h
  cases c with
  | bundle u aud refreshToken fresh kid => simpa using mem_bundleProgram hmem
  | admin op =>
      cases op with
      | bootstrapAdmin u =>
          simp [Call.program, AdminOp.program] at hmem
          exact Or.inl (by rw [hmem])
      | approveUser a t failForTest =>
          cases failForTest <;> simp [Call.program, AdminOp.program] at hmem
      | suspendUser a t reason => simp [Call.program, AdminOp.program] at hmem
      | changeRole a t role grant =>
          cases grant with
          | false => simp [Call.program, AdminOp.program] at hmem
          | true =>
              simp [Call.program, AdminOp.program] at hmem
              obtain ⟨rfl, rfl⟩ := hmem
              exact Or.inr ⟨a, rfl⟩
      | revokeSessions a t => simp [Call.program, AdminOp.program] at hmem

/-! ## Runs -/

/-- The trail so far accounts for the tables and the open transactions. -/
structure Trail.Accounts (env : Env) (db : Db) (x : Trail) : Prop where
  admins : ∀ v, x.world.db.hasRole v "admin" = true → Empowered db x.log v
  sound : Engine.Sound (fun _ _ => True) (fun _ _ t => Traced env (Empowered db x.log) t) x.world
  actors : ∀ early op late, x.log = early ++ .admin op :: late →
    ∀ a, op.actor = some a → Empowered db early a
  entries : x.world.db.auditLogs = db.auditLogs ++ x.log.filterMap (Call.entry env)

theorem accounts_start (env : Env) (db : Db) : (Trail.start db).Accounts env db where
  admins := fun _ h => .initial h
  sound := Engine.sound_start trivial
  actors := by
    intro early op late h
    exact absurd h (by simp [Trail.start])
  entries := (List.append_nil _).symm

theorem accounts_step (env : Env) {db : Db} (x : Trail) (e : Event Call Time)
    (h : x.Accounts env db) : (x.step env e).Accounts env db := by
  have hmono : ∀ v, Empowered db x.log v →
      Empowered db (x.log ++ commits env x.world e) v := fun v hv => hv.append _
  have hlater : Engine.Sound (fun _ _ => True)
      (fun _ _ t => Traced env (Empowered db (x.log ++ commits env x.world e)) t) x.world :=
    ⟨trivial, fun tid t ht => (h.sound.txns tid t ht).mono hmono, h.sound.locks⟩
  have hsound := (traced_keeps env (Empowered db (x.log ++ commits env x.world e))).step
    x.world e hlater fun v hv => hmono v (h.admins v hv)
  rcases trail_cases env x e with ⟨hdb, hnone⟩ | ⟨tid, t, ht, hrest, hcommits, happly⟩
  · have hlog : (x.step env e).log = x.log := by
      show x.log ++ commits env x.world e = x.log
      rw [hnone, List.append_nil]
    refine ⟨?_, hsound, ?_, ?_⟩
    · rw [hdb, hlog]
      exact h.admins
    · rw [hlog]
      exact h.actors
    · rw [hdb, hlog]
      exact h.entries
  · have hlog : (x.step env e).log = x.log ++ [t.call] := by
      show x.log ++ commits env x.world e = _
      rw [hcommits]
    have htraced := h.sound.txns tid t ht
    -- the author of the call had the role before
    have hactor : ∀ op a, t.call = .admin op → op.actor = some a → Empowered db x.log a := by
      intro op a hop ha
      refine (htraced.actor op a hop ha).resolve_left ?_
      rw [hrest]
      exact List.not_mem_nil
    refine ⟨?_, hsound, ?_, ?_⟩
    · have hadmins : ∀ v, x.world.db.hasRole v "admin" = true →
          Empowered db (x.step env e).log v := by
        intro v hv
        rw [hlog]
        exact (h.admins v hv).append _
      refine applyAll_keeps (P := fun d => ∀ v, d.hasRole v "admin" = true →
        Empowered db (x.step env e).log v) ?_ hadmins happly
      intro w hw d d' hd hwrite v hv
      rw [hasRole_apply hwrite] at hv
      cases w with
      | insertRole u r =>
          simp only [Write.onRole, Bool.or_eq_true, decide_eq_true_eq] at hv
          rcases hv with hv | ⟨rfl, rfl⟩
          · exact hd v hv
          · rw [hlog]
            rcases makes_admin (htraced.shape.writes _ hw) with hc | ⟨a, hc⟩
            · exact .bootstrapped (by rw [hc]; simp)
            · exact .granted (by rw [hc]) (hactor _ a hc rfl)
      | deleteRole u r =>
          simp only [Write.onRole, Bool.and_eq_true] at hv
          exact hd v hv.1
      | _ => exact hd v hv
    · rw [hlog]
      intro early op late hsplit a ha
      rcases List.eq_nil_or_concat late with rfl | ⟨late', last, rfl⟩
      · obtain ⟨rfl, hcall⟩ := List.append_inj' hsplit rfl
        exact hactor op a (List.singleton_inj.mp hcall) ha
      · have hsplit' : x.log ++ [t.call] = (early ++ .admin op :: late') ++ [last] := by
          rw [hsplit]
          simp
        obtain ⟨hold, -⟩ := List.append_inj' hsplit' rfl
        exact h.actors early op late' hold a ha
    · have hentries := htraced.entries
      rw [hrest, List.filterMap_nil, List.append_nil] at hentries
      rw [auditLogs_applyAll happly, h.entries, hentries, hlog, List.filterMap_append,
        List.append_assoc]
      rfl

theorem accounts_run (env : Env) (db : Db) (es : List (Event Call Time)) :
    (run (Trail.step env) (.start db) es).Accounts env db :=
  run_always (Trail.step env) (Trail.Accounts env db) (accounts_step env) (accounts_start env db) es

/-- However the statements interleave and whatever is rolled back: the audit log has the entries of
    the operations that committed, each once, and those of one target in the order of their
    commits. -/
theorem audit_accounts (env : Env) (db : Db) (es : List (Event Call Time)) :
    let x := run (Trail.step env) (.start db) es
    let logs := (run (engine env).step (.start db) es).db.auditLogs
    let entries := x.log.filterMap (Call.entry env)
    logs.Perm (db.auditLogs ++ entries) ∧
      ∀ target, logs.filter (fun l => l.targetId = target) =
        db.auditLogs.filter (fun l => l.targetId = target) ++
          entries.filter fun l => l.targetId = target := by
  intro x logs entries
  have hworld : x.world = run (engine env).step (.start db) es := world_trail env (.start db) es
  have hlogs : logs = db.auditLogs ++ entries := by
    show (run (engine env).step (.start db) es).db.auditLogs = _
    rw [← hworld]
    exact (accounts_run env db es).entries
  refine ⟨.of_eq hlogs, ?_⟩
  intro target
  rw [hlogs, List.filter_append]

/-- However the statements interleave: who has the role `admin` in the end, and who has carried out
    an operation on it, was given it by an earlier grant of somebody who had been given it, and so
    on back to a bootstrap or to the first tables. -/
theorem authority_traced (env : Env) (db : Db) (es : List (Event Call Time)) :
    let x := run (Trail.step env) (.start db) es
    (∀ u, (run (engine env).step (.start db) es).db.hasRole u "admin" = true →
        Empowered db x.log u) ∧
      ∀ early op late, x.log = early ++ .admin op :: late →
        ∀ a, op.actor = some a → Empowered db early a := by
  intro x
  have hworld : x.world = run (engine env).step (.start db) es := world_trail env (.start db) es
  rw [← hworld]
  exact ⟨(accounts_run env db es).admins, (accounts_run env db es).actors⟩

end TemisLab.Sso
