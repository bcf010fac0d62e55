/-
  Whether the administration can lock itself out. The self-action checks keep one call from
  removing its own actor, but `_assert_admin` reads the actor without a lock and nothing reads
  it again before the commit.

  * `mutual_suspension`: two admins suspend each other. Both pass `_assert_admin` before either
    commits, and both commit.
  * `admins_remain`: an active admin remains in every run in which each `suspend_user` and each
    revocation of the role `admin` finds its actor still an admin when it commits.
-/
import TemisLab.Sso.Statements
import TemisLab.Sso.Requests

namespace TemisLab.Sso

open TemisLab.Lib

/-- The operation may leave its target no admin. -/
def AdminOp.removesAdmin : AdminOp → Bool
  | .suspendUser _ _ _ => true
  | .changeRole _ _ role grant => role = "admin" && !grant
  | _ => false

/-- An operation that is about to remove an admin has an actor who is still one. -/
def authorityStands (s : World Db Txn String TokenBundle) : Event Call Time → Bool
  | .stmt tid _ =>
      match s.txns tid with
      | some ⟨.admin op, [], _, _, _, _, _, _⟩ =>
          !(op.removesAdmin && s.db.isCurrentAdmin op.target) ||
            op.actor.all s.db.isCurrentAdmin
      | _ => true
  | _ => true

/-- From a state with an active admin, the run of `es` reaches a state with one. -/
def AdminsRemain (env : Env) (db : Db) (es : List (Event Call Time)) : Prop :=
  (∃ v, db.isCurrentAdmin v = true) →
    ∃ v, (run (engine env).step (.start db) es).db.isCurrentAdmin v = true

/-- The write may leave user `v` no admin. -/
def Write.Demotes (v : String) : Write → Prop
  | .status w s => w = v ∧ s ≠ .active
  | .deleteRole w r => w = v ∧ r = "admin"
  | _ => False

theorem isCurrentAdmin_iff {db : Db} {v : String} :
    db.isCurrentAdmin v = true ↔
      (∃ u, db.user v = some u ∧ u.status = .active) ∧ db.hasRole v "admin" = true := by
  rw [Db.isCurrentAdmin, Bool.and_eq_true, Db.isActive_iff]

theorem isCurrentAdmin_apply {env : Env} {db db' : Db} {w : Write} {v : String}
    (h : w.apply env db = some db') (hw : ¬ w.Demotes v) (ha : db.isCurrentAdmin v = true) :
    db'.isCurrentAdmin v = true := by
  obtain ⟨⟨u, hu, hst⟩, hr⟩ := isCurrentAdmin_iff.mp ha
  refine isCurrentAdmin_iff.mpr ⟨⟨w.onUser v u, ?_, ?_⟩, ?_⟩
  · rw [user_apply h, hu]
    rfl
  · cases w with
    | status x s =>
        by_cases hx : v = x
        · have hs : s = .active := not_not.mp fun hs => hw ⟨hx.symm, hs⟩
          rw [Write.onUser, if_pos hx, hs]
          rfl
        · rw [Write.onUser, if_neg hx]
          exact hst
    | version x n =>
        by_cases hx : v = x
        · rw [Write.onUser, if_pos hx]
          exact hst
        · rw [Write.onUser, if_neg hx]
          exact hst
    | _ => exact hst
  · rw [hasRole_apply h, hr]
    cases w with
    | insertRole x r => rfl
    | deleteRole x r =>
        have hne : ¬ (v = x ∧ "admin" = r) := fun he => hw ⟨he.1.symm, he.2.symm⟩
        simp [Write.onRole, hne]
    | _ => rfl

/-- An operation that suspends its target or takes the role `admin` from it removes an admin. -/
theorem removesAdmin_of_status {o : AdminOp} (h : o.statusAfter .active ≠ .active) :
    o.removesAdmin = true := by
  cases o with
  | suspendUser a t reason => rfl
  | _ => exact absurd rfl h

theorem removesAdmin_of_role {o : AdminOp} (h : o.hasRoleAfter "admin" true = false) :
    o.removesAdmin = true := by
  cases o with
  | changeRole a t role grant =>
      simp only [AdminOp.hasRoleAfter] at h
      split at h
      · next hrole => simp [AdminOp.removesAdmin, hrole, h]
      · cases h
  | _ => simp [AdminOp.hasRoleAfter] at h

/-- Only the removing operations make a demoting write, and about their target. -/
theorem removes_of_demotes {c : Call} {w : Write} {v : String} (hm : c.Makes w)
    (hd : w.Demotes v) :
    ∃ op, c = .admin op ∧ op.target = v ∧ op.removesAdmin = true := by
  cases c with
  | bundle u aud refreshToken fresh kid =>
      cases w with
      | status x s => simpa using mem_bundleProgram hm
      | deleteRole x r => simpa using mem_bundleProgram hm
      | _ => exact absurd hd id
  | admin op =>
      cases w with
      | status x s =>
          cases AdminOp.has_of_mem hm with
          | setStatus s hs =>
              exact ⟨op, rfl, hd.1, removesAdmin_of_status (by rw [hs]; exact hd.2)⟩
      | deleteRole x r =>
          cases AdminOp.has_of_mem hm with
          | deleteRole r hr => exact ⟨op, rfl, hd.1, removesAdmin_of_role (hd.2 ▸ hr)⟩
      | _ => exact absurd hd id

/-- A removing operation that began acts on somebody else. -/
theorem actor_ne_target {op : AdminOp} (hs : op.isSelfAction = false)
    (hr : op.removesAdmin = true) : ∃ a, op.actor = some a ∧ a ≠ op.target := by
  cases op with
  | suspendUser a t reason =>
      exact ⟨a, rfl, by simpa [AdminOp.isSelfAction, AdminOp.target] using hs⟩
  | changeRole a t role grant =>
      refine ⟨a, rfl, ?_⟩
      simp only [AdminOp.removesAdmin, Bool.and_eq_true, decide_eq_true_eq] at hr
      simpa [AdminOp.isSelfAction, AdminOp.target, hr.1, hr.2] using hs
  | bootstrapAdmin u => cases hr
  | approveUser a t failForTest => cases hr
  | revokeSessions a t => cases hr

/-- A transaction of its program that passed the self-action check. -/
structure Txn.Begun (t : Txn) : Prop where
  shape : t.Shape
  notSelf : ∀ op, t.call = .admin op → op.isSelfAction = false

theorem begun_begin {c : Call} {t : Txn} (h : c.begin = some t) : t.Begun := by
  obtain ⟨hshape, hcall⟩ := shape_begin h
  refine ⟨hshape, ?_⟩
  intro op hop
  rw [hcall] at hop
  subst hop
  by_contra hself
  simp only [Bool.not_eq_false] at hself
  simp [Call.begin, hself] at h

/-- The commit of a begun transaction leaves an admin, if its actor is still one or it removes
    none. -/
theorem admin_commit {env : Env} {db db' : Db} {t : Txn} (ht : t.Begun)
    (hq : ∀ op, t.call = .admin op → op.removesAdmin = true →
      db.isCurrentAdmin op.target = true → ∀ a, op.actor = some a → db.isCurrentAdmin a = true)
    (h : applyAll env db t.writes = some db') (hdb : ∃ v, db.isCurrentAdmin v = true) :
    ∃ v, db'.isCurrentAdmin v = true := by
  have hkeep : ∀ v, (∀ w ∈ t.writes, ¬ w.Demotes v) → db.isCurrentAdmin v = true →
      db'.isCurrentAdmin v = true := by
    intro v hv ha
    exact applyAll_keeps (P := fun db => db.isCurrentAdmin v = true)
      (fun w hw db₁ db₂ h₁ happly => isCurrentAdmin_apply happly (hv w hw) h₁) ha h
  obtain ⟨v, hv⟩ := hdb
  by_cases hd : ∃ w ∈ t.writes, w.Demotes v
  · -- the operation may demote `v`; then its actor, another user, remains
    obtain ⟨w, hw, hd⟩ := hd
    obtain ⟨op, hop, htarget, hremoves⟩ := removes_of_demotes (ht.shape.writes w hw) hd
    obtain ⟨a, ha, hne⟩ := actor_ne_target (ht.notSelf op hop) hremoves
    refine ⟨a, hkeep a ?_ (hq op hop hremoves (htarget ▸ hv) a ha)⟩
    intro w' hw' hd'
    obtain ⟨op', hop', htarget', -⟩ := removes_of_demotes (ht.shape.writes w' hw') hd'
    rw [hop] at hop'
    cases hop'
    exact hne htarget'.symm
  · push Not at hd
    exact ⟨v, hkeep v hd hv⟩

theorem admin_keeps (env : Env) :
    (engine env).Keeps (fun db _ => ∃ v, db.isCurrentAdmin v = true) (fun _ _ t => t.Begun)
      (fun s e => authorityStands s e = true) := by
  refine ⟨?_, ?_, ?_, ?_⟩
  · intro db c t h
    exact begun_begin h
  · intro s tid i t k t' _ _ hI hm _
    obtain ⟨hshape, hcall⟩ := shape_move hI.shape hm
    exact ⟨hshape, hcall ▸ hI.notSelf⟩
  · intro s tid i t db out hq ht hG hI hm
    obtain ⟨hrest, happly, -⟩ := move_commit hm
    refine admin_commit hI ?_ happly hG
    intro op hop hremoves htarget a ha
    obtain ⟨call, rest, users, roles, added, writes, roleNames, bundle⟩ := t
    simp only at hop hrest
    subst hop hrest
    simpa [authorityStands, ht, hremoves, htarget, ha] using hq
  · intro s tid i t db out H t' _ _ _ _ _ hI'
    exact hI'

/-- The administration is not locked out where no actor has lost its authority. -/
theorem admins_remain (env : Env) (db : Db) (es : List (Event Call Time))
    (h : Along (engine env).step (fun s e => authorityStands s e = true) (.start db) es) :
    AdminsRemain env db es :=
  fun h0 => ((admin_keeps env).run h0 h).committed

/-! ## Two admins -/

/-- Two active admins, `a` and `b`. -/
def twoAdmins : Db :=
  (run (step plainEnv) (.start .empty)
    [.register 0 "a" "a" "pw", .admin (.bootstrapAdmin "a") 0,
     .register 1 "b" "b" "pw", .admin (.bootstrapAdmin "b") 0]).db

/-- Each suspends the other; both have passed `_assert_admin` before the first commit. -/
def overlapping : List (Event Call Time) :=
  .start 0 (.admin (.suspendUser "a" "b" "abuse")) :: stmts 0 3 ++
    .start 1 (.admin (.suspendUser "b" "a" "abuse")) :: stmts 1 10 ++ stmts 0 7

/-- Both commit, and nobody is left. -/
theorem mutual_suspension :
    ¬ ∀ env db es,
      (∀ tid call, .start tid call ∈ es → (run (engine env).step (.start db) es).txns tid = none) →
      AdminsRemain env db es := by
  intro h
  have hclosed : ∀ tid call, .start tid call ∈ overlapping →
      (run (engine plainEnv).step (.start twoAdmins) overlapping).txns tid = none := by
    intro tid call hmem
    have htid : tid = 0 ∨ tid = 1 := by
      simp [overlapping, stmts] at hmem
      omega
    obtain rfl | rfl := htid
    · rfl
    · rfl
  obtain ⟨v, hv⟩ := h plainEnv twoAdmins overlapping hclosed ⟨"a", by decide +kernel⟩
  have hnone : ∀ u ∈ (run (engine plainEnv).step (.start twoAdmins) overlapping).db.users.rows,
      u.status ≠ .active := by decide +kernel
  obtain ⟨⟨u, hu, hst⟩, -⟩ := isCurrentAdmin_iff.mp hv
  exact hnone u (Table.mem_of_get hu).1 hst

/-- `a` suspends `b` and takes its role away, and `b` suspends `a`, at once. The second waits for
    the row lock; the third has read nothing when the first commits. -/
def crossing : List (Event Call Time) :=
  .start 0 (.admin (.suspendUser "a" "b" "abuse")) :: stmts 0 4 ++
    .start 1 (.admin (.changeRole "a" "b" "admin" false)) :: stmts 1 4 ++
    .start 2 (.admin (.suspendUser "b" "a" "abuse")) :: stmts 0 6 ++ stmts 2 3 ++ stmts 1 7

/-- The first two commit, the third finds its actor suspended, and `a` is left. -/
theorem crossing_leaves_admin :
    (run (engine plainEnv).step (.start twoAdmins) crossing).db.hasRole "b" "admin" = false ∧
      AdminsRemain plainEnv twoAdmins crossing :=
  ⟨by decide +kernel, admins_remain plainEnv twoAdmins _ (by decide +kernel)⟩

end TemisLab.Sso
