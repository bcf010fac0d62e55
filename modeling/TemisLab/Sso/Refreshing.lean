/-
  `POST /auth/refresh` as the client sees it (`api/auth.py`): `rotate_refresh` in one
  transaction, `issue_bundle` in a second one. Either may raise at every point it passes, and
  between the two others may change the users, the roles and the grants there are (`Meanwhile`,
  which the admin operations are a case of: `meanwhile_admin`).

  * `burned_session`: a refresh that fails after the first commit leaves the grants rotated: the
    presented one is consumed, and nobody holds the one that is live.
  * `keeps_session_iff`: the grants stay exactly if the second transaction passes wherever the
    first one rotated.
-/
import TemisLab.Lib.Commit
import TemisLab.Sso.Requests

namespace TemisLab.Sso.Refreshing

open TemisLab.Lib

/-- Where the request may raise besides its own checks. `sign` stands for reading the ring and
    signing under its active key. -/
inductive Point where
  | updateGrant | insertGrant | commitRotation | selectUser | selectRoles | sign | commitBundle
  deriving DecidableEq, Repr

inductive Failure where
  | token (error : TokenError)
  | invalidRefreshToken
  | fault (point : Point)
  deriving DecidableEq, Repr

/-- What `secrets.token_urlsafe` returns. -/
structure UrlSafe where
  text : String
  nonempty : text ≠ ""

/-- What others commit between the two transactions: they may write any user and role, and
    change the grants there are, but not their digests. -/
structure Meanwhile where
  users : Table User
  userRoles : Table UserRole
  grants : RefreshGrant → RefreshGrant
  digest : ∀ g, Keyed.key (grants g) = Keyed.key g

def Meanwhile.apply (m : Meanwhile) (db : Db) : Db :=
  { db with
    users := m.users
    userRoles := m.userRoles
    refreshGrants := db.refreshGrants.modify (fun _ => true) m.grants m.digest }

/-- Nothing happens between the two. -/
def Meanwhile.nothing (db : Db) : Meanwhile := ⟨db.users, db.userRoles, id, fun _ => rfl⟩

def pass (raises : Point → Bool) (point : Point) : Except Failure PUnit :=
  raiseIf (raises point) (.fault point)

/-- The first transaction. -/
def rotateBlock (env : Env) (raises : Point → Bool) (raw : String) (new : UrlSafe) (now : Time) :
    Block Db Failure (Option (String × String × String)) := fun db => do
  pass raises .updateGrant
  let rotated ← (rotateRefresh env db raw new.text now).mapError .token
  if rotated.1.isSome then
    pass raises .insertGrant
  pass raises .commitRotation
  return rotated

/-- The second transaction, if there is one: the roles and the ring are read for an active user
    only. -/
def bundleBlock (env : Env) (raises : Point → Bool) (fresh : String) (activeKid : Option String)
    (now : Time) : Option (String × String × String) → Block Db Failure TokenBundle
  | none => fun _ => .error .invalidRefreshToken
  | some (userId, aud, refresh) => fun db => do
      pass raises .selectUser
      if db.isActive userId then
        pass raises .selectRoles
        pass raises .sign
      let issued ←
        (issueBundle env db userId aud (some refresh) fresh activeKid now).mapError .token
      pass raises .commitBundle
      return issued

/-- `refresh`, at `now` and from `later` on. -/
def refresh (env : Env) (raises : Point → Bool) (raw : String) (new : UrlSafe) (fresh : String)
    (activeKid : Option String) (meanwhile : Meanwhile) (now later : Time) (db : Db) :
    Except Failure TokenBundle × Db :=
  twice (rotateBlock env raises raw new now) meanwhile.apply
    (bundleBlock env raises fresh activeKid later) db

/-- The first transaction rotates the grant `g`. -/
def Rotates (env : Env) (raises : Point → Bool) (raw : String) (new : UrlSafe) (now : Time)
    (db : Db) (g : RefreshGrant) : Prop :=
  (∀ point ∈ [Point.updateGrant, .insertGrant, .commitRotation], raises point = false) ∧
    db.refreshGrants.get (tokenDigest env raw) = some g ∧ rotatable env db raw now g = true ∧
    db.refreshGrants.get (tokenDigest env new.text) = none

/-- The second transaction passes for the user. -/
def Bundles (raises : Point → Bool) (activeKid : Option String) (db : Db) (userId : String) :
    Prop :=
  (∀ point ∈ [Point.selectUser, .selectRoles, .sign, .commitBundle], raises point = false) ∧
    db.isActive userId = true ∧ activeKid ≠ none

/-! ## What comes between -/

theorem get_apply (m : Meanwhile) (db : Db) (digest : String) :
    (m.apply db).refreshGrants.get digest = (db.refreshGrants.get digest).map m.grants := by
  unfold Meanwhile.apply
  rw [Table.get_modify]
  rfl

theorem nothing_apply (db : Db) : (Meanwhile.nothing db).apply db = db := by
  have hgrants : db.refreshGrants.modify (fun _ => true) id (fun _ => rfl) = db.refreshGrants :=
    Table.modify_eq_self fun _ _ _ => rfl
  show { db with refreshGrants := db.refreshGrants.modify (fun _ => true) id fun _ => rfl } = db
  rw [hgrants]

/-- Who is active after the change does not depend on the grants before it. -/
theorem Meanwhile.isActive_apply (m : Meanwhile) (db db' : Db) (v : String) :
    (m.apply db).isActive v = (m.apply db').isActive v := rfl

/-- One change after another. -/
def Meanwhile.after (m₂ m₁ : Meanwhile) : Meanwhile :=
  ⟨m₂.users, m₂.userRoles, m₂.grants ∘ m₁.grants,
    fun g => (m₂.digest (m₁.grants g)).trans (m₁.digest g)⟩

/-- The change has committed what others see of the users, the roles and the grants. -/
def Meanwhile.Commits (m : Meanwhile) (db db' : Db) : Prop :=
  db'.users = (m.apply db).users ∧ db'.userRoles = (m.apply db).userRoles ∧
    db'.refreshGrants = (m.apply db).refreshGrants

theorem Meanwhile.Commits.trans {m₁ m₂ : Meanwhile} {db db₁ db₂ : Db} (h₁ : m₁.Commits db db₁)
    (h₂ : m₂.Commits db₁ db₂) : (m₂.after m₁).Commits db db₂ := by
  refine ⟨h₂.1, h₂.2.1, ?_⟩
  rw [h₂.2.2]
  unfold Meanwhile.apply
  refine Table.ext ?_
  rw [h₁.2.2]
  simp [Meanwhile.apply, Table.modify, Meanwhile.after]

/-- The admin operations that others run between the two transactions are such a change. -/
theorem meanwhile_admin (env : Env) (ops : List (AdminOp × Time)) (s : Sys) :
    ∃ m : Meanwhile,
      m.Commits s.db (run (step env) s (ops.map fun o => .admin o.1 o.2)).db := by
  induction ops generalizing s with
  | nil =>
      refine ⟨.nothing s.db, ?_⟩
      unfold Meanwhile.Commits
      rw [nothing_apply]
      exact ⟨rfl, rfl, rfl⟩
  | cons o ops ih =>
      obtain ⟨m₂, h₂⟩ := ih (step env s (.admin o.1 o.2))
      rcases step_admin env s o.1 o.2 with heffect | hsame
      · let m₁ : Meanwhile :=
          ⟨(step env s (.admin o.1 o.2)).db.users, (step env s (.admin o.1 o.2)).db.userRoles,
            fun g => if liveGrantOf o.1.target g then g.consume o.2 else g,
            fun g => by split <;> rfl⟩
        have h₁ : m₁.Commits s.db (step env s (.admin o.1 o.2)).db := by
          refine ⟨rfl, rfl, ?_⟩
          rw [heffect.grants]
          refine Table.ext ?_
          simp [m₁, Meanwhile.apply, Table.modify, Db.consumeGrants]
        exact ⟨m₂.after m₁, h₁.trans h₂⟩
      · rw [hsame] at h₂
        exact ⟨m₂, h₂⟩

/-! ## When a transaction passes, and what it commits -/

variable {env : Env} {raises : Point → Bool} {raw fresh userId aud : String} {new : UrlSafe}
  {activeKid : Option String} {now later : Time} {db db' : Db} {m : Meanwhile}

theorem rotateBlock_eq_ok {rotated : Option (String × String × String)} :
    rotateBlock env raises raw new now db = .ok (rotated, db') ↔
      rotateRefresh env db raw new.text now = .ok (rotated, db') ∧ raises .updateGrant = false ∧
        (rotated.isSome = true → raises .insertGrant = false) ∧
        raises .commitRotation = false := by
  unfold rotateBlock pass
  rw [raiseIf_bind, bind_eq_ok]
  simp only [mapError_eq_ok]
  constructor
  · rintro ⟨hupdate, a, hok, h⟩
    split at h
    · rw [raiseIf_bind, raiseIf_bind] at h
      obtain ⟨hinsert, hcommit, he⟩ := h
      cases he
      exact ⟨hok, hupdate, fun _ => hinsert, hcommit⟩
    · next hnone =>
        rw [raiseIf_bind] at h
        obtain ⟨hcommit, he⟩ := h
        cases he
        exact ⟨hok, hupdate, fun hsome => absurd hsome hnone, hcommit⟩
  · rintro ⟨hok, hupdate, hinsert, hcommit⟩
    refine ⟨hupdate, _, hok, ?_⟩
    split
    · next hsome =>
        rw [raiseIf_bind, raiseIf_bind]
        exact ⟨hinsert hsome, hcommit, rfl⟩
    · rw [raiseIf_bind]
      exact ⟨hcommit, rfl⟩

/-- A bundle for a refresh token that was given needs an active user and an active key. -/
theorem issueBundle_given (env : Env) (fresh aud : String) (new : UrlSafe) (now : Time) :
    (∃ b db', issueBundle env db userId aud (some new.text) fresh activeKid now = .ok (b, db')) ↔
      db.isActive userId = true ∧ activeKid ≠ none := by
  rw [issueBundle_iff]
  simp [new.nonempty]

theorem bundleBlock_iff :
    (∃ b db', bundleBlock env raises fresh activeKid later (some (userId, aud, new.text)) db =
      .ok (b, db')) ↔ Bundles raises activeKid db userId := by
  unfold Bundles
  rw [← issueBundle_given env fresh aud new later]
  simp only [bundleBlock, pass, raiseIf_bind]
  constructor
  · rintro ⟨b, db', hselect, h⟩
    split at h
    · rw [raiseIf_bind, raiseIf_bind, bind_eq_ok] at h
      simp only [raiseIf_bind, mapError_eq_ok] at h
      obtain ⟨hroles, hsign, issued, hok, hcommit, he⟩ := h
      cases he
      exact ⟨by simp [hselect, hroles, hsign, hcommit], b, db', hok⟩
    · next hinactive =>
        rw [bind_eq_ok] at h
        simp only [mapError_eq_ok] at h
        obtain ⟨issued, hok, -⟩ := h
        have hissued := (issueBundle_given env fresh aud new later).mp ⟨issued.1, issued.2, hok⟩
        exact absurd hissued.1 hinactive
  · rintro ⟨hpoints, b, db', hok⟩
    have hactive := ((issueBundle_given env fresh aud new later).mp ⟨b, db', hok⟩).1
    simp only [List.forall_mem_cons, List.not_mem_nil, IsEmpty.forall_iff, implies_true,
      and_true] at hpoints
    obtain ⟨hselect, hroles, hsign, hcommit⟩ := hpoints
    refine ⟨b, db', hselect, ?_⟩
    rw [if_pos hactive, raiseIf_bind, raiseIf_bind, bind_eq_ok]
    simp only [raiseIf_bind, mapError_eq_ok]
    exact ⟨hroles, hsign, (b, db'), hok, hcommit, rfl⟩

/-- A live grant is rotated onto a digest that is free. -/
theorem rotateRefresh_of_free (new : String) {g : RefreshGrant}
    (hget : db.refreshGrants.get (tokenDigest env raw) = some g)
    (hlive : rotatable env db raw now g = true)
    (hfree : db.refreshGrants.get (tokenDigest env new) = none) :
    ∃ db', rotateRefresh env db raw new now = .ok (some (g.userId, g.audience, new), db') := by
  unfold rotateRefresh
  rw [hget]
  dsimp only
  rw [if_pos hlive]
  unfold issueRefresh
  obtain ⟨grants, hi⟩ := Table.exists_insert
    (db.consumeGrants (rotatable env db raw now) now).refreshGrants
    ⟨tokenDigest env new, g.userId, g.audience, now + 14 * 24 * 60 * 60, none⟩
    (by
      rw [Db.grant_consumeGrants, key_refreshGrant, hfree]
      rfl)
  rw [hi]
  exact ⟨_, rfl⟩

/-- What a rotation found, and that its successor shows in the grants whatever comes between. -/
theorem rotateRefresh_trace {new refresh : String} (m : Meanwhile)
    (h : rotateRefresh env db raw new now = .ok (some (userId, aud, refresh), db')) :
    refresh = new ∧ (∃ g, db.refreshGrants.get (tokenDigest env raw) = some g ∧
      rotatable env db raw now g = true ∧ g.userId = userId) ∧
      db.refreshGrants.get (tokenDigest env new) = none ∧
      (m.apply db').refreshGrants ≠ (m.apply db).refreshGrants := by
  obtain ⟨g, grants, g', hget, hlive, huser, -, hrefresh, hi, hdigest, -, -, -, rfl⟩ :=
    rotateRefresh_eq_some h
  have hfree : db.refreshGrants.get (tokenDigest env new) = none := by
    have hnew := (Table.insert_eq_some hi).1
    rw [key_refreshGrant, hdigest, Db.grant_consumeGrants, Option.map_eq_none_iff] at hnew
    exact hnew
  refine ⟨hrefresh, ⟨g, hget, hlive, huser⟩, hfree, ?_⟩
  intro hsame
  have hafter := congrArg (fun t : Table RefreshGrant => t.get (tokenDigest env new)) hsame
  rw [get_apply, get_apply, hfree, Table.get_insert hi, key_refreshGrant, hdigest,
    if_pos rfl] at hafter
  cases hafter

/-- A failed refresh keeps the grants exactly if nothing was rotated before it failed. -/
theorem keeps_session_iff (env : Env) (raises : Point → Bool) (raw : String) (new : UrlSafe)
    (fresh : String) (activeKid : Option String) (m : Meanwhile) (now later : Time) (db : Db) :
    Restores Db.refreshGrants m.apply db
        (refresh env raises raw new fresh activeKid m now later db) ↔
      ∀ g, Rotates env raises raw new now db g →
        Bundles raises activeKid (m.apply db) g.userId := by
  unfold refresh
  rw [restores_iff]
  constructor
  · rintro h g ⟨hpoints, hget, hlive, hfree⟩
    simp only [List.forall_mem_cons, List.not_mem_nil, IsEmpty.forall_iff, implies_true,
      and_true] at hpoints
    obtain ⟨hupdate, hinsert, hcommit⟩ := hpoints
    obtain ⟨db₁, hrotate⟩ := rotateRefresh_of_free new.text hget hlive hfree
    obtain ⟨-, -, -, htrace⟩ := rotateRefresh_trace m hrotate
    have hbundle := h _ db₁
      (rotateBlock_eq_ok.mpr ⟨hrotate, hupdate, fun _ => hinsert, hcommit⟩) htrace
    have hbundles := bundleBlock_iff.mp hbundle
    unfold Bundles at hbundles ⊢
    rw [m.isActive_apply db db₁]
    exact hbundles
  · intro h rotated db₁ hfirst htrace
    obtain ⟨hrotate, hupdate, hinsert, hcommit⟩ := rotateBlock_eq_ok.mp hfirst
    cases rotated with
    | none =>
        rw [rotateRefresh_eq_none hrotate] at htrace
        exact absurd rfl htrace
    | some rotated =>
        obtain ⟨userId, aud, refresh⟩ := rotated
        obtain ⟨rfl, ⟨g, hget, hlive, rfl⟩, hfree, -⟩ := rotateRefresh_trace m hrotate
        have hpoints : ∀ point ∈ [Point.updateGrant, .insertGrant, .commitRotation],
            raises point = false := by
          simp [hupdate, hinsert rfl, hcommit]
        have hbundles := h g ⟨hpoints, hget, hlive, hfree⟩
        unfold Bundles at hbundles
        rw [m.isActive_apply db db₁] at hbundles
        exact bundleBlock_iff.mpr hbundles

/-- The connection is lost after the rotation. -/
def lostConnection (point : Point) : Bool := point = .selectUser

/-- `u` is logged in and refreshes while the database goes away. -/
theorem burned_session :
    ¬ ∀ env raises raw new fresh activeKid m now later db,
      Restores Db.refreshGrants m.apply db
        (refresh env raises raw new fresh activeKid m now later db) := by
  intro h
  let db := (run (step plainEnv) (.start .empty) loggedIn).db
  let r := refresh plainEnv lostConnection "g1" ⟨"g2", by decide⟩ "" (some "k") (.nothing db) 2 2 db
  have hrestores : Restores Db.refreshGrants (Meanwhile.nothing db).apply db r :=
    h plainEnv lostConnection "g1" ⟨"g2", by decide⟩ "" (some "k") (.nothing db) 2 2 db
  have hraises : Raises r.1 := by
    have herror : r.1 = .error (.fault .selectUser) := by decide +kernel
    rw [herror]
    intro bundle hok
    cases hok
  have hgrants := hrestores hraises
  rw [nothing_apply] at hgrants
  have hburned : r.2.refreshGrants ≠ db.refreshGrants := by decide +kernel
  exact hburned hgrants

end TemisLab.Sso.Refreshing
