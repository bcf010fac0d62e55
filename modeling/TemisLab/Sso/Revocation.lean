/-
  Revocation against `/auth/refresh`. The request rotates its grant in one transaction and
  issues its bundle in a second, so an admin operation can commit in between.

  * `CutsOff`: after an admin operation on a user, no access token obtained from a grant the
    user had then, or from a descendant of one, carries the new version.
  * `bundle_race`: a run in which one does. The rotation commits, the admin operation consumes
    the successor and bumps the version, and `issue_bundle` then reads the new version.
  * `refresh_cuts_off`: the property holds of every run in which each bundle of a refresh finds
    the version its rotation found (`Uninterrupted`).

  The invariant `History` ties every rotation to grants of one user and every version in the
  history to that user's row. `Cut` is what the commit establishes: the grants and all their
  descendants are consumed, so no later rotation extends the lineage.
-/
import TemisLab.Sso.Requests

namespace TemisLab.Sso

open TemisLab.Lib Relation

/-- Some rotation consumed `d` and issued `d'`. -/
def Succeeds (rs : List Rotation) (d d' : String) : Prop :=
  ∃ r ∈ rs, r.presented = d ∧ r.successor = d'

/-- `d'` is `d` or was issued by a chain of rotations that starts at `d`. -/
def Descends (rs : List Rotation) : String → String → Prop := ReflTransGen (Succeeds rs)

/-- In the run of `ls` from `db`, each admin operation cuts off the grants its target had. -/
def CutsOff (env : Env) (db : Db) (ls : List Tx) : Prop :=
  ∀ pre op now post, ls = pre ++ .admin op now :: post →
    let before := run (step env) (.start db) pre
    let after := step env before (.admin op now)
    let final := run (step env) (.start db) ls
    op.exec env before.db now = .ok after.db →
    ∀ user, after.db.user op.target = some user →
    ∀ d g, before.db.refreshGrants.get d = some g → g.userId = op.target →
    ∀ b ∈ final.issued, ∀ r, b.via = some r → Descends final.rotations d r.presented →
      b.version < user.authzVersion

/-- A bundle of a refresh finds its user with the version the rotation found, or finds no
    active user. -/
def Uninterrupted (s : Sys) : Tx → Prop
  | .bundle rid _ _ _ =>
      ∀ userId aud refreshToken r,
        s.pending rid = some (.bundle userId aud refreshToken (some r)) →
        ∀ user, s.db.user userId = some user → user.status = .active →
          user.authzVersion = r.version
  | _ => True

/-! ## The lineage of a grant -/

theorem descends_cons {rs : List Rotation} {r : Rotation} {d d' : String}
    (hr : ¬ Descends rs d r.presented) (h : Descends (r :: rs) d d') : Descends rs d d' := by
  induction h with
  | refl => exact .refl
  | tail _ hs ih =>
      obtain ⟨r', hmem, h1, h2⟩ := hs
      rcases List.mem_cons.mp hmem with rfl | hmem
      · exact absurd (h1 ▸ ih) hr
      · exact ih.tail ⟨r', hmem, h1, h2⟩

/-! ## What every run keeps -/

/-- Each rotation joins grants of one user; each version in the history was its user's. -/
structure History (s : Sys) : Prop where
  rotated : ∀ r ∈ s.rotations, ∃ g g', s.db.refreshGrants.get r.presented = some g ∧
    s.db.refreshGrants.get r.successor = some g' ∧ g'.userId = g.userId
  pending : ∀ rid userId aud refreshToken r,
    s.pending rid = some (.bundle userId aud refreshToken (some r)) →
    ∃ g user, s.db.refreshGrants.get r.presented = some g ∧ g.userId = userId ∧
      s.db.user userId = some user ∧ r.version ≤ user.authzVersion
  issued : ∀ b ∈ s.issued, ∀ r, b.via = some r →
    ∃ g user, s.db.refreshGrants.get r.presented = some g ∧
      s.db.user g.userId = some user ∧ b.version ≤ user.authzVersion

theorem history_start (db : Db) : History (.start db) :=
  ⟨by simp [Sys.start], by simp [Sys.start], by simp [Sys.start]⟩

/-- What a history says of a grant and its user survives growth of the tables. -/
theorem Db.Grows.grant_user {db db' : Db} (h : db.Grows db') {d : String} {g : RefreshGrant}
    {user : User} (hg : db.refreshGrants.get d = some g) (hu : db.user g.userId = some user) :
    ∃ g' user', db'.refreshGrants.get d = some g' ∧ g'.userId = g.userId ∧
      db'.user g.userId = some user' ∧ user.authzVersion ≤ user'.authzVersion := by
  obtain ⟨g', hg', hid, -⟩ := h.grants d g hg
  obtain ⟨user', hu', hle⟩ := h.users _ user hu
  exact ⟨g', user', hg', hid, hu', hle⟩

/-- The history stands when the tables grow. -/
theorem History.grows {s : Sys} (h : History s) {db : Db} (hgrow : s.db.Grows db) :
    History { s with db } := by
  refine ⟨?_, ?_, ?_⟩
  · intro r hr
    obtain ⟨g, g', hg, hg', hid⟩ := h.rotated r hr
    obtain ⟨g₁, hg₁, hid₁, -⟩ := hgrow.grants _ g hg
    obtain ⟨g₂, hg₂, hid₂, -⟩ := hgrow.grants _ g' hg'
    exact ⟨g₁, g₂, hg₁, hg₂, by rw [hid₂, hid, hid₁]⟩
  · intro rid userId aud refreshToken r hc
    obtain ⟨g, user, hg, rfl, hu, hle⟩ := h.pending rid userId aud refreshToken r hc
    obtain ⟨g', user', hg', hid, hu', hle'⟩ := hgrow.grant_user hg hu
    exact ⟨g', user', hg', hid, hu', le_trans hle hle'⟩
  · intro b hb r hr
    obtain ⟨g, user, hg, hu, hle⟩ := h.issued b hb r hr
    obtain ⟨g', user', hg', hid, hu', hle'⟩ := hgrow.grant_user hg hu
    exact ⟨g', user', hg', hid ▸ hu', le_trans hle hle'⟩

/-- The rotation a step adds, read off the tables after it. -/
theorem rotation_grants {env : Env} {db db' : Db} {raw new userId aud : String} {now : Time}
    (h : rotateRefresh env db raw new now = .ok (some (userId, aud, new), db')) :
    (∃ g, db.refreshGrants.get (tokenDigest env raw) = some g ∧ g.userId = userId ∧
      g.consumedAt = none) ∧
    (∃ user, db.user userId = some user) ∧
    ∃ g g', db'.refreshGrants.get (tokenDigest env raw) = some g ∧ g.userId = userId ∧
      db'.refreshGrants.get (tokenDigest env new) = some g' ∧ g'.userId = userId := by
  obtain ⟨g, grants, g', hg, hr, hu, -, -, hi, hd, hu', -, -, rfl⟩ := rotateRefresh_eq_some h
  obtain ⟨-, hlive, -, hact⟩ := rotatable_iff.mp hr
  obtain ⟨user, huser, -⟩ := Db.isActive_iff.mp hact
  refine ⟨⟨g, hg, hu, hlive⟩, ⟨user, hu ▸ huser⟩, ?_⟩
  obtain ⟨g₁, hg₁, hid₁, -⟩ := (Db.Steady.of_rotate h).grants _ g hg
  refine ⟨g₁, g', hg₁, hid₁.trans hu, ?_, hu'⟩
  rw [Table.get_insert hi, key_refreshGrant, hd, if_pos rfl]

theorem history_step (env : Env) (s : Sys) (l : Tx) (h : History s) :
    History (step env s l) := by
  have hgrow := step_grows env s l
  have hspec := step_cases env s l
  generalize hs' : step env s l = s' at hgrow hspec ⊢
  obtain ⟨hrot, hpend, hiss⟩ := h.grows hgrow
  cases hspec with
  | quiet hissued hrotations hpending =>
      refine ⟨hrotations ▸ hrot, ?_, hissued ▸ hiss⟩
      intro rid userId aud refreshToken r hc
      rcases hpending rid _ hc with hc | hc
      · exact hpend rid userId aud refreshToken r hc
      · cases hc
  | @rotated rid raw new userId aud now db r hrotate hp hsucc hv =>
      obtain ⟨-, ⟨user, hu⟩, g, g', hg, hid, hg', hid'⟩ := rotation_grants hrotate
      refine ⟨?_, ?_, hiss⟩
      · intro r' hr'
        rcases List.mem_cons.mp hr' with rfl | hr'
        · exact ⟨g, g', hp ▸ hg, hsucc ▸ hg', by rw [hid, hid']⟩
        · exact hrot r' hr'
      · intro rid' userId' aud' refreshToken' r' hc
        rcases slot_update hc with ⟨-, hc⟩ | ⟨-, hc⟩
        · exact hpend rid' userId' aud' refreshToken' r' hc
        · cases hc
          obtain ⟨user', hu', hle⟩ := hgrow.users _ user hu
          refine ⟨g, user', hp ▸ hg, hid, hu', ?_⟩
          rw [hv, hu]
          exact hle
  | @bundled rid userId aud fresh refreshToken activeKid via now bundle db hpending hissue =>
      obtain ⟨user, kid, hu, -, -, -, ha, -⟩ := issueBundle_eq_ok hissue
      refine ⟨hrot, ?_, ?_⟩
      · intro rid' userId' aud' refreshToken' r' hc
        rcases slot_update hc with ⟨-, hc⟩ | ⟨-, hc⟩
        · exact hpend rid' userId' aud' refreshToken' r' hc
        · cases hc
      · intro b hb r hr
        rcases List.mem_cons.mp hb with rfl | hb
        · -- the bundle just issued carries the version `issue_bundle` read
          simp only at hr
          subst hr
          obtain ⟨g, -, hg, hid, -⟩ := h.pending rid userId aud refreshToken r hpending
          obtain ⟨g', user', hg', hid', hu', hle⟩ := hgrow.grant_user hg (hid ▸ hu)
          refine ⟨g', user', hg', hid' ▸ hu', ?_⟩
          simp only [Issued.version, ha]
          exact hle
        · exact hiss b hb r hr

theorem history_run (env : Env) (db : Db) (ls : List Tx) :
    History (run (step env) (.start db) ls) :=
  run_always (step env) History (history_step env) (history_start db) ls

/-- The whole lineage of a grant belongs to the grant's user. -/
theorem History.descends {s : Sys} (h : History s) {d d' : String} {g : RefreshGrant}
    (hg : s.db.refreshGrants.get d = some g) (hd : Descends s.rotations d d') :
    ∃ g', s.db.refreshGrants.get d' = some g' ∧ g'.userId = g.userId := by
  induction hd with
  | refl => exact ⟨g, hg, rfl⟩
  | tail _ hs ih =>
      obtain ⟨g₁, hg₁, hid₁⟩ := ih
      obtain ⟨r, hr, rfl, rfl⟩ := hs
      obtain ⟨g₂, g₃, hg₂, hg₃, hid⟩ := h.rotated r hr
      rw [hg₂] at hg₁
      cases hg₁
      exact ⟨g₃, hg₃, hid.trans hid₁⟩

/-! ## What the admin operation establishes -/

/-- The lineage of the grants `G` is consumed, and stays below version `v`. -/
structure Cut (G : Set String) (v : ℤ) (s : Sys) : Prop where
  consumed : ∀ d₀ ∈ G, ∀ d, Descends s.rotations d₀ d →
    ∃ g, s.db.refreshGrants.get d = some g ∧ g.consumedAt ≠ none
  pending : ∀ rid userId aud refreshToken r,
    s.pending rid = some (.bundle userId aud refreshToken (some r)) →
    ∀ d₀ ∈ G, Descends s.rotations d₀ r.presented → r.version < v
  issued : ∀ b ∈ s.issued, ∀ r, b.via = some r →
    ∀ d₀ ∈ G, Descends s.rotations d₀ r.presented → b.version < v

/-- The commit of an admin operation cuts off the grants its target has. -/
theorem cut_commit {env : Env} {s : Sys} {op : AdminOp} {now : Time} {user : User}
    (h : History s) (hok : op.exec env s.db now = .ok (step env s (.admin op now)).db)
    (huser : (step env s (.admin op now)).db.user op.target = some user) :
    Cut {d | ∃ g, s.db.refreshGrants.get d = some g ∧ g.userId = op.target} user.authzVersion
      (step env s (.admin op now)) := by
  have heff := AdminOp.exec_effect hok
  have hstep : step env s (.admin op now) = { s with db := (step env s (.admin op now)).db } := by
    simp only [step]
    split <;> rfl
  obtain ⟨u, hu⟩ := heff.found
  have hlt : u.authzVersion < user.authzVersion := by
    obtain ⟨u', hu', hv⟩ := heff.version hu
    rw [huser] at hu'
    cases hu'
    rw [hv, if_pos rfl]
    omega
  -- a version recorded for a descendant of the target's grants is below the new one
  have hbelow : ∀ {d₀ d : String} {n : ℤ} {g : RefreshGrant} {u' : User},
      (∃ g₀, s.db.refreshGrants.get d₀ = some g₀ ∧ g₀.userId = op.target) →
      Descends s.rotations d₀ d → s.db.refreshGrants.get d = some g →
      s.db.user g.userId = some u' → n ≤ u'.authzVersion → n < user.authzVersion := by
    rintro d₀ d n g u' ⟨g₀, hg₀, hid₀⟩ hd hg hu' hle
    obtain ⟨g', hg', hid⟩ := h.descends hg₀ hd
    rw [hg] at hg'
    cases hg'
    rw [hid, hid₀, hu] at hu'
    cases hu'
    exact lt_of_le_of_lt hle hlt
  rw [hstep]
  refine ⟨?_, ?_, ?_⟩
  · rintro d₀ ⟨g₀, hg₀, hid₀⟩ d hd
    obtain ⟨g, hg, hid⟩ := h.descends hg₀ hd
    refine ⟨if liveGrantOf op.target g then g.consume now else g, ?_, ?_⟩
    · rw [heff.grants, Db.grant_consumeGrants, hg]
      rfl
    · by_cases hl : liveGrantOf op.target g = true
      · simp [hl, RefreshGrant.consume]
      · -- a grant of the target that is not live was consumed before
        rw [if_neg hl]
        intro hn
        exact hl (by simp [liveGrantOf, RefreshGrant.isLive, hid, hid₀, hn])
  · intro rid userId aud refreshToken r hc d₀ h₀ hd
    obtain ⟨g, u', hg, hid, hu', hle⟩ := h.pending rid userId aud refreshToken r hc
    exact hbelow h₀ hd hg (hid ▸ hu') hle
  · intro b hb r hr d₀ h₀ hd
    obtain ⟨g, u', hg, hu', hle⟩ := h.issued b hb r hr
    exact hbelow h₀ hd hg hu' hle

/-- An uninterrupted step keeps the cut: consumed grants are not rotated again, and a bundle
    still in flight carries the version its rotation found. -/
theorem cut_step {env : Env} {G : Set String} {v : ℤ} (s : Sys) (l : Tx) (h : Cut G v s)
    (hl : Uninterrupted s l) : Cut G v (step env s l) := by
  have hgrow := step_grows env s l
  have hspec := step_cases env s l
  generalize step env s l = s' at hgrow hspec ⊢
  have hcons : ∀ d₀ ∈ G, ∀ d, Descends s.rotations d₀ d →
      ∃ g, s'.db.refreshGrants.get d = some g ∧ g.consumedAt ≠ none := by
    intro d₀ h₀ d hd
    obtain ⟨g, hg, hc⟩ := h.consumed d₀ h₀ d hd
    obtain ⟨g', hg', -, hc'⟩ := hgrow.grants d g hg
    exact ⟨g', hg', hc' hc⟩
  cases hspec with
  | quiet hissued hrotations hpending =>
      refine ⟨hrotations ▸ hcons, ?_, ?_⟩
      · intro rid userId aud refreshToken r hc
        rw [hrotations]
        rcases hpending rid _ hc with hc | hc
        · exact h.pending rid userId aud refreshToken r hc
        · cases hc
      · rw [hissued, hrotations]
        exact h.issued
  | @rotated rid raw new userId aud now db r hrotate hp hsucc hv =>
      -- the presented grant is live, so it is outside the lineage
      obtain ⟨⟨g, hg, -, hlive⟩, -, -⟩ := rotation_grants hrotate
      have hout : ∀ d₀ ∈ G, ¬ Descends s.rotations d₀ r.presented := by
        intro d₀ h₀ hd
        obtain ⟨g', hg', hc⟩ := h.consumed d₀ h₀ _ hd
        rw [hp, hg] at hg'
        cases hg'
        exact hc hlive
      refine ⟨?_, ?_, ?_⟩
      · intro d₀ h₀ d hd
        exact hcons d₀ h₀ d (descends_cons (hout d₀ h₀) hd)
      · intro rid' userId' aud' refreshToken' r' hc d₀ h₀ hd
        have hd' := descends_cons (hout d₀ h₀) hd
        rcases slot_update hc with ⟨-, hc⟩ | ⟨-, hc⟩
        · exact h.pending rid' userId' aud' refreshToken' r' hc d₀ h₀ hd'
        · cases hc
          exact absurd hd' (hout d₀ h₀)
      · intro b hb r' hr' d₀ h₀ hd
        exact h.issued b hb r' hr' d₀ h₀ (descends_cons (hout d₀ h₀) hd)
  | @bundled rid userId aud fresh refreshToken activeKid via now bundle db hpending hissue =>
      obtain ⟨user, kid, hu, hact, -, -, ha, -⟩ := issueBundle_eq_ok hissue
      refine ⟨hcons, ?_, ?_⟩
      · intro rid' userId' aud' refreshToken' r' hc
        rcases slot_update hc with ⟨-, hc⟩ | ⟨-, hc⟩
        · exact h.pending rid' userId' aud' refreshToken' r' hc
        · cases hc
      · intro b hb r hr d₀ h₀ hd
        rcases List.mem_cons.mp hb with rfl | hb
        · simp only at hr
          subst hr
          have hver := hl userId aud refreshToken r hpending user hu hact
          have hlt := h.pending rid userId aud refreshToken r hpending d₀ h₀ hd
          simp only [Issued.version, ha, bundleClaims, accessClaims]
          omega
        · exact h.issued b hb r hr d₀ h₀ hd

/-! ## All runs -/

/-- Every run whose refreshes are not interrupted is cut off by every admin operation. -/
theorem refresh_cuts_off (env : Env) (db : Db) (ls : List Tx)
    (h : Along (step env) Uninterrupted (.start db) ls) : CutsOff env db ls := by
  rintro pre op now post rfl before after final hok user huser d g hg hid b hb r hr hd
  have hrest := ((along_append (step env) (.start db) pre (.admin op now :: post)).mp h).2
  have hcut := cut_commit (history_run env db pre) hok huser
  have hfinal : final = run (step env) after post := by
    simp only [final, run_append, run_cons]
    rfl
  have hend : Cut {d | ∃ g, before.db.refreshGrants.get d = some g ∧ g.userId = op.target}
      user.authzVersion final := by
    rw [hfinal]
    exact run_invariant (step env) (Cut _ _) cut_step hcut hrest.2
  exact hend.issued b hb r hr d ⟨g, hg, hid⟩ hd

/-! ## A refresh interrupted by a revocation -/

/-- The user row `revoke_sessions` leaves. -/
def revokedUser : User :=
  { id := "u", email := "u", passwordHash := some "pw", status := .active, authzVersion := 3 }

/-- The bundle of the interrupted refresh. -/
def racedBundle : Issued :=
  ⟨⟨"u", ⟨"k", bundleClaims "u" 3 ["user"] audience 4⟩, "g2"⟩, some ⟨"g1", "g2", 2⟩⟩

/-- The sessions of `u` are revoked between the rotation of `g1` and the bundle. -/
theorem bundle_race : ¬ ∀ env db ls, CutsOff env db ls := by
  intro h
  have hlt := h plainEnv .empty
    (loggedIn ++ [.rotate 3 "g1" "g2" 2, .admin (.revokeSessions "a" "u") 3,
      .bundle 3 "g3" (some "k") 4])
    (loggedIn ++ [.rotate 3 "g1" "g2" 2]) (.revokeSessions "a" "u") 3
    [.bundle 3 "g3" (some "k") 4] rfl
    (by decide +kernel) revokedUser (by decide +kernel)
    "g1" ⟨"g1", "u", audience, 1 + 14 * 24 * 60 * 60, some 2⟩ (by decide +kernel) rfl
    racedBundle (by decide +kernel) ⟨"g1", "g2", 2⟩ rfl .refl
  exact absurd hlt (by decide)

/-- The same refresh run to its end before the sessions are revoked. -/
theorem refresh_then_revoke :
    CutsOff plainEnv (run (step plainEnv) (.start .empty) loggedIn).db
      [.rotate 3 "g1" "g2" 2, .bundle 3 "g3" (some "k") 3, .admin (.revokeSessions "a" "u") 4] := by
  refine refresh_cuts_off plainEnv _ _ ⟨trivial, ?_, trivial, trivial⟩
  intro userId aud refreshToken r hp user hu _
  have hpending : (step plainEnv (.start (run (step plainEnv) (.start .empty) loggedIn).db)
      (.rotate 3 "g1" "g2" 2)).pending 3 =
        some (.bundle "u" audience (some "g2") (some ⟨"g1", "g2", 2⟩)) := by decide +kernel
  rw [hpending] at hp
  cases hp
  have huser : (step plainEnv (.start (run (step plainEnv) (.start .empty) loggedIn).db)
      (.rotate 3 "g1" "g2" 2)).db.user "u" = some { revokedUser with authzVersion := 2 } := by
    decide +kernel
  rw [huser] at hu
  cases hu
  rfl

end TemisLab.Sso
