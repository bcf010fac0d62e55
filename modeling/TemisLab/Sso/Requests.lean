/-
  The requests of the SSO, interleaved between transactions. Every `session_scope` block is one
  label and runs alone; a request of two blocks leaves in `pending` what it still has to run,
  and any other labels may come between. A block that raises changes no table and ends its
  request. A request id used again abandons the request that held it.

  `issued` and `rotations` are history: the bundles handed out, with the rotation a bundle of
  `/auth/refresh` came from, and the grant each rotation consumed with its successor.

  `kakao_callback` raises on an unbound name before it reaches `_kakao_oauth_user`. Its label
  runs the function as if it were reached, so a result about all runs covers both.

  `step_committed` says once what a transaction can do. `step_cases` reads the history off it,
  and `step_steady` the tables: everything but an admin operation and an activation leaves the
  users' status, version and roles.
-/
import Mathlib.Logic.Relation
import TemisLab.Lib.Slots
import TemisLab.Lib.Trace
import TemisLab.Sso.Admin
import TemisLab.Sso.ExternalUsers

namespace TemisLab.Sso

open TemisLab.Lib

/-- A committed `rotate_refresh`: the digests of the grant it consumed and of the one it issued,
    and the version its user had (which the code does not keep). -/
structure Rotation where
  presented : String
  successor : String
  version : ℤ
  deriving DecidableEq, Repr

/-- What a request still has to run after its first transaction. -/
inductive Cont where
  | bundle (userId aud : String) (refreshToken : Option String) (via : Option Rotation)
  | oneTime (userId : String) (purpose : Purpose)
  | activate (userId : String)
  | storePassword (userId : String)
  deriving DecidableEq, Repr

/-- The rotation a request waiting for its bundle has made. -/
def Cont.via : Cont → Option Rotation
  | .bundle _ _ _ via => via
  | _ => none

/-- A bundle handed out, and the rotation it came from if `/auth/refresh` issued it. -/
structure Issued where
  bundle : TokenBundle
  via : Option Rotation
  deriving DecidableEq, Repr

/-- The authorization version a bundle's access token carries. -/
def Issued.version (b : Issued) : ℤ := b.bundle.accessToken.claims.authzVersion

structure Sys where
  db : Db
  pending : ℕ → Option Cont
  issued : List Issued
  rotations : List Rotation

/-- Nothing in flight and nothing handed out yet. -/
def Sys.start (db : Db) : Sys := ⟨db, fun _ => none, [], []⟩

/-- One transaction. `rid` names the request it belongs to; fresh values, the clock and what an
    identity provider answered are arguments. -/
inductive Tx where
  | register (rid : ℕ) (uid email passwordHash : String)
  | issueOneTime (rid : ℕ) (raw : String) (now : Time)
  | authenticate (rid : ℕ) (email password : String) (now : Time)
  | consumeVerify (rid : ℕ) (raw : String) (now : Time)
  | activate (rid : ℕ)
  | requestReset (rid : ℕ) (email : String)
  | consumeReset (rid : ℕ) (raw : String) (now : Time)
  | storePassword (rid : ℕ) (passwordHash : String)
  | rotate (rid : ℕ) (raw new : String) (now : Time)
  | logout (raw : String) (now : Time)
  | bundle (rid : ℕ) (fresh : String) (activeKid : Option String) (now : Time)
  | admin (op : AdminOp) (now : Time)
  | oauthUser (rid : ℕ) (providerSubject defaultRole uid aud : String)
  | googleUser (rid : ℕ) (identity : ExternalIdentity)
  | naverUser (rid : ℕ) (identity : ExternalIdentity) (uid : String)
  | kakaoUser (rid : ℕ) (identity : ExternalIdentity) (uid : String)
  | link (userId : String) (identity : ExternalIdentity)
  | revokeLink (provider userId : String) (accepted : Bool)
  deriving DecidableEq, Repr

/-- The tables a block committed, and what its request has left to run. -/
def Sys.commit (s : Sys) (rid : ℕ) (db : Db) (next : Option Cont) : Sys :=
  { s with db, pending := Function.update s.pending rid next }

/-- A block that raised: no table changes and its request is over. -/
def Sys.fail (s : Sys) (rid : ℕ) : Sys := s.commit rid s.db none

/-- The continuation of an external login: a bundle for the user it signs in. -/
def Sys.signIn (s : Sys) (rid : ℕ) (aud : String) : Except ProvisionError (String × Db) → Sys
  | .error _ => s.fail rid
  | .ok (userId, db) => s.commit rid db (some (.bundle userId aud none none))

/-- The audience `google_callback`, `naver_callback` and `kakao_callback` ask for. -/
def labClient : String := "lab-client"

/-- One transaction runs. -/
def step (env : Env) (s : Sys) : Tx → Sys
  | .register rid uid email passwordHash =>
      match registerUser env s.db uid email passwordHash with
      | .error _ => s.fail rid
      | .ok (who, db) => s.commit rid db (some (.oneTime who.userId .verify))
  | .issueOneTime rid raw now =>
      match s.pending rid with
      | some (.oneTime userId purpose) =>
          match Sso.issueOneTime env s.db userId purpose raw now with
          | none => s.fail rid
          | some db => s.commit rid db none
      | _ => s
  | .authenticate rid email password now =>
      match Sso.authenticate env s.db email password now with
      | (.error _, db) => s.commit rid db none
      | (.ok who, db) => s.commit rid db (some (.bundle who.userId audience none none))
  | .consumeVerify rid raw now =>
      match consumeOneTime env s.db raw .verify now with
      | .error _ => s.fail rid
      | .ok (userId, db) => s.commit rid db (some (.activate userId))
  | .activate rid =>
      match s.pending rid with
      | some (.activate userId) =>
          match activateUser s.db userId with
          | .error _ => s.fail rid
          | .ok db => s.commit rid db none
      | _ => s
  | .requestReset rid email =>
      match userByEmail env s.db email with
      | none => s.fail rid
      | some user => s.commit rid s.db (some (.oneTime user.id .reset))
  | .consumeReset rid raw now =>
      match consumeOneTime env s.db raw .reset now with
      | .error _ => s.fail rid
      | .ok (userId, db) => s.commit rid db (some (.storePassword userId))
  | .storePassword rid passwordHash =>
      match s.pending rid with
      | some (.storePassword userId) =>
          match Sso.storePassword s.db userId passwordHash with
          | .error _ => s.fail rid
          | .ok db => s.commit rid db none
      | _ => s
  | .rotate rid raw new now =>
      match rotateRefresh env s.db raw new now with
      | .error _ => s.fail rid
      | .ok (none, db) => s.commit rid db none
      | .ok (some (userId, aud, refresh), db) =>
          let rotation : Rotation :=
            ⟨tokenDigest env raw, tokenDigest env refresh,
              (s.db.user userId).elim 0 User.authzVersion⟩
          { s.commit rid db (some (.bundle userId aud (some refresh) (some rotation))) with
            rotations := rotation :: s.rotations }
  | .logout raw now => { s with db := (revokeRefresh env s.db raw now).2 }
  | .bundle rid fresh activeKid now =>
      match s.pending rid with
      | some (.bundle userId aud refreshToken via) =>
          match issueBundle env s.db userId aud refreshToken fresh activeKid now with
          | .error _ => s.fail rid
          | .ok (bundle, db) => { s.commit rid db none with issued := ⟨bundle, via⟩ :: s.issued }
      | _ => s
  | .admin op now =>
      match op.exec env s.db now with
      | .error _ => s
      | .ok db => { s with db }
  | .oauthUser rid providerSubject defaultRole uid aud =>
      s.signIn rid aud (Sso.oauthUser env s.db providerSubject defaultRole uid)
  | .googleUser rid identity =>
      match resolveLink s.db identity.provider identity.subject with
      | none => s.fail rid
      | some userId => s.commit rid s.db (some (.bundle userId labClient none none))
  | .naverUser rid identity uid =>
      s.signIn rid labClient (naverOauthUser env s.db identity uid)
  | .kakaoUser rid identity uid =>
      s.signIn rid labClient (kakaoOauthUser env s.db identity uid)
  | .link userId identity =>
      match linkAccount s.db userId identity with
      | none => s
      | some db => { s with db }
  | .revokeLink provider userId accepted =>
      match Sso.revokeLink s.db provider userId accepted with
      | none => s
      | some db => { s with db }

/-! ## What a transaction commits -/

/-- The request a transaction belongs to. -/
def Tx.rid : Tx → Option ℕ
  | .register rid _ _ _ => some rid
  | .issueOneTime rid _ _ => some rid
  | .authenticate rid _ _ _ => some rid
  | .consumeVerify rid _ _ => some rid
  | .activate rid => some rid
  | .requestReset rid _ => some rid
  | .consumeReset rid _ _ => some rid
  | .storePassword rid _ => some rid
  | .rotate rid _ _ _ => some rid
  | .bundle rid _ _ _ => some rid
  | .oauthUser rid _ _ _ _ => some rid
  | .googleUser rid _ => some rid
  | .naverUser rid _ _ => some rid
  | .kakaoUser rid _ _ => some rid
  | .logout _ _ | .admin _ _ | .link _ _ | .revokeLink _ _ _ => none

/-- The transaction is the first of its request, and another is to follow. -/
def Tx.opens : Tx → Bool
  | .issueOneTime _ _ _ | .activate _ | .storePassword _ _ | .bundle _ _ _ _ => false
  | .logout _ _ | .admin _ _ | .link _ _ | .revokeLink _ _ _ => false
  | _ => true

/-- The effect of a transaction. -/
inductive Committed (env : Env) (s : Sys) : Tx → Sys → Prop where
  /-- The request has no such block to run, or an operation of one block raised. -/
  | stayed (l : Tx) (hopens : l.opens = false) : Committed env s l s
  /-- The block raised, or changes nothing and leaves nothing to run. -/
  | ended (l : Tx) (rid : ℕ) (hrid : l.rid = some rid) : Committed env s l (s.fail rid)
  | registered (rid : ℕ) (uid email passwordHash : String) (who : AuthenticatedUser) (db : Db)
      (hregister : registerUser env s.db uid email passwordHash = .ok (who, db)) :
      Committed env s (.register rid uid email passwordHash)
        (s.commit rid db (some (.oneTime who.userId .verify)))
  | issued (rid : ℕ) (raw : String) (now : Time) (userId : String) (purpose : Purpose) (db : Db)
      (hpending : s.pending rid = some (.oneTime userId purpose))
      (hissue : issueOneTime env s.db userId purpose raw now = some db) :
      Committed env s (.issueOneTime rid raw now) (s.commit rid db none)
  | authenticated (rid : ℕ) (email password : String) (now : Time) (next : Option Cont)
      (hnext : ∀ c, next = some c → ∃ userId, c = .bundle userId audience none none) :
      Committed env s (.authenticate rid email password now)
        (s.commit rid (authenticate env s.db email password now).2 next)
  | verified (rid : ℕ) (raw : String) (now : Time) (userId : String) (db : Db)
      (hconsume : consumeOneTime env s.db raw .verify now = .ok (userId, db)) :
      Committed env s (.consumeVerify rid raw now) (s.commit rid db (some (.activate userId)))
  | activated (rid : ℕ) (userId : String) (hpending : s.pending rid = some (.activate userId)) :
      Committed env s (.activate rid) (s.commit rid (setStatus s.db userId .active) none)
  | asked (rid : ℕ) (email : String) (user : User)
      (huser : userByEmail env s.db email = some user) :
      Committed env s (.requestReset rid email)
        (s.commit rid s.db (some (.oneTime user.id .reset)))
  | redeemed (rid : ℕ) (raw : String) (now : Time) (userId : String) (db : Db)
      (hconsume : consumeOneTime env s.db raw .reset now = .ok (userId, db)) :
      Committed env s (.consumeReset rid raw now) (s.commit rid db (some (.storePassword userId)))
  | stored (rid : ℕ) (passwordHash userId : String) (db : Db)
      (hpending : s.pending rid = some (.storePassword userId))
      (hstore : storePassword s.db userId passwordHash = .ok db) :
      Committed env s (.storePassword rid passwordHash) (s.commit rid db none)
  | rotated (rid : ℕ) (raw new : String) (now : Time) (userId aud : String) (db : Db)
      (rotation : Rotation) (hpresented : rotation.presented = tokenDigest env raw)
      (hsuccessor : rotation.successor = tokenDigest env new)
      (hversion : rotation.version = (s.db.user userId).elim 0 User.authzVersion)
      (hrotate : rotateRefresh env s.db raw new now = .ok (some (userId, aud, new), db)) :
      Committed env s (.rotate rid raw new now)
        { s.commit rid db (some (.bundle userId aud (some new) (some rotation))) with
          rotations := rotation :: s.rotations }
  | loggedOut (raw : String) (now : Time) :
      Committed env s (.logout raw now) { s with db := (revokeRefresh env s.db raw now).2 }
  | bundled (rid : ℕ) (fresh : String) (activeKid : Option String) (now : Time)
      (userId aud : String) (refreshToken : Option String) (via : Option Rotation)
      (bundle : TokenBundle) (db : Db)
      (hpending : s.pending rid = some (.bundle userId aud refreshToken via))
      (hissue : issueBundle env s.db userId aud refreshToken fresh activeKid now =
        .ok (bundle, db)) :
      Committed env s (.bundle rid fresh activeKid now)
        { s.commit rid db none with issued := ⟨bundle, via⟩ :: s.issued }
  | administered (op : AdminOp) (now : Time) (db : Db) (hexec : op.exec env s.db now = .ok db) :
      Committed env s (.admin op now) { s with db }
  | tokenUser (rid : ℕ) (providerSubject defaultRole uid aud userId : String) (db : Db)
      (huser : oauthUser env s.db providerSubject defaultRole uid = .ok (userId, db)) :
      Committed env s (.oauthUser rid providerSubject defaultRole uid aud)
        (s.commit rid db (some (.bundle userId aud none none)))
  | google (rid : ℕ) (identity : ExternalIdentity) (userId : String)
      (hlink : resolveLink s.db identity.provider identity.subject = some userId) :
      Committed env s (.googleUser rid identity)
        (s.commit rid s.db (some (.bundle userId labClient none none)))
  | naver (rid : ℕ) (identity : ExternalIdentity) (uid userId : String) (db : Db)
      (huser : naverOauthUser env s.db identity uid = .ok (userId, db)) :
      Committed env s (.naverUser rid identity uid)
        (s.commit rid db (some (.bundle userId labClient none none)))
  | kakao (rid : ℕ) (identity : ExternalIdentity) (uid userId : String) (db : Db)
      (huser : kakaoOauthUser env s.db identity uid = .ok (userId, db)) :
      Committed env s (.kakaoUser rid identity uid)
        (s.commit rid db (some (.bundle userId labClient none none)))
  | linked (userId : String) (identity : ExternalIdentity) (db : Db)
      (hlink : linkAccount s.db userId identity = some db) :
      Committed env s (.link userId identity) { s with db }
  | unlinked (provider userId : String) (accepted : Bool) (db : Db)
      (hrevoke : revokeLink s.db provider userId accepted = some db) :
      Committed env s (.revokeLink provider userId accepted) { s with db }

/-- The inversion of `step`. -/
theorem step_committed (env : Env) (s : Sys) (l : Tx) : Committed env s l (step env s l) := by
  cases l with
  | register rid uid email passwordHash =>
      simp only [step]
      split
      · exact .ended _ rid rfl
      · next who db h => exact .registered rid uid email passwordHash who db h
  | issueOneTime rid raw now =>
      simp only [step]
      split
      · next userId purpose hp =>
          split
          · exact .ended _ rid rfl
          · next db h => exact .issued rid raw now userId purpose db hp h
      · exact .stayed _ rfl
  | authenticate rid email password now =>
      have hdb : ∀ r db, authenticate env s.db email password now = (r, db) →
          (authenticate env s.db email password now).2 = db := by
        intro r db h
        rw [h]
      simp only [step]
      split
      · next e db h =>
          rw [← hdb _ db h]
          exact .authenticated rid email password now none (by simp)
      · next who db h =>
          rw [← hdb _ db h]
          refine .authenticated rid email password now _ ?_
          rintro c ⟨⟩
          exact ⟨who.userId, rfl⟩
  | consumeVerify rid raw now =>
      simp only [step]
      split
      · exact .ended _ rid rfl
      · next userId db h => exact .verified rid raw now userId db h
  | activate rid =>
      simp only [step]
      split
      · next userId hp =>
          split
          · exact .ended _ rid rfl
          · next db h =>
              rw [activateUser_eq_ok h]
              exact .activated rid userId hp
      · exact .stayed _ rfl
  | requestReset rid email =>
      simp only [step]
      split
      · exact .ended _ rid rfl
      · next user h => exact .asked rid email user h
  | consumeReset rid raw now =>
      simp only [step]
      split
      · exact .ended _ rid rfl
      · next userId db h => exact .redeemed rid raw now userId db h
  | storePassword rid passwordHash =>
      simp only [step]
      split
      · next userId hp =>
          split
          · exact .ended _ rid rfl
          · next db h => exact .stored rid passwordHash userId db hp h
      · exact .stayed _ rfl
  | rotate rid raw new now =>
      simp only [step]
      split
      · exact .ended _ rid rfl
      · next db h =>
          rw [rotateRefresh_eq_none h]
          exact .ended _ rid rfl
      · next userId aud refresh db h =>
          obtain ⟨-, -, -, -, -, -, -, rfl, -⟩ := rotateRefresh_eq_some h
          exact .rotated rid raw refresh now userId aud db _ rfl rfl rfl h
  | logout raw now => exact .loggedOut raw now
  | bundle rid fresh activeKid now =>
      simp only [step]
      split
      · next userId aud refreshToken via hp =>
          split
          · exact .ended _ rid rfl
          · next bundle db h =>
              exact .bundled rid fresh activeKid now userId aud refreshToken via bundle db hp h
      · exact .stayed _ rfl
  | admin op now =>
      simp only [step]
      split
      · exact .stayed _ rfl
      · next db h => exact .administered op now db h
  | oauthUser rid providerSubject defaultRole uid aud =>
      simp only [step, Sys.signIn]
      split
      · exact .ended _ rid rfl
      · next userId db h =>
          exact .tokenUser rid providerSubject defaultRole uid aud userId db h
  | googleUser rid identity =>
      simp only [step]
      split
      · exact .ended _ rid rfl
      · next userId h => exact .google rid identity userId h
  | naverUser rid identity uid =>
      simp only [step, Sys.signIn]
      split
      · exact .ended _ rid rfl
      · next userId db h => exact .naver rid identity uid userId db h
  | kakaoUser rid identity uid =>
      simp only [step, Sys.signIn]
      split
      · exact .ended _ rid rfl
      · next userId db h => exact .kakao rid identity uid userId db h
  | link userId identity =>
      simp only [step]
      split
      · exact .stayed _ rfl
      · next db h => exact .linked userId identity db h
  | revokeLink provider userId accepted =>
      simp only [step]
      split
      · exact .stayed _ rfl
      · next db h => exact .unlinked provider userId accepted db h

/-! ## What every transaction keeps of the tables -/

/-- What a transaction keeps that is neither an admin operation nor an activation: a user row
    stays with its status, version and roles, and consumed grants stay consumed. -/
structure Db.Steady (db db' : Db) : Prop where
  users : ∀ v u, db.user v = some u →
    ∃ u', db'.user v = some u' ∧ u'.status = u.status ∧ u'.authzVersion = u.authzVersion
  roles : ∀ v u r, db.user v = some u → db'.hasRole v r = db.hasRole v r
  grants : ∀ d g, db.refreshGrants.get d = some g →
    ∃ g', db'.refreshGrants.get d = some g' ∧ g'.userId = g.userId ∧
      (g.consumedAt ≠ none → g'.consumedAt ≠ none)

/-- What every transaction keeps: rows stay, versions do not fall, consumed grants stay
    consumed. -/
structure Db.Grows (db db' : Db) : Prop where
  users : ∀ v u, db.user v = some u →
    ∃ u', db'.user v = some u' ∧ u.authzVersion ≤ u'.authzVersion
  grants : ∀ d g, db.refreshGrants.get d = some g →
    ∃ g', db'.refreshGrants.get d = some g' ∧ g'.userId = g.userId ∧
      (g.consumedAt ≠ none → g'.consumedAt ≠ none)

namespace Db.Steady

theorem refl (db : Db) : db.Steady db :=
  ⟨fun _ u hu => ⟨u, hu, rfl, rfl⟩, fun _ _ _ _ => rfl, fun _ g hg => ⟨g, hg, rfl, id⟩⟩

theorem trans {db₁ db₂ db₃ : Db} (h : db₁.Steady db₂) (h' : db₂.Steady db₃) :
    db₁.Steady db₃ := by
  refine ⟨?_, ?_, ?_⟩
  · intro v u hu
    obtain ⟨u₂, hu₂, hs, hv⟩ := h.users v u hu
    obtain ⟨u₃, hu₃, hs', hv'⟩ := h'.users v u₂ hu₂
    exact ⟨u₃, hu₃, hs'.trans hs, hv'.trans hv⟩
  · intro v u r hu
    obtain ⟨u₂, hu₂, -, -⟩ := h.users v u hu
    rw [h'.roles v u₂ r hu₂, h.roles v u r hu]
  · intro d g hg
    obtain ⟨g₂, hg₂, hid, hc⟩ := h.grants d g hg
    obtain ⟨g₃, hg₃, hid', hc'⟩ := h'.grants d g₂ hg₂
    exact ⟨g₃, hg₃, hid'.trans hid, hc' ∘ hc⟩

/-- A transaction on the other tables. -/
theorem of_same {db db' : Db} (hu : db'.users = db.users) (hr : db'.userRoles = db.userRoles)
    (hg : db'.refreshGrants = db.refreshGrants) : db.Steady db' := by
  refine ⟨fun v u h => ⟨u, ?_, rfl, rfl⟩, fun v u r _ => ?_, fun d g h => ⟨g, ?_, rfl, id⟩⟩
  · rw [Db.user, hu]
    exact h
  · rw [Db.hasRole, hr, Db.hasRole]
  · rw [hg, h]

/-- Assignments to other columns of a user row. -/
theorem of_setUser (db : Db) (userId : String) (f : User → User) (hf : ∀ u, (f u).id = u.id)
    (hk : ∀ u : User, (f u).status = u.status ∧ (f u).authzVersion = u.authzVersion) :
    db.Steady (db.setUser userId f hf) := by
  refine ⟨fun v u hu => ?_, fun _ _ _ _ => rfl, fun _ g hg => ⟨g, hg, rfl, id⟩⟩
  rw [user_setUser, hu]
  by_cases h : v = userId
  · exact ⟨f u, by simp [h], (hk u).1, (hk u).2⟩
  · exact ⟨u, by simp [h], rfl, rfl⟩

/-- Consuming grants, whichever they are. -/
theorem of_consume (db : Db) (p : RefreshGrant → Bool) (now : Time) :
    db.Steady (db.consumeGrants p now) := by
  refine ⟨fun _ u hu => ⟨u, hu, rfl, rfl⟩, fun _ _ _ _ => rfl, fun d g hg => ?_⟩
  refine ⟨if p g then g.consume now else g, ?_, ?_, ?_⟩
  · rw [Db.grant_consumeGrants, hg]
    rfl
  · by_cases h : p g <;> simp [h]
  · intro hc
    by_cases h : p g <;> simp [h, hc, RefreshGrant.consume]

/-- Inserting a grant under a new digest. -/
theorem of_insertGrant {db : Db} {grants : Table RefreshGrant} {g : RefreshGrant}
    (h : db.refreshGrants.insert g = some grants) :
    db.Steady { db with refreshGrants := grants } := by
  refine ⟨fun _ u hu => ⟨u, hu, rfl, rfl⟩, fun _ _ _ _ => rfl,
    fun d g' hg' => ⟨g', ?_, rfl, id⟩⟩
  have hd : Keyed.key g ≠ d := by
    intro he
    rw [← he, (Table.insert_eq_some h).1] at hg'
    cases hg'
  rw [Table.get_insert h, if_neg hd, hg']

/-- Inserting a user under a new id. -/
theorem of_createUser {env : Env} {db db' : Db} {uid email : String} {hash : Option String}
    {user : User} (h : Sso.createUser env db uid email hash = some (user, db')) :
    db.Steady db' := by
  obtain ⟨huser, users, hi, rfl⟩ := createUser_eq_some h
  refine ⟨fun v u hu => ⟨u, ?_, rfl, rfl⟩, fun _ _ _ _ => rfl, fun _ g hg => ⟨g, hg, rfl, id⟩⟩
  have hn := (Table.insert_eq_some hi).1
  rw [key_user, huser] at hn
  have hne : uid ≠ v := by
    intro he
    rw [← he, Db.user, hn] at hu
    cases hu
  rw [user_createUser h, if_neg hne, hu]

theorem of_issueRefresh {env : Env} {db db' : Db} {userId aud raw : String} {now : Time}
    (h : issueRefresh env db userId aud raw now = some db') : db.Steady db' := by
  obtain ⟨grants, g, hi, -, -, -, -, rfl⟩ := issueRefresh_eq_some h
  exact of_insertGrant hi

theorem of_authenticate (env : Env) (db : Db) (email password : String) (now : Time) :
    db.Steady (authenticate env db email password now).2 := by
  rcases authenticate_db env db email password now with h | ⟨uid, f, hf, hsame, h⟩
  · rw [h]
    exact refl db
  · rw [h]
    exact of_setUser db uid f hf fun u => ⟨(hsame u).1, (hsame u).2.1⟩

theorem of_issueBundle {env : Env} {db db' : Db} {userId aud fresh : String}
    {refreshToken activeKid : Option String} {now : Time} {b : TokenBundle}
    (h : issueBundle env db userId aud refreshToken fresh activeKid now = .ok (b, db')) :
    db.Steady db' := by
  obtain ⟨-, -, -, -, -, -, -, hr⟩ := issueBundle_eq_ok h
  rcases bundleRefresh_eq_some hr with ⟨-, rfl⟩ | ⟨-, hi⟩
  · exact refl _
  · exact of_issueRefresh hi

theorem of_rotate {env : Env} {db db' : Db} {raw new u aud r : String} {now : Time}
    (h : rotateRefresh env db raw new now = .ok (some (u, aud, r), db')) : db.Steady db' := by
  obtain ⟨g, grants, g', -, -, -, -, -, hi, -, -, -, -, rfl⟩ := rotateRefresh_eq_some h
  exact (of_consume db (rotatable env db raw now) now).trans (of_insertGrant hi)

theorem of_createActive {env : Env} {db db' : Db} {uid email role userId : String}
    (h : createActive env db uid email role = some (userId, db')) : db.Steady db' := by
  obtain ⟨-, hn, -, hu, hr, hg⟩ := createActive_eq_some h
  have hne : ∀ v u, db.user v = some u → v ≠ uid := by
    intro v u hv he
    rw [he, hn] at hv
    cases hv
  refine ⟨fun v u hv => ⟨u, ?_, rfl, rfl⟩, fun v u r hv => hr v r (hne v u hv),
    fun d g h => ⟨g, ?_, rfl, id⟩⟩
  · rw [hu v (hne v u hv), hv]
  · rw [hg, h]

theorem of_oauthUser {env : Env} {db db' : Db} {subject role uid id : String}
    (h : oauthUser env db subject role uid = .ok (id, db')) : db.Steady db' := by
  rcases oauthUser_eq_ok h with ⟨u, -, -, rfl⟩ | hc
  · exact refl _
  · exact of_createActive hc

theorem of_provisionUser {domain : String} {env : Env} {db db' : Db}
    {identity : ExternalIdentity} {uid id : String}
    (h : provisionUser domain env db identity uid = .ok (id, db')) : db.Steady db' := by
  rcases provisionUser_eq_ok h with ⟨-, rfl⟩ | ⟨db₁, -, hc, hl⟩
  · exact refl _
  · obtain ⟨links, rfl⟩ := insertLink_eq_some hl
    exact (of_createActive hc).trans (of_same rfl rfl rfl)

end Db.Steady

namespace Db.Grows

theorem refl (db : Db) : db.Grows db :=
  ⟨fun _ u hu => ⟨u, hu, le_refl _⟩, fun _ g hg => ⟨g, hg, rfl, id⟩⟩

theorem trans {db₁ db₂ db₃ : Db} (h : db₁.Grows db₂) (h' : db₂.Grows db₃) : db₁.Grows db₃ := by
  refine ⟨?_, ?_⟩
  · intro v u hu
    obtain ⟨u₂, hu₂, hle⟩ := h.users v u hu
    obtain ⟨u₃, hu₃, hle'⟩ := h'.users v u₂ hu₂
    exact ⟨u₃, hu₃, le_trans hle hle'⟩
  · intro d g hg
    obtain ⟨g₂, hg₂, hid, hc⟩ := h.grants d g hg
    obtain ⟨g₃, hg₃, hid', hc'⟩ := h'.grants d g₂ hg₂
    exact ⟨g₃, hg₃, hid'.trans hid, hc' ∘ hc⟩

theorem of_steady {db db' : Db} (h : db.Steady db') : db.Grows db' := by
  refine ⟨fun v u hu => ?_, h.grants⟩
  obtain ⟨u', hu', -, hv⟩ := h.users v u hu
  exact ⟨u', hu', le_of_eq hv.symm⟩

theorem of_setStatus (db : Db) (userId : String) (status : Status) :
    db.Grows (setStatus db userId status) := by
  refine ⟨fun v u hu => ?_, fun _ g hg => ⟨g, hg, rfl, id⟩⟩
  rw [user_setStatus, hu]
  by_cases h : v = userId
  · exact ⟨u.withStatus status, by simp [h], le_refl _⟩
  · exact ⟨u, by simp [h], le_refl _⟩

/-- An admin operation: versions rise, the target's live grants are consumed. -/
theorem of_effect {o : AdminOp} {now : Time} {db db' : Db} (h : o.Effect now db db') :
    db.Grows db' := by
  refine ⟨fun v u hu => ?_, ?_⟩
  · obtain ⟨u', hu', hv⟩ := h.version hu
    refine ⟨u', hu', ?_⟩
    rw [hv]
    split_ifs <;> omega
  · rw [h.grants]
    exact (Steady.of_consume db (liveGrantOf o.target) now).grants

end Db.Grows

/-! ## What a step can do -/

/-- The history a step leaves: as it was, one more rotation, or one more bundle. -/
inductive StepSpec (env : Env) (s : Sys) : Tx → Sys → Prop where
  | quiet {l : Tx} {s' : Sys} (issued : s'.issued = s.issued)
      (rotations : s'.rotations = s.rotations)
      (pending : ∀ rid c, s'.pending rid = some c → s.pending rid = some c ∨ c.via = none) :
      StepSpec env s l s'
  | rotated {rid : ℕ} {raw new userId aud : String} {now : Time} {db : Db} {r : Rotation}
      (rotate : rotateRefresh env s.db raw new now = .ok (some (userId, aud, new), db))
      (presented : r.presented = tokenDigest env raw)
      (successor : r.successor = tokenDigest env new)
      (version : r.version = (s.db.user userId).elim 0 User.authzVersion) :
      StepSpec env s (.rotate rid raw new now)
        { s.commit rid db (some (.bundle userId aud (some new) (some r))) with
          rotations := r :: s.rotations }
  | bundled {rid : ℕ} {userId aud fresh : String} {refreshToken activeKid : Option String}
      {via : Option Rotation} {now : Time} {bundle : TokenBundle} {db : Db}
      (pending : s.pending rid = some (.bundle userId aud refreshToken via))
      (issue : issueBundle env s.db userId aud refreshToken fresh activeKid now =
        .ok (bundle, db)) :
      StepSpec env s (.bundle rid fresh activeKid now)
        { s.commit rid db none with issued := ⟨bundle, via⟩ :: s.issued }

/-- What a request has left to run after a block was committed. -/
theorem pending_commit {s : Sys} {rid rid' : ℕ} {db : Db} {next : Option Cont} {c : Cont}
    (h : (s.commit rid db next).pending rid' = some c) :
    (rid' ≠ rid ∧ s.pending rid' = some c) ∨ (rid' = rid ∧ next = some c) := slot_update h

/-- A block that leaves nothing, or a continuation without a rotation, is quiet. -/
theorem StepSpec.commit {env : Env} {s : Sys} {l : Tx} (rid : ℕ) (db : Db) (next : Option Cont)
    (hnext : ∀ c, next = some c → c.via = none) : StepSpec env s l (s.commit rid db next) := by
  refine .quiet rfl rfl fun rid' c hc => ?_
  rcases pending_commit hc with ⟨-, hc⟩ | ⟨-, hc⟩
  · exact Or.inl hc
  · exact Or.inr (hnext c hc)

theorem StepSpec.fail {env : Env} {s : Sys} {l : Tx} (rid : ℕ) :
    StepSpec env s l (s.fail rid) := .commit rid s.db none (by simp)

theorem StepSpec.same {env : Env} {s : Sys} {l : Tx} (db : Db) :
    StepSpec env s l { s with db } := .quiet rfl rfl fun _ _ hc => Or.inl hc

/-- Only admin operations and activations are not steady. -/
theorem step_steady (env : Env) (s : Sys) (l : Tx) (hadmin : ∀ op now, l ≠ .admin op now)
    (hactivate : ∀ rid, l ≠ .activate rid) : s.db.Steady (step env s l).db := by
  have hc := step_committed env s l
  generalize step env s l = s' at hc ⊢
  cases hc with
  | stayed | ended => exact .refl _
  | registered rid uid email passwordHash who db hregister =>
      obtain ⟨user, hcreate, -⟩ := registerUser_eq_ok hregister
      exact .of_createUser hcreate
  | issued rid raw now userId purpose db hpending hissue =>
      obtain ⟨tokens, rfl⟩ := issueOneTime_eq_some hissue
      exact .of_same rfl rfl rfl
  | authenticated rid email password now next hnext =>
      exact .of_authenticate env s.db email password now
  | verified rid raw now userId db hconsume =>
      obtain ⟨-, -, -, tokens, rfl⟩ := consumeOneTime_eq_ok hconsume
      exact .of_same rfl rfl rfl
  | activated rid userId hpending => exact absurd rfl (hactivate rid)
  | asked => exact .refl _
  | redeemed rid raw now userId db hconsume =>
      obtain ⟨-, -, -, tokens, rfl⟩ := consumeOneTime_eq_ok hconsume
      exact .of_same rfl rfl rfl
  | stored rid passwordHash userId db hpending hstore =>
      rw [storePassword_eq_ok hstore]
      exact .of_setUser s.db _ _ _ fun _ => ⟨rfl, rfl⟩
  | rotated rid raw new now userId aud db rotation hpresented hsuccessor hversion hrotate =>
      exact .of_rotate hrotate
  | loggedOut raw now => exact .of_consume s.db _ now
  | bundled rid fresh activeKid now userId aud refreshToken via bundle db hpending hissue =>
      exact .of_issueBundle hissue
  | administered op now db hexec => exact absurd rfl (hadmin op now)
  | tokenUser rid providerSubject defaultRole uid aud userId db huser => exact .of_oauthUser huser
  | google => exact .refl _
  | naver rid identity uid userId db huser => exact .of_provisionUser huser
  | kakao rid identity uid userId db huser => exact .of_provisionUser huser
  | linked userId identity db hlink =>
      obtain ⟨links, rfl⟩ := insertLink_eq_some hlink
      exact .of_same rfl rfl rfl
  | unlinked provider userId accepted db hrevoke =>
      obtain ⟨links, rfl⟩ := revokeLink_eq_some hrevoke
      exact .of_same rfl rfl rfl

/-- An admin operation commits its effect or changes nothing. -/
theorem step_admin (env : Env) (s : Sys) (op : AdminOp) (now : Time) :
    op.Effect now s.db (step env s (.admin op now)).db ∨
      (step env s (.admin op now)).db = s.db := by
  have hc := step_committed env s (.admin op now)
  generalize step env s (.admin op now) = s' at hc ⊢
  cases hc with
  | stayed => exact Or.inr rfl
  | ended l rid hrid => cases hrid
  | administered op now db hexec => exact Or.inl (AdminOp.exec_effect hexec)

/-- The second block of `verify_email` activates the user its first block named, or changes
    nothing. -/
theorem step_activate (env : Env) (s : Sys) (rid : ℕ) :
    (∃ v, s.pending rid = some (.activate v) ∧
      (step env s (.activate rid)).db = setStatus s.db v .active) ∨
      (step env s (.activate rid)).db = s.db := by
  have hc := step_committed env s (.activate rid)
  generalize step env s (.activate rid) = s' at hc ⊢
  cases hc with
  | stayed | ended => exact Or.inr rfl
  | activated rid userId hpending => exact Or.inl ⟨userId, hpending, rfl⟩

/-- The tables only grow. -/
theorem step_grows (env : Env) (s : Sys) (l : Tx) : s.db.Grows (step env s l).db := by
  cases l with
  | activate rid =>
      rcases step_activate env s rid with ⟨v, -, h⟩ | h
      · rw [h]
        exact .of_setStatus s.db v .active
      · rw [h]
        exact .refl _
  | admin op now =>
      rcases step_admin env s op now with h | h
      · exact .of_effect h
      · rw [h]
        exact .refl _
  | _ => exact .of_steady (step_steady env s _ (by simp) (by simp))

/-- The inversion of `step` on the history. -/
theorem step_cases (env : Env) (s : Sys) (l : Tx) : StepSpec env s l (step env s l) := by
  have hc := step_committed env s l
  generalize step env s l = s' at hc ⊢
  cases hc with
  | stayed => exact .same s.db
  | ended l rid hrid => exact .fail rid
  | issued | activated | stored => exact .commit _ _ none (by simp)
  | authenticated rid email password now next hnext =>
      refine .commit rid _ next ?_
      intro c hc
      obtain ⟨userId, rfl⟩ := hnext c hc
      rfl
  | registered | verified | asked | redeemed | tokenUser | google | naver | kakao =>
      exact .commit _ _ _ (by rintro c ⟨⟩; rfl)
  | rotated rid raw new now userId aud db rotation hpresented hsuccessor hversion hrotate =>
      exact .rotated hrotate hpresented hsuccessor hversion
  | bundled rid fresh activeKid now userId aud refreshToken via bundle db hpending hissue =>
      exact .bundled hpending hissue
  | loggedOut | administered | linked | unlinked => exact .same _

/-- The tables only grow along a run. -/
theorem run_grows (env : Env) (s : Sys) (ls : List Tx) : s.db.Grows (run (step env) s ls).db :=
  run_rel (step env) (fun s t => s.db.Grows t.db) (fun s => .refl s.db)
    (fun _ _ _ h h' => h.trans h') (step_grows env) s ls

/-- `u` logs in under the grant `g1`; `a` is an admin. -/
def loggedIn : List Tx :=
  [.register 0 "a" "a" "pw", .admin (.bootstrapAdmin "a") 0,
   .register 1 "u" "u" "pw", .admin (.approveUser "a" "u" false) 0,
   .authenticate 2 "u" "pw" 1, .bundle 2 "g1" (some "k") 1]

end TemisLab.Sso
