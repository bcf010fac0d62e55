/-
  The foreign keys of the schema (`persistence.py`, `external_accounts.py`): every role, refresh
  grant, one-time token and link refers to a user. The tables of this development do not enforce
  them; a database that does answers a transaction that breaks one with an `IntegrityError`.

  * `foreign_keys_hold`: no transaction does. The invariant needs what requests have left to run:
    the user of a continuation is there as well. Only `ConfirmedAccountLinkService.link` takes the
    user from its caller.
  * `torn_by_faults_only`: so the second transaction of `verify_email` and `reset_password` always
    finds the user of the token the first one consumed, and only a fault tears them apart.
-/
import TemisLab.Lib.Foreign
import TemisLab.Sso.Operations
import TemisLab.Sso.Requests

namespace TemisLab.Sso

open TemisLab.Lib

/-- The tables meet the foreign keys. -/
structure Db.Consistent (db : Db) : Prop where
  roles : db.userRoles.Refers UserRole.userId db.users
  grants : db.refreshGrants.Refers RefreshGrant.userId db.users
  tokens : db.oneTimeTokens.Refers OneTimeToken.userId db.users
  links : db.links.Refers ExternalIdentityLink.userId db.users

/-- The user a request goes on with. -/
def Cont.userId : Cont → String
  | .bundle userId _ _ _ => userId
  | .oneTime userId _ => userId
  | .activate userId => userId
  | .storePassword userId => userId

/-- The tables meet the foreign keys, and so will the rows that are still to be written. -/
structure Sys.Consistent (s : Sys) : Prop where
  db : s.db.Consistent
  pending : ∀ rid c, s.pending rid = some c → (s.db.user c.userId).isSome = true

/-- A confirmed link is for a user there is. -/
def linksUser (s : Sys) : Tx → Bool
  | .link userId _ => (s.db.user userId).isSome
  | _ => true

theorem consistent_empty : Db.empty.Consistent :=
  ⟨Table.refers_empty _ _, Table.refers_empty _ _, Table.refers_empty _ _, Table.refers_empty _ _⟩

theorem consistent_start {db : Db} (h : db.Consistent) : (Sys.start db).Consistent :=
  ⟨h, by simp [Sys.start]⟩

/-! ## The operations on the tables -/

variable {env : Env} {db db' : Db} {now : Time}

namespace Db.Consistent

/-- Users that are changed stay. -/
theorem setUser (h : db.Consistent) (userId : String) (f : User → User)
    (hf : ∀ u, (f u).id = u.id) : (db.setUser userId f hf).Consistent := by
  have hkeys : ∀ k, (db.users.get k).isSome = true →
      ((db.setUser userId f hf).users.get k).isSome = true := by
    intro k hk
    have hget := Table.get_modify db.users (fun u => u.id = userId) f hf k
    unfold Db.setUser
    rw [hget, Option.isSome_map]
    exact hk
  exact ⟨h.roles.mono hkeys, h.grants.mono hkeys, h.tokens.mono hkeys, h.links.mono hkeys⟩

theorem setStatus (h : db.Consistent) (userId : String) (status : Status) :
    (Sso.setStatus db userId status).Consistent :=
  h.setUser userId (User.withStatus status) fun _ => rfl

theorem createUser (h : db.Consistent) {uid email : String} {hash : Option String} {user : User}
    (hc : Sso.createUser env db uid email hash = some (user, db')) : db'.Consistent := by
  obtain ⟨-, users, hi, rfl⟩ := createUser_eq_some hc
  have hkeys : ∀ k, (db.users.get k).isSome = true → (users.get k).isSome = true := by
    intro k hk
    rw [Table.get_insert hi]
    split
    · rfl
    · exact hk
  exact ⟨h.roles.mono hkeys, h.grants.mono hkeys, h.tokens.mono hkeys, h.links.mono hkeys⟩

theorem insertRole (h : db.Consistent) {userId role : String}
    (hi : Sso.insertRole db userId role = some db') (hu : (db.user userId).isSome = true) :
    db'.Consistent := by
  obtain ⟨roles, hroles, rfl⟩ := Option.map_eq_some_iff.mp hi
  exact { h with roles := h.roles.insert hroles hu }

theorem mergeRole (h : db.Consistent) {userId : String} (role : String)
    (hu : (db.user userId).isSome = true) : (Sso.mergeRole db userId role).Consistent :=
  { h with roles := h.roles.merge hu }

theorem deleteRole (h : db.Consistent) (userId role : String) :
    (Sso.deleteRole db userId role).Consistent :=
  { h with roles := h.roles.delete _ }

theorem consumeGrants (h : db.Consistent) (p : RefreshGrant → Bool) (now : Time) :
    (db.consumeGrants p now).Consistent :=
  { h with grants := h.grants.modify p (RefreshGrant.consume_digest now) fun _ => rfl }

theorem issueRefresh (h : db.Consistent) {userId aud raw : String}
    (hi : Sso.issueRefresh env db userId aud raw now = some db')
    (hu : (db.user userId).isSome = true) : db'.Consistent := by
  obtain ⟨grants, g, hgrants, -, rfl, -, -, rfl⟩ := issueRefresh_eq_some hi
  exact { h with grants := h.grants.insert hgrants hu }

theorem issueOneTime (h : db.Consistent) {userId raw : String} {purpose : Purpose}
    (hi : Sso.issueOneTime env db userId purpose raw now = some db')
    (hu : (db.user userId).isSome = true) : db'.Consistent := by
  obtain ⟨tokens, htokens, rfl⟩ := Option.map_eq_some_iff.mp hi
  exact { h with tokens := h.tokens.insert htokens hu }

/-- The user of a token that is consumed is there. -/
theorem consumeOneTime (h : db.Consistent) {raw userId : String} {purpose : Purpose}
    (hc : Sso.consumeOneTime env db raw purpose now = .ok (userId, db')) :
    db'.Consistent ∧ (db'.user userId).isSome = true := by
  unfold Sso.consumeOneTime at hc
  split at hc
  · cases hc
  · next token hlive =>
      cases hc
      obtain ⟨hget, -, -, -⟩ := liveOneTime_eq_some hlive
      exact ⟨{ h with tokens := h.tokens.modify _ (OneTimeToken.consume_digest now) fun _ => rfl },
        h.tokens token (Table.mem_of_get hget).1⟩

theorem insertLink (h : db.Consistent) {provider subject userId : String}
    (hi : Sso.insertLink db provider subject userId = some db')
    (hu : (db.user userId).isSome = true) : db'.Consistent := by
  obtain ⟨links, hlinks, rfl⟩ := Option.map_eq_some_iff.mp hi
  exact { h with links := h.links.insert hlinks hu }

theorem revokeLink (h : db.Consistent) {provider userId : String} {accepted : Bool}
    (hr : Sso.revokeLink db provider userId accepted = some db') : db'.Consistent := by
  unfold Sso.revokeLink at hr
  split at hr
  · cases hr
  · split at hr
    · cases hr
      exact { h with links := h.links.delete _ }
    · cases hr

/-- The user a link resolves to is there. -/
theorem resolveLink (h : db.Consistent) {provider subject userId : String}
    (hr : Sso.resolveLink db provider subject = some userId) :
    (db.user userId).isSome = true := by
  obtain ⟨link, hlink, rfl⟩ := Option.map_eq_some_iff.mp hr
  exact h.links link (Table.mem_of_get hlink).1

/-! ## The transactions -/

theorem authenticate (h : db.Consistent) (env : Env) (email password : String) (now : Time) :
    (Sso.authenticate env db email password now).2.Consistent := by
  rcases authenticate_db env db email password now with hdb | ⟨uid, f, hf, -, hdb⟩
  · rw [hdb]
    exact h
  · rw [hdb]
    exact h.setUser uid f hf

theorem createActive (h : db.Consistent) {uid email role id : String}
    (hc : Sso.createActive env db uid email role = some (id, db')) :
    db'.Consistent ∧ (db'.user id).isSome = true := by
  obtain ⟨hid, -, ⟨u, hu, -⟩, -⟩ := createActive_eq_some hc
  refine ⟨?_, by rw [hid, hu]; rfl⟩
  unfold Sso.createActive at hc
  split at hc
  · cases hc
  · next user db₁ hcreate =>
      obtain ⟨db₃, hi, he⟩ := Option.map_eq_some_iff.mp hc
      cases he
      refine ((h.createUser hcreate).setStatus user.id .active).insertRole hi ?_
      have huid : uid = user.id := by rw [(createUser_eq_some hcreate).1]
      rw [user_setStatus, if_pos rfl, user_createUser hcreate, if_pos huid]
      rfl

theorem oauthUser (h : db.Consistent) {subject role uid id : String}
    (hr : Sso.oauthUser env db subject role uid = .ok (id, db')) :
    db'.Consistent ∧ (db'.user id).isSome = true := by
  rcases oauthUser_eq_ok hr with ⟨u, hu, rfl, rfl⟩ | hc
  · refine ⟨h, ?_⟩
    rw [(userByEmail_eq_some hu).1]
    rfl
  · exact h.createActive hc

theorem provisionUser (h : db.Consistent) {domain : String} {identity : ExternalIdentity}
    {uid id : String} (hr : Sso.provisionUser domain env db identity uid = .ok (id, db')) :
    db'.Consistent ∧ (db'.user id).isSome = true := by
  rcases provisionUser_eq_ok hr with ⟨hlink, rfl⟩ | ⟨db₁, -, hc, hl⟩
  · exact ⟨h, h.resolveLink hlink⟩
  · obtain ⟨h₁, hu⟩ := h.createActive hc
    refine ⟨h₁.insertLink hl hu, ?_⟩
    obtain ⟨links, rfl⟩ := insertLink_eq_some hl
    exact hu

theorem rotate (h : db.Consistent) {raw new userId aud r : String}
    (hr : rotateRefresh env db raw new now = .ok (some (userId, aud, r), db')) :
    db'.Consistent ∧ (db'.user userId).isSome = true := by
  obtain ⟨g, grants, g', hget, -, rfl, -, -, hi, -, huser, -, -, rfl⟩ := rotateRefresh_eq_some hr
  have hu := h.grants g (Table.mem_of_get hget).1
  have h₁ := h.consumeGrants (rotatable env db raw now) now
  exact ⟨{ h₁ with grants := h₁.grants.insert hi (huser ▸ hu) }, hu⟩

theorem issueBundle (h : db.Consistent) {userId aud fresh : String}
    {refreshToken activeKid : Option String} {b : TokenBundle}
    (hi : Sso.issueBundle env db userId aud refreshToken fresh activeKid now = .ok (b, db')) :
    db'.Consistent := by
  obtain ⟨user, kid, hu, -, -, -, -, hr⟩ := issueBundle_eq_ok hi
  rcases bundleRefresh_eq_some hr with ⟨-, rfl⟩ | ⟨-, hissue⟩
  · exact h
  · exact h.issueRefresh hissue (by rw [hu]; rfl)

theorem writes (h : db.Consistent) {op : AdminOp} (hu : (db.user op.target).isSome = true) :
    (op.writes db).Consistent := by
  have hset : ∀ v status, (db.user v).isSome = true →
      ((Sso.setStatus db v status).user v).isSome = true := by
    intro v status hv
    rw [user_setStatus, if_pos rfl, Option.isSome_map]
    exact hv
  cases op with
  | bootstrapAdmin u => exact (h.setStatus u .active).mergeRole "admin" (hset u .active hu)
  | approveUser a t failForTest =>
      exact ((h.setStatus t .active).deleteRole t "pending").mergeRole "user" (hset t .active hu)
  | suspendUser a t reason => exact h.setStatus t .suspended
  | changeRole a t role grant =>
      cases grant with
      | true => exact h.mergeRole role hu
      | false => exact h.deleteRole t role
  | revokeSessions a t => exact h

/-- The audit log refers to nothing. -/
theorem exec (h : db.Consistent) {op : AdminOp} (he : op.exec env db now = .ok db') :
    db'.Consistent := by
  obtain ⟨-, ⟨u, hu⟩, logs, rfl⟩ := AdminOp.exec_eq_ok he
  have hbumped : ((op.writes db).setUser op.target User.bumpVersion fun _ => rfl).Consistent :=
    (h.writes (by rw [hu]; rfl)).setUser op.target User.bumpVersion fun _ => rfl
  have h₁ := hbumped.consumeGrants (liveGrantOf op.target) now
  exact ⟨h₁.roles, h₁.grants, h₁.tokens, h₁.links⟩

end Db.Consistent

/-! ## Runs -/

/-- A transaction is committed; its request goes on with a user there is. -/
theorem Sys.Consistent.commit {s : Sys} (h : s.Consistent) {rid : ℕ} {next : Option Cont}
    (hdb : db.Consistent) (hgrows : s.db.Grows db)
    (hnext : ∀ c, next = some c → (db.user c.userId).isSome = true) :
    (s.commit rid db next).Consistent := by
  refine ⟨hdb, ?_⟩
  intro rid' c hc
  rcases pending_commit hc with ⟨-, hc⟩ | ⟨-, hc⟩
  · obtain ⟨u, hu⟩ := Option.isSome_iff_exists.mp (h.pending rid' c hc)
    obtain ⟨u', hu', -⟩ := hgrows.users _ u hu
    exact Option.isSome_iff_exists.mpr ⟨u', hu'⟩
  · exact hnext c hc

/-- What a transaction of no request commits. -/
theorem Sys.Consistent.replace {s : Sys} (h : s.Consistent) (hdb : db.Consistent)
    (hgrows : s.db.Grows db) : Sys.Consistent { s with db } := by
  refine ⟨hdb, ?_⟩
  intro rid c hc
  obtain ⟨u, hu⟩ := Option.isSome_iff_exists.mp (h.pending rid c hc)
  obtain ⟨u', hu', -⟩ := hgrows.users _ u hu
  exact Option.isSome_iff_exists.mpr ⟨u', hu'⟩

/-- A login that succeeds goes on with the user its address found. -/
theorem Sys.Consistent.authenticate {s : Sys} (h : s.Consistent) (env : Env) (rid : ℕ)
    (email password : String) (now : Time) :
    (step env s (.authenticate rid email password now)).Consistent := by
  have hdb := h.db.authenticate env email password now
  have hgrows := Db.Grows.of_steady (.of_authenticate env s.db email password now)
  have hfound : ∀ who db, Sso.authenticate env s.db email password now = (.ok who, db) →
      (s.db.user who.userId).isSome = true := by
    intro who db hok
    unfold Sso.authenticate at hok
    split at hok
    · cases hok
    · next user huser =>
        split at hok
        · cases hok
        · split_ifs at hok <;> cases hok
          show (s.db.user user.id).isSome = true
          rw [(userByEmail_eq_some huser).1]
          rfl
  simp only [step]
  cases hauth : Sso.authenticate env s.db email password now with
  | mk result db =>
      rw [hauth] at hdb hgrows
      cases result with
      | error e => exact h.commit hdb hgrows (by simp)
      | ok who =>
          refine h.commit hdb hgrows ?_
          rintro c ⟨⟩
          obtain ⟨u, hu⟩ := Option.isSome_iff_exists.mp (hfound who db hauth)
          obtain ⟨u', hu', -⟩ := hgrows.users _ u hu
          exact Option.isSome_iff_exists.mpr ⟨u', hu'⟩

theorem Sys.Consistent.committed {s s' : Sys} (h : s.Consistent) {l : Tx}
    (hl : linksUser s l = true) (hc : Committed env s l s') (hgrows : s.db.Grows s'.db)
    (hauth : ∀ rid email password now, l ≠ .authenticate rid email password now) :
    s'.Consistent := by
  cases hc with
  | stayed => exact h
  | ended => exact h.commit h.db hgrows (by simp)
  | registered rid uid email passwordHash who db hregister =>
      obtain ⟨user, hcreate, hwho⟩ := registerUser_eq_ok hregister
      refine h.commit (h.db.createUser hcreate) hgrows ?_
      rintro c ⟨⟩
      show (db.user who.userId).isSome = true
      rw [hwho, user_createUser hcreate, if_pos rfl]
      rfl
  | issued rid raw now userId purpose db hpending hissue =>
      exact h.commit (h.db.issueOneTime hissue (h.pending rid _ hpending)) hgrows (by simp)
  | authenticated rid email password now next hnext => exact absurd rfl (hauth _ _ _ _)
  | verified rid raw now userId db hconsume =>
      obtain ⟨hdb, hu⟩ := h.db.consumeOneTime hconsume
      refine h.commit hdb hgrows ?_
      rintro c ⟨⟩
      exact hu
  | activated rid userId hpending =>
      exact h.commit (h.db.setStatus userId .active) hgrows (by simp)
  | asked rid email user huser =>
      refine h.commit h.db hgrows ?_
      rintro c ⟨⟩
      show (s.db.user user.id).isSome = true
      rw [(userByEmail_eq_some huser).1]
      rfl
  | redeemed rid raw now userId db hconsume =>
      obtain ⟨hdb, hu⟩ := h.db.consumeOneTime hconsume
      refine h.commit hdb hgrows ?_
      rintro c ⟨⟩
      exact hu
  | stored rid passwordHash userId db hpending hstore =>
      refine h.commit ?_ hgrows (by simp)
      rw [storePassword_eq_ok hstore]
      exact h.db.setUser userId (User.withPassword passwordHash) fun _ => rfl
  | rotated rid raw new now userId aud db rotation hpresented hsuccessor hversion hrotate =>
      obtain ⟨hdb, hu⟩ := h.db.rotate hrotate
      have hcommit : (s.commit rid db
          (some (.bundle userId aud (some new) (some rotation)))).Consistent := by
        refine h.commit hdb hgrows ?_
        rintro c ⟨⟩
        exact hu
      exact ⟨hcommit.db, hcommit.pending⟩
  | loggedOut raw now => exact h.replace (h.db.consumeGrants _ now) hgrows
  | bundled rid fresh activeKid now userId aud refreshToken via bundle db hpending hissue =>
      have hcommit : (s.commit rid db none).Consistent :=
        h.commit (h.db.issueBundle hissue) hgrows (by simp)
      exact ⟨hcommit.db, hcommit.pending⟩
  | administered op now db hexec => exact h.replace (h.db.exec hexec) hgrows
  | tokenUser rid providerSubject defaultRole uid aud userId db huser =>
      obtain ⟨hdb, hu⟩ := h.db.oauthUser huser
      refine h.commit hdb hgrows ?_
      rintro c ⟨⟩
      exact hu
  | google rid identity userId hlink =>
      refine h.commit h.db hgrows ?_
      rintro c ⟨⟩
      exact h.db.resolveLink hlink
  | naver rid identity uid userId db huser =>
      obtain ⟨hdb, hu⟩ := h.db.provisionUser huser
      refine h.commit hdb hgrows ?_
      rintro c ⟨⟩
      exact hu
  | kakao rid identity uid userId db huser =>
      obtain ⟨hdb, hu⟩ := h.db.provisionUser huser
      refine h.commit hdb hgrows ?_
      rintro c ⟨⟩
      exact hu
  | linked userId identity db hlink => exact h.replace (h.db.insertLink hlink hl) hgrows
  | unlinked provider userId accepted db hrevoke => exact h.replace (h.db.revokeLink hrevoke) hgrows

theorem consistent_step (env : Env) (s : Sys) (l : Tx) (h : s.Consistent)
    (hl : linksUser s l = true) : (step env s l).Consistent := by
  cases l with
  | authenticate rid email password now => exact h.authenticate env rid email password now
  | _ => exact h.committed hl (step_committed env s _) (step_grows env s _) (by simp)

/-- No run of requests breaks a foreign key. -/
theorem foreign_keys_hold (env : Env) (db : Db) (ls : List Tx) (h : db.Consistent)
    (hlinks : Along (step env) (fun s l => linksUser s l = true) (.start db) ls) :
    (run (step env) (.start db) ls).Consistent :=
  run_invariant (step env) Sys.Consistent (consistent_step env) (consistent_start h) hlinks

/-- A caller links an identity to itself. -/
theorem linked_keys_hold : (run (step plainEnv) (.start .empty)
    (loggedIn ++ [.link "u" ⟨"google", "s", none, false⟩])).Consistent :=
  foreign_keys_hold plainEnv .empty _ consistent_empty (by decide +kernel)

/-- The link table takes any user id. -/
example : ¬ (run (step plainEnv) (.start .empty)
    [.link "u" ⟨"google", "s", none, false⟩]).db.Consistent := by
  intro h
  exact absurd h.links (by decide +kernel)

/-! ## The second transaction of a redemption -/

/-- Where every token has its user, a redemption is atomic unless a fault comes between. -/
theorem redeem_torn {purpose : Purpose} {raises : Operations.Point → Bool} {raw : String}
    {points : List Operations.Point} {after : User → User}
    {second : String → Block Db Operations.Failure PUnit} (h : db.Consistent)
    (happlies : Operations.Applies raises points after second) :
    Operations.Atomic (Operations.Redeemed env raw now purpose after db) db
        (twice (Operations.consumeBlock env raises raw purpose now) id second db) ↔
      ((∃ token, Operations.Consumes env raises raw purpose now db token) →
        ∀ point ∈ points, raises point = false) := by
  rw [Operations.redeem_atomic_iff happlies]
  refine ⟨?_, ?_⟩
  · rintro hall ⟨token, hconsumes⟩
    exact (hall token hconsumes).1
  · intro hpoints token hconsumes
    obtain ⟨hget, -⟩ := liveOneTime_eq_some hconsumes.2
    have huser := h.tokens token (Table.mem_of_get hget).1
    exact ⟨hpoints ⟨token, hconsumes⟩, Option.isSome_iff_ne_none.mp huser⟩

/-- In every state a run reaches, only a fault tears `verify_email` and `reset_password` apart. -/
theorem torn_by_faults_only (env : Env) (db₀ : Db) (ls : List Tx) (h : db₀.Consistent)
    (hlinks : Along (step env) (fun s l => linksUser s l = true) (.start db₀) ls)
    (raises : Operations.Point → Bool) (raw passwordHash : String) (now : Time) :
    let db := (run (step env) (.start db₀) ls).db
    (Operations.Atomic (Operations.Redeemed env raw now .verify (User.withStatus .active) db) db
        (Operations.verifyEmail env raises raw now db) ↔
      ((∃ token, Operations.Consumes env raises raw .verify now db token) →
        ∀ point ∈ [Operations.Point.selectUser, .commitUser], raises point = false)) ∧
    (Operations.Atomic (Operations.Redeemed env raw now .reset (User.withPassword passwordHash) db)
        db (Operations.resetPassword env raises raw passwordHash now db) ↔
      ((∃ token, Operations.Consumes env raises raw .reset now db token) →
        ∀ point ∈ [Operations.Point.selectUser, .hashPassword, .commitUser],
          raises point = false)) := by
  have hdb := (run_invariant (step env) Sys.Consistent (consistent_step env)
    (consistent_start h) hlinks).db
  exact ⟨redeem_torn hdb Operations.applies_activate, redeem_torn hdb Operations.applies_store⟩

/-- `u` is registered and has its token. -/
def registered : List Tx := [.register 0 "u" "u" "pw", .issueOneTime 0 "t" 1]

/-- The connection is lost at the last commit. -/
theorem verification_torn : ¬ Operations.Atomic
    (Operations.Redeemed plainEnv "t" 2 .verify (User.withStatus .active)
      (run (step plainEnv) (.start .empty) registered).db)
    (run (step plainEnv) (.start .empty) registered).db
    (Operations.verifyEmail plainEnv (fun point => point = .commitUser) "t" 2
      (run (step plainEnv) (.start .empty) registered).db) := by
  intro hatomic
  have hpoints := (torn_by_faults_only plainEnv .empty registered consistent_empty
    (by decide +kernel) (fun point => point = .commitUser) "t" "pw" 2).1.mp hatomic
  exact absurd (hpoints ⟨⟨"t", "u", .verify, 901, none⟩, by decide, by decide +kernel⟩)
    (by decide)

end TemisLab.Sso
