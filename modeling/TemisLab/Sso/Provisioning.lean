/-
  First logins by Naver and Kakao, over the requests of the SSO. A first login makes an account
  under the identity's address, or under its `.changed` address where that one is taken; accounts
  and their addresses outlive the link that `kakao_revoke` and `naver_revoke` delete.

  * `third_life`: a login can get stuck. An identity that was revoked twice has an account at each
    of its two addresses, and its third first login is an `IntegrityError`.
  * `returns_iff`: a login settles exactly if the identity is linked, or its texts fit the columns
    and the address that it comes to is free (`Room`). It settles if it returns and each login up to
    the next revocation returns the same user and changes nothing (`Settles`).
-/
import TemisLab.Sso.Requests

namespace TemisLab.Sso.Provisioning

open TemisLab.Lib

/-- The providers whose logins make an account with a link. -/
inductive Portal where
  | naver | kakao
  deriving DecidableEq, Repr

namespace Portal

/-- The domain of the addresses it makes. -/
def domain : Portal → String
  | .naver => "naver.lab.invalid"
  | .kakao => "kakao.lab.invalid"

/-- `_naver_oauth_user`, `_kakao_oauth_user`. -/
def oauthUser : Portal → Env → Db → ExternalIdentity → String →
    Except ProvisionError (String × Db)
  | .naver => naverOauthUser
  | .kakao => kakaoOauthUser

/-- The transaction of a login. -/
def login (p : Portal) (rid : ℕ) (identity : ExternalIdentity) (uid : String) : Tx :=
  match p with
  | .naver => .naverUser rid identity uid
  | .kakao => .kakaoUser rid identity uid

/-- `identity.email or f"{identity.subject}@…"`. -/
def address (p : Portal) (identity : ExternalIdentity) : String :=
  orDefault identity.email (identity.subject ++ "@" ++ p.domain)

/-- `f"{identity.subject}.changed@…"`. -/
def changed (p : Portal) (identity : ExternalIdentity) : String :=
  identity.subject ++ ".changed@" ++ p.domain

theorem oauthUser_eq (p : Portal) : p.oauthUser = provisionUser p.domain := by
  cases p <;> rfl

theorem db_login (p : Portal) (env : Env) (s : Sys) (rid : ℕ) (identity : ExternalIdentity)
    (uid : String) : step env s (p.login rid identity uid) =
      s.signIn rid labClient (p.oauthUser env s.db identity uid) := by
  cases p <;> rfl

end Portal

/-- No account has the address. -/
def Free (env : Env) (db : Db) (address : String) : Prop :=
  ∀ u ∈ db.users.rows, u.email ≠ env.normalize address

instance (env : Env) (db : Db) (address : String) : Decidable (Free env db address) := by
  unfold Free
  infer_instance

/-- No account has the address, and `users.email` takes it. -/
def Open (env : Env) (db : Db) (address : String) : Prop :=
  Free env db address ∧ storable 320 (env.normalize address) = true

instance (env : Env) (db : Db) (address : String) : Decidable (Open env db address) :=
  inferInstanceAs (Decidable (_ ∧ _))

/-- The identity has a link; or its texts fit the columns of one, and the first address is open, or
    is taken and the second one is open. -/
def Room (env : Env) (p : Portal) (db : Db) (identity : ExternalIdentity) : Prop :=
  (∃ userId, resolveLink db identity.provider identity.subject = some userId) ∨
    identity.storable = true ∧ (Open env db (p.address identity) ∨
      ¬ Free env db (p.address identity) ∧ Open env db (p.changed identity))

/-- A registration, a login by Naver or Kakao or a revocation of a link. -/
def joins : Tx → Bool
  | .register _ _ _ _ => true
  | .naverUser _ _ _ => true
  | .kakaoUser _ _ _ => true
  | .revokeLink _ _ _ => true
  | _ => false

/-- `kakao_revoke` or `naver_revoke`. -/
def revokes : Tx → Bool
  | .revokeLink _ _ _ => true
  | _ => false

/-- A login returns, and each login of the identity up to the next revocation returns the same user
    and changes nothing. -/
def Settles (env : Env) (s : Sys) (p : Portal) (identity : ExternalIdentity) (uid : String) :
    Prop :=
  ∃ id db, p.oauthUser env s.db identity uid = .ok (id, db) ∧
    ∀ rid ms, (∀ l ∈ ms, revokes l = false) →
      let t := run (step env) s (p.login rid identity uid :: ms)
      ∀ uid', p.oauthUser env t.db identity uid' = .ok (id, t.db)

/-- An identity of Naver without an address. -/
def bare : ExternalIdentity := ⟨"naver", "7", none, false⟩

/-- It signs in and is revoked, twice. -/
def twoLives : List Tx :=
  [.naverUser 0 bare "u1", .revokeLink "naver" "u1" true,
   .naverUser 1 bare "u2", .revokeLink "naver" "u2" true]

/-- The next login of the identity raises. -/
theorem third_life : ¬ ∀ env ls p identity uid, (∀ l ∈ ls, joins l = true) →
    (run (step env) (.start .empty) ls).db.user uid = none →
      Settles env (run (step env) (.start .empty) ls) p identity uid := by
  intro h
  obtain ⟨id, db, hok, -⟩ := h plainEnv twoLives .naver bare "u3" (by decide +kernel)
    (by decide +kernel)
  have hraises : (Portal.oauthUser .naver plainEnv
      (run (step plainEnv) (.start .empty) twoLives).db bare "u3").isOk = false := by
    decide +kernel
  rw [hok] at hraises
  cases hraises

/-! ## One login -/

theorem userByEmail_eq_none {env : Env} {db : Db} {address : String} :
    userByEmail env db address = none ↔ Free env db address := by
  unfold userByEmail Free
  rw [List.find?_eq_none]
  refine forall₂_congr fun u _ => ?_
  rw [decide_eq_true_eq]

/-- A login of a linked identity finds its user. -/
theorem provisionUser_linked {domain : String} {env : Env} {db : Db} {identity : ExternalIdentity}
    {userId : String} (h : resolveLink db identity.provider identity.subject = some userId)
    (uid : String) : provisionUser domain env db identity uid = .ok (userId, db) := by
  unfold provisionUser
  rw [h]

/-- The address that a first login comes to is open exactly if one of the two is, in their turn. -/
theorem open_firstAddress {p : Portal} {env : Env} {db : Db} {identity : ExternalIdentity} :
    Open env db (firstAddress p.domain env db identity) ↔
      Open env db (p.address identity) ∨
        ¬ Free env db (p.address identity) ∧ Open env db (p.changed identity) := by
  have hfirst : firstAddress p.domain env db identity =
      if (userByEmail env db (p.address identity)).isSome then p.changed identity
      else p.address identity := rfl
  rw [hfirst]
  by_cases hfree : Free env db (p.address identity)
  · rw [userByEmail_eq_none.mpr hfree, Option.isSome_none, if_neg Bool.false_ne_true]
    exact ⟨Or.inl, fun h => h.resolve_right fun htaken => htaken.1 hfree⟩
  · have hsome : (userByEmail env db (p.address identity)).isSome = true := by
      rw [Option.isSome_iff_ne_none]
      exact fun hnone => hfree (userByEmail_eq_none.mp hnone)
    rw [if_pos hsome]
    exact ⟨fun h => Or.inr ⟨hfree, h⟩, fun h => (h.resolve_left fun ho => hfree ho.1).2⟩

theorem provisionUser_iff {p : Portal} {env : Env} {db : Db} {identity : ExternalIdentity}
    {uid : String} (huser : db.user uid = none) (hrole : db.hasRole uid "user" = false) :
    (∃ id db', provisionUser p.domain env db identity uid = .ok (id, db')) ↔
      Room env p db identity := by
  unfold Room
  rw [← open_firstAddress]
  cases hlink : resolveLink db identity.provider identity.subject with
  | some userId =>
      refine ⟨fun _ => Or.inl ⟨userId, rfl⟩, fun _ => ?_⟩
      exact ⟨userId, db, provisionUser_linked hlink uid⟩
  | none =>
      refine ⟨?_, ?_⟩
      · rintro ⟨id, db', h⟩
        obtain ⟨haddress, hidentity, db₁, hc, -⟩ := (provisionUser_first hlink).mp h
        exact Or.inr ⟨hidentity, (createActive_row hc).2.2.2, haddress⟩
      · rintro (⟨userId, hlinked⟩ | ⟨hidentity, hfree, haddress⟩)
        · cases hlinked
        · obtain ⟨db', hok, -⟩ := provisionUser_of_free hlink rfl haddress hidentity huser hrole
            (userByEmail_eq_none.mpr hfree)
          exact ⟨uid, db', hok⟩

/-! ## Roles and links over the requests -/

/-- A transaction other than an admin operation, a login that may make an account, a link and a
    revocation leaves the roles and the links. -/
def aside : Tx → Bool
  | .admin _ _ => false
  | .oauthUser _ _ _ _ _ => false
  | .naverUser _ _ _ => false
  | .kakaoUser _ _ _ => false
  | .link _ _ => false
  | .revokeLink _ _ _ => false
  | _ => true

/-- The roles and the links are as they were. -/
def Apart (db db' : Db) : Prop := db'.userRoles = db.userRoles ∧ db'.links = db.links

theorem apart_bundle {env : Env} {db db' : Db} {userId aud fresh r : String}
    {refreshToken : Option String} {now : Time}
    (h : bundleRefresh env db userId aud refreshToken fresh now = some (r, db')) :
    Apart db db' := by
  rcases bundleRefresh_eq_some h with ⟨-, rfl⟩ | ⟨-, hi⟩
  · exact ⟨rfl, rfl⟩
  · obtain ⟨grants, g, -, -, -, -, -, rfl⟩ := issueRefresh_eq_some hi
    exact ⟨rfl, rfl⟩

theorem apart_authenticate (env : Env) (db : Db) (email password : String) (now : Time) :
    Apart db (authenticate env db email password now).2 := by
  rcases authenticate_db env db email password now with h | ⟨uid, f, hf, -, h⟩
  · rw [h]
    exact ⟨rfl, rfl⟩
  · rw [h]
    exact ⟨rfl, rfl⟩

theorem apart_step (env : Env) (s : Sys) {l : Tx} (hl : aside l = true) :
    Apart s.db (step env s l).db := by
  have hc := step_committed env s l
  generalize step env s l = s' at hc ⊢
  cases hc with
  | stayed | ended | activated | asked | loggedOut | google => exact ⟨rfl, rfl⟩
  | registered rid uid email passwordHash who db hregister =>
      obtain ⟨user, hcreate, -⟩ := registerUser_eq_ok hregister
      obtain ⟨-, users, -, rfl⟩ := createUser_eq_some hcreate
      exact ⟨rfl, rfl⟩
  | issued rid raw now userId purpose db hpending hissue =>
      obtain ⟨tokens, rfl⟩ := issueOneTime_eq_some hissue
      exact ⟨rfl, rfl⟩
  | authenticated rid email password now next hnext =>
      exact apart_authenticate env s.db email password now
  | verified rid raw now userId db hconsume =>
      obtain ⟨-, -, -, tokens, rfl⟩ := consumeOneTime_eq_ok hconsume
      exact ⟨rfl, rfl⟩
  | redeemed rid raw now userId db hconsume =>
      obtain ⟨-, -, -, tokens, rfl⟩ := consumeOneTime_eq_ok hconsume
      exact ⟨rfl, rfl⟩
  | stored rid passwordHash userId db hpending hstore =>
      rw [storePassword_eq_ok hstore]
      exact ⟨rfl, rfl⟩
  | rotated rid raw new now userId aud db rotation hpresented hsuccessor hversion hrotate =>
      obtain ⟨g, grants, g', -, -, -, -, -, -, -, -, -, -, rfl⟩ := rotateRefresh_eq_some hrotate
      exact ⟨rfl, rfl⟩
  | bundled rid fresh activeKid now userId aud refreshToken via bundle db hpending hissue =>
      obtain ⟨-, -, -, -, -, -, -, hr⟩ := issueBundle_eq_ok hissue
      exact apart_bundle hr
  | administered | tokenUser | naver | kakao | linked | unlinked => cases hl

/-- Roles that appear are those of users. -/
def RolesOf (db db' : Db) : Prop :=
  ∀ v, db'.user v = none → ∀ r, db'.hasRole v r = db.hasRole v r

theorem RolesOf.of_same {db db' : Db} (h : db'.userRoles = db.userRoles) : RolesOf db db' := by
  intro v _ r
  unfold Db.hasRole
  rw [h]

theorem RolesOf.of_createActive {env : Env} {db db' : Db} {uid email role id : String}
    (h : createActive env db uid email role = some (id, db')) : RolesOf db db' := by
  intro v hv r
  obtain ⟨-, -, ⟨u, hu, -⟩, -, hroles, -⟩ := createActive_eq_some h
  refine hroles v r ?_
  rintro rfl
  rw [hu] at hv
  cases hv

theorem RolesOf.of_oauthUser {env : Env} {db db' : Db} {subject role uid id : String}
    (h : oauthUser env db subject role uid = .ok (id, db')) : RolesOf db db' := by
  rcases oauthUser_eq_ok h with ⟨u, -, -, rfl⟩ | hc
  · exact .of_same rfl
  · exact .of_createActive hc

theorem RolesOf.of_provisionUser {domain : String} {env : Env} {db db' : Db}
    {identity : ExternalIdentity} {uid id : String}
    (h : provisionUser domain env db identity uid = .ok (id, db')) : RolesOf db db' := by
  rcases provisionUser_eq_ok h with ⟨-, rfl⟩ | ⟨db₁, -, hc, hl⟩
  · exact .of_same rfl
  · obtain ⟨links, rfl⟩ := insertLink_eq_some hl
    intro v hv r
    exact RolesOf.of_createActive hc v hv r

theorem RolesOf.of_effect {o : AdminOp} {now : Time} {db db' : Db} (h : o.Effect now db db') :
    RolesOf db db' := by
  intro v hv r
  rw [h.roles, if_neg]
  rintro rfl
  obtain ⟨u, hu⟩ := h.found
  rw [h.target u hu] at hv
  cases hv

theorem rolesOf_step (env : Env) (s : Sys) (l : Tx) : RolesOf s.db (step env s l).db := by
  by_cases hl : aside l = true
  · exact .of_same (apart_step env s hl).1
  · have hc := step_committed env s l
    generalize step env s l = s' at hc ⊢
    cases hc with
    | stayed | ended => exact .of_same rfl
    | administered op now db hexec => exact .of_effect (AdminOp.exec_effect hexec)
    | tokenUser rid subject role uid aud userId db huser => exact .of_oauthUser huser
    | naver rid identity uid userId db huser => exact .of_provisionUser huser
    | kakao rid identity uid userId db huser => exact .of_provisionUser huser
    | linked userId identity db hlink =>
        obtain ⟨links, rfl⟩ := insertLink_eq_some hlink
        exact .of_same rfl
    | unlinked provider userId accepted db hrevoke =>
        obtain ⟨links, rfl⟩ := revokeLink_eq_some hrevoke
        exact .of_same rfl
    | _ => exact absurd rfl hl

/-- Roles are those of users. -/
def Staffed (db : Db) : Prop := ∀ v, db.user v = none → ∀ r, db.hasRole v r = false

theorem staffed_step (env : Env) (s : Sys) (l : Tx) (h : Staffed s.db) :
    Staffed (step env s l).db := by
  intro v hv r
  have hbefore : s.db.user v = none := by
    cases hu : s.db.user v with
    | none => rfl
    | some u =>
        obtain ⟨u', hu', -⟩ := (step_grows env s l).users v u hu
        rw [hu'] at hv
        cases hv
  rw [rolesOf_step env s l v hv r]
  exact h v hbefore r

theorem staffed_run (env : Env) (ls : List Tx) :
    Staffed (run (step env) (.start .empty) ls).db :=
  run_always (step env) (fun s => Staffed s.db) (staffed_step env) (fun _ _ _ => rfl) ls

/-- Every link of `db` is one of `db'`. -/
def KeepsLinks (db db' : Db) : Prop :=
  ∀ p x u, resolveLink db p x = some u → resolveLink db' p x = some u

theorem KeepsLinks.of_same {db db' : Db} (h : db'.links = db.links) : KeepsLinks db db' := by
  intro p x u hu
  unfold resolveLink
  rw [h]
  exact hu

theorem links_oauthUser {env : Env} {db db' : Db} {subject role uid id : String}
    (h : oauthUser env db subject role uid = .ok (id, db')) : db'.links = db.links := by
  rcases oauthUser_eq_ok h with ⟨u, -, -, rfl⟩ | hc
  · rfl
  · exact (createActive_row hc).2.1

theorem links_admin {op : AdminOp} {env : Env} {db db' : Db} {now : Time}
    (h : op.exec env db now = .ok db') : db'.links = db.links := by
  obtain ⟨-, -, logs, rfl⟩ := AdminOp.exec_eq_ok h
  cases op with
  | changeRole a t role grant => cases grant <;> rfl
  | _ => rfl

/-- Only a revocation takes a link away. -/
theorem keepsLinks_step (env : Env) (s : Sys) {l : Tx} (hl : revokes l = false) :
    KeepsLinks s.db (step env s l).db := by
  by_cases ha : aside l = true
  · exact .of_same (apart_step env s ha).2
  · have hc := step_committed env s l
    generalize step env s l = s' at hc ⊢
    cases hc with
    | stayed | ended => exact .of_same rfl
    | administered op now db hexec => exact .of_same (links_admin hexec)
    | tokenUser rid subject role uid aud userId db huser => exact .of_same (links_oauthUser huser)
    | naver rid identity uid userId db huser => exact (resolveLink_provisionUser huser).2
    | kakao rid identity uid userId db huser => exact (resolveLink_provisionUser huser).2
    | linked userId identity db hlink => exact (resolveLink_insertLink hlink).2
    | unlinked => cases hl
    | _ => exact absurd rfl ha

/-- A link stays up to the next revocation. -/
theorem keepsLinks_run (env : Env) (s : Sys) (ls : List Tx) (hls : ∀ l ∈ ls, revokes l = false) :
    KeepsLinks s.db (run (step env) s ls).db := by
  induction ls generalizing s with
  | nil => exact .of_same rfl
  | cons l ls ih =>
      have hhead := keepsLinks_step env s (hls l List.mem_cons_self)
      have htail := ih (step env s l) fun m hm => hls m (List.mem_cons_of_mem l hm)
      intro p x u hu
      exact htail p x u (hhead p x u hu)

/-! ## Logins over the requests -/

/-- After a login that returned, each one up to the next revocation returns the same user. -/
theorem settles_of_ok {env : Env} {s : Sys} {p : Portal} {identity : ExternalIdentity}
    {uid id : String} {db : Db} (hok : p.oauthUser env s.db identity uid = .ok (id, db)) :
    Settles env s p identity uid := by
  refine ⟨id, db, hok, ?_⟩
  intro rid ms hms t uid'
  rw [Portal.oauthUser_eq] at hok ⊢
  refine provisionUser_linked ?_ uid'
  simp only [t, run_cons, Portal.db_login, Portal.oauthUser_eq, hok]
  refine keepsLinks_run env _ ms hms _ _ _ ?_
  exact (resolveLink_provisionUser hok).1

/-- In every state of the SSO a login settles exactly if there is room for the identity. -/
theorem returns_iff (env : Env) (ls : List Tx) (p : Portal) (identity : ExternalIdentity)
    (uid : String) (hnew : (run (step env) (.start .empty) ls).db.user uid = none) :
    Settles env (run (step env) (.start .empty) ls) p identity uid ↔
      Room env p (run (step env) (.start .empty) ls).db identity := by
  have hroles := staffed_run env ls uid hnew "user"
  rw [← provisionUser_iff hnew hroles, ← Portal.oauthUser_eq]
  refine ⟨?_, ?_⟩
  · rintro ⟨id, db, hok, -⟩
    exact ⟨id, db, hok⟩
  · rintro ⟨id, db, hok⟩
    exact settles_of_ok hok

/-- The second life of the identity: its first address is taken, the other one is not. -/
theorem second_life : Settles plainEnv
    (run (step plainEnv) (.start .empty) (twoLives.take 2)) .naver bare "u2" :=
  (returns_iff plainEnv (twoLives.take 2) .naver bare "u2" (by decide +kernel)).mpr
    (Or.inr ⟨by decide, Or.inr (by decide +kernel)⟩)

end TemisLab.Sso.Provisioning
