/-
  Users of external logins (`api/oauth.py`, `api/naver_oauth.py`, `api/kakao_oauth.py`,
  `external_idp/external_accounts.py`): which local user an external identity signs in, and
  the user row, role and link a first login inserts. Each is part of one transaction.

  The Naver and Kakao functions differ in the domain of their synthetic addresses only and are
  `provisionUser` at their own domain; the texts they insert come from a provider and have to fit
  the columns (`storable`). `_google_oauth_user` calls a method the link repository does not have
  and so raises before its first read.
-/
import TemisLab.Sso.Accounts

namespace TemisLab.Sso

open TemisLab.Lib

/-- `ExternalIdentity`. -/
structure ExternalIdentity where
  provider : String
  subject : String
  email : Option String
  emailVerified : Bool
  deriving DecidableEq, Repr

/-- `dataError` is PostgreSQL's refusal of a text. -/
inductive ProvisionError where
  | integrity | dataError | attributeError
  deriving DecidableEq, Repr

/-- A column `String(width)` takes the text. PostgreSQL refuses a longer one, and one with the
    character NUL; that it cuts off spaces in excess is left out. -/
def storable (width : ℕ) (text : String) : Bool :=
  text.length ≤ width && !text.toList.contains '\x00'

/-- `external_identity_links` takes the identity. -/
def ExternalIdentity.storable (identity : ExternalIdentity) : Bool :=
  Sso.storable 32 identity.provider && Sso.storable 255 identity.subject

/-- `session.add(UserRole(…))`, flushed. -/
def insertRole (db : Db) (userId role : String) : Option Db :=
  (db.userRoles.insert ⟨userId, role⟩).map fun userRoles => { db with userRoles }

/-- `ExternalIdentityLinkRepository._insert`. -/
def insertLink (db : Db) (provider subject userId : String) : Option Db :=
  (db.links.insert ⟨provider, subject, userId⟩).map fun links => { db with links }

/-- `ExternalIdentityLinkRepository.resolve`. -/
def resolveLink (db : Db) (provider subject : String) : Option String :=
  (db.links.get (provider, subject)).map ExternalIdentityLink.userId

/-- A new active user with one role, as every provisioning function inserts it. -/
def createActive (env : Env) (db : Db) (uid email role : String) : Option (String × Db) :=
  match createUser env db uid email none with
  | none => none
  | some (user, db₁) =>
      let db₂ := setStatus db₁ user.id .active
      (insertRole db₂ user.id role).map fun db₃ => (user.id, db₃)

/-- `_oauth_user`. -/
def oauthUser (env : Env) (db : Db) (providerSubject defaultRole uid : String) :
    Except ProvisionError (String × Db) :=
  let email := providerSubject ++ "@oauth.lab.invalid"
  match userByEmail env db email with
  | some user => .ok (user.id, db)
  | none =>
      match createActive env db uid email defaultRole with
      | none => .error .integrity
      | some (id, db') => .ok (id, db')

/-- `value or default` on an optional text. -/
def orDefault (value : Option String) (default : String) : String :=
  match value with
  | some text => if text = "" then default else text
  | none => default

/-- `target_email`, the address of a new account. -/
def firstAddress (domain : String) (env : Env) (db : Db) (identity : ExternalIdentity) : String :=
  let first := orDefault identity.email (identity.subject ++ "@" ++ domain)
  if (userByEmail env db first).isSome then identity.subject ++ ".changed@" ++ domain else first

/-- `_naver_oauth_user` and `_kakao_oauth_user`, over the domain of their addresses. -/
def provisionUser (domain : String) (env : Env) (db : Db) (identity : ExternalIdentity)
    (uid : String) : Except ProvisionError (String × Db) :=
  match resolveLink db identity.provider identity.subject with
  | some userId => .ok (userId, db)
  | none =>
      let email := firstAddress domain env db identity
      if storable 320 (env.normalize email) then
        match createActive env db uid email "user" with
        | none => .error .integrity
        | some (id, db₁) =>
            if identity.storable then
              match insertLink db₁ identity.provider identity.subject id with
              | none => .error .integrity
              | some db₂ => .ok (id, db₂)
            else .error .dataError
      else .error .dataError

/-- `_naver_oauth_user`. -/
def naverOauthUser : Env → Db → ExternalIdentity → String → Except ProvisionError (String × Db) :=
  provisionUser "naver.lab.invalid"

/-- `_kakao_oauth_user`. -/
def kakaoOauthUser : Env → Db → ExternalIdentity → String → Except ProvisionError (String × Db) :=
  provisionUser "kakao.lab.invalid"

/-- `_google_oauth_user`: `links_repo.get` is an `AttributeError`. -/
def googleOauthUser (_env : Env) (_db : Db) (_identity : ExternalIdentity) (_uid : String) :
    Except ProvisionError (String × Db) := .error .attributeError

/-- `ConfirmedAccountLinkService.link` with a user and a confirmation. -/
def linkAccount (db : Db) (userId : String) (identity : ExternalIdentity) : Option Db :=
  insertLink db identity.provider identity.subject userId

/-- The link `kakao_revoke` and `naver_revoke` select for the caller. -/
def linkOf (db : Db) (provider userId : String) : Option ExternalIdentityLink :=
  (db.links.select fun l => l.provider = provider && l.userId = userId).head?

/-- The database side of `kakao_revoke` and `naver_revoke`: `none` is 404, and a provider that
    does not answer 200 (`accepted = false`) leaves the link. -/
def revokeLink (db : Db) (provider userId : String) (accepted : Bool) : Option Db :=
  match linkOf db provider userId with
  | none => none
  | some link =>
      if accepted then
        some { db with
          links := db.links.delete fun l => l.provider = link.provider && l.subject = link.subject }
      else none

/-! ## What provisioning writes -/

/-- The two rows `createActive` inserts, and the status it sets between them. -/
theorem createActive_writes {env : Env} {db db' : Db} {uid email role id : String}
    (h : createActive env db uid email role = some (id, db')) :
    ∃ user db₁ roles, createUser env db uid email none = some (user, db₁) ∧
      (setStatus db₁ user.id .active).userRoles.insert ⟨user.id, role⟩ = some roles ∧
      id = user.id ∧ db' = { setStatus db₁ user.id .active with userRoles := roles } := by
  unfold createActive at h
  split at h
  · cases h
  · next user db₁ hc =>
      obtain ⟨db₃, hr, he⟩ := Option.map_eq_some_iff.mp h
      cases he
      obtain ⟨roles, hroles, rfl⟩ := Option.map_eq_some_iff.mp hr
      exact ⟨user, db₁, roles, hc, hroles, rfl, rfl⟩

/-- A user a provisioning function inserts is new and active; no other user changes. -/
theorem createActive_eq_some {env : Env} {db db' : Db} {uid email role id : String}
    (h : createActive env db uid email role = some (id, db')) :
    id = uid ∧ db.user uid = none ∧ (∃ u, db'.user uid = some u ∧ u.authzVersion = 1) ∧
      (∀ v, v ≠ uid → db'.user v = db.user v) ∧
      (∀ v r, v ≠ uid → db'.hasRole v r = db.hasRole v r) ∧
      db'.refreshGrants = db.refreshGrants := by
  obtain ⟨user, db₁, roles, hc, hroles, rfl, rfl⟩ := createActive_writes h
  obtain ⟨huser, users, hi, hdb⟩ := createUser_eq_some hc
  have hu₁ := user_createUser hc
  have hid : user.id = uid := by rw [huser]
  have hset : ∀ v, Db.user { setStatus db₁ user.id .active with userRoles := roles } v =
      if v = uid then (db₁.user v).map (User.withStatus .active) else db₁.user v := by
    intro v
    rw [← hid]
    exact user_setStatus db₁ user.id v .active
  refine ⟨hid, ?_, ?_, ?_, ?_, ?_⟩
  · have := (Table.insert_eq_some hi).1
    rwa [key_user, hid] at this
  · refine ⟨user.withStatus .active, ?_, by rw [huser]; rfl⟩
    rw [hset, if_pos rfl, hu₁, if_pos rfl]
    rfl
  · intro v hv
    rw [hset, if_neg hv, hu₁, if_neg (Ne.symm hv)]
  · intro v r hv
    have hne : (user.id, role) ≠ (v, r) := fun he => hv (by rw [← hid, (Prod.mk.inj he).1])
    have hdb₁ : db₁.userRoles = db.userRoles := by rw [hdb]
    have hget := Table.get_insert hroles (v, r)
    rw [key_userRole, if_neg hne] at hget
    simp only [Db.hasRole, hget, setStatus, Db.setUser, hdb₁]
  · rw [hdb]
    rfl

/-- The row of such a user, and the tables that are left. -/
theorem createActive_row {env : Env} {db db' : Db} {uid email role id : String}
    (h : createActive env db uid email role = some (id, db')) :
    db'.user uid = some ⟨uid, env.normalize email, none, .active, 1, 0, none⟩ ∧
      db'.links = db.links ∧ db'.oneTimeTokens = db.oneTimeTokens ∧
      ∀ u ∈ db.users.rows, u.email ≠ env.normalize email := by
  obtain ⟨user, db₁, roles, hc, hroles, rfl, rfl⟩ := createActive_writes h
  have hfree := createUser_email hc
  have hu₁ := user_createUser hc
  obtain ⟨huser, users, hi, hdb⟩ := createUser_eq_some hc
  rw [huser] at hfree
  refine ⟨?_, by rw [hdb]; rfl, by rw [hdb]; rfl, hfree⟩
  have hset := user_setStatus db₁ user.id uid .active
  have hid : uid = user.id := by rw [huser]
  show (setStatus db₁ user.id .active).user uid = _
  rw [hset, if_pos hid, hu₁, if_pos rfl, huser]
  rfl

/-- `_oauth_user` finds its user by the address, or creates it. -/
theorem oauthUser_eq_ok {env : Env} {db db' : Db} {subject role uid id : String}
    (h : oauthUser env db subject role uid = .ok (id, db')) :
    (∃ u, userByEmail env db (subject ++ "@oauth.lab.invalid") = some u ∧ id = u.id ∧ db' = db) ∨
      createActive env db uid (subject ++ "@oauth.lab.invalid") role = some (id, db') := by
  unfold oauthUser at h
  dsimp only at h
  split at h
  · next u hu =>
      cases h
      exact Or.inl ⟨u, hu, rfl, rfl⟩
  · split at h
    · cases h
    · next id' db₁ hc =>
        cases h
        exact Or.inr hc

theorem createActive_of_free {env : Env} {db : Db} {uid email role : String}
    (huser : db.user uid = none) (hrole : db.hasRole uid role = false)
    (hfree : userByEmail env db email = none) :
    ∃ db', createActive env db uid email role = some (uid, db') := by
  have hany : (db.users.rows.any fun u => u.email = env.normalize email) = false := by
    rw [List.any_eq_false]
    intro u hu he
    exact List.find?_eq_none.mp hfree u hu he
  have hrow : db.userRoles.get (uid, role) = none := by
    unfold Db.hasRole at hrole
    rwa [Option.isSome_eq_false_iff, Option.isNone_iff_eq_none] at hrole
  obtain ⟨users, hi⟩ :=
    Table.exists_insert db.users ⟨uid, env.normalize email, none, .pending, 1, 0, none⟩ huser
  obtain ⟨roles, hr⟩ := Table.exists_insert db.userRoles ⟨uid, role⟩ hrow
  have hcreate : createUser env db uid email none =
      some (⟨uid, env.normalize email, none, .pending, 1, 0, none⟩, { db with users }) := by
    unfold createUser
    dsimp only
    rw [hany, if_neg Bool.false_ne_true, hi]
    rfl
  have hinsert : insertRole (setStatus { db with users } uid .active) uid role =
      some { setStatus { db with users } uid .active with userRoles := roles } := by
    unfold insertRole
    have hsame : (setStatus { db with users } uid .active).userRoles = db.userRoles := rfl
    rw [hsame, hr]
    rfl
  refine ⟨{ setStatus { db with users } uid .active with userRoles := roles }, ?_⟩
  unfold createActive
  rw [hcreate]
  dsimp only
  rw [hinsert]
  rfl

/-- A first login that goes through stores its texts, its account and its link. -/
theorem provisionUser_first {domain : String} {env : Env} {db db' : Db}
    {identity : ExternalIdentity} {uid id : String}
    (hfirst : resolveLink db identity.provider identity.subject = none) :
    provisionUser domain env db identity uid = .ok (id, db') ↔
      storable 320 (env.normalize (firstAddress domain env db identity)) = true ∧
        identity.storable = true ∧
        ∃ db₁, createActive env db uid (firstAddress domain env db identity) "user" =
            some (id, db₁) ∧
          insertLink db₁ identity.provider identity.subject id = some db' := by
  unfold provisionUser
  rw [hfirst]
  dsimp only
  by_cases haddress :
      storable 320 (env.normalize (firstAddress domain env db identity)) = true
  · rw [if_pos haddress]
    cases hc : createActive env db uid (firstAddress domain env db identity) "user" with
    | none => simp
    | some created =>
        obtain ⟨id', db₁⟩ := created
        by_cases hidentity : identity.storable = true
        · cases hl : insertLink db₁ identity.provider identity.subject id' with
          | none =>
              simp only [hidentity, if_true, haddress, hl]
              simp only [reduceCtorEq, true_and, false_iff, not_exists]
              rintro db₂ ⟨hsome, hl'⟩
              cases hsome
              rw [hl] at hl'
              cases hl'
          | some db₂ =>
              simp only [hidentity, if_true, haddress, hl, true_and, Except.ok.injEq,
                Prod.mk.injEq]
              constructor
              · rintro ⟨rfl, rfl⟩
                exact ⟨db₁, rfl, hl⟩
              · rintro ⟨db₃, hsome, hl'⟩
                cases hsome
                rw [hl] at hl'
                cases hl'
                exact ⟨rfl, rfl⟩
        · simp [hidentity]
  · simp [haddress]

/-- A login by Naver or Kakao finds its user by the link, or creates both. -/
theorem provisionUser_eq_ok {domain : String} {env : Env} {db db' : Db}
    {identity : ExternalIdentity} {uid id : String}
    (h : provisionUser domain env db identity uid = .ok (id, db')) :
    (resolveLink db identity.provider identity.subject = some id ∧ db' = db) ∨
      ∃ db₁, resolveLink db identity.provider identity.subject = none ∧
        createActive env db uid (firstAddress domain env db identity) "user" = some (id, db₁) ∧
        insertLink db₁ identity.provider identity.subject id = some db' := by
  cases hfirst : resolveLink db identity.provider identity.subject with
  | some userId =>
      unfold provisionUser at h
      rw [hfirst] at h
      cases h
      exact Or.inl ⟨rfl, rfl⟩
  | none =>
      obtain ⟨-, -, db₁, hc, hl⟩ := (provisionUser_first hfirst).mp h
      exact Or.inr ⟨db₁, rfl, hc, hl⟩

/-- A first login with a free address that fits. -/
theorem provisionUser_of_free {domain : String} {env : Env} {db : Db}
    {identity : ExternalIdentity} {uid email : String}
    (hfirst : resolveLink db identity.provider identity.subject = none)
    (haddress : firstAddress domain env db identity = email)
    (hemail : storable 320 (env.normalize email) = true) (hidentity : identity.storable = true)
    (huser : db.user uid = none) (hrole : db.hasRole uid "user" = false)
    (hfree : userByEmail env db email = none) :
    ∃ db', provisionUser domain env db identity uid = .ok (uid, db') ∧
      db'.user uid = some ⟨uid, env.normalize email, none, .active, 1, 0, none⟩ := by
  obtain ⟨db₁, hc⟩ := createActive_of_free huser hrole hfree
  obtain ⟨hrow, hlinks, -, -⟩ := createActive_row hc
  have hnone : db₁.links.get (identity.provider, identity.subject) = none := by
    have hnone := hfirst
    unfold resolveLink at hnone
    rwa [Option.map_eq_none_iff, ← hlinks] at hnone
  obtain ⟨links, hi⟩ :=
    Table.exists_insert db₁.links ⟨identity.provider, identity.subject, uid⟩ hnone
  refine ⟨{ db₁ with links }, (provisionUser_first hfirst).mpr ?_, hrow⟩
  rw [haddress]
  refine ⟨hemail, hidentity, db₁, hc, ?_⟩
  unfold insertLink
  rw [hi]
  rfl

theorem insertLink_eq_some {db db' : Db} {provider subject userId : String}
    (h : insertLink db provider subject userId = some db') :
    ∃ links, db' = { db with links } := by
  obtain ⟨links, -, rfl⟩ := Option.map_eq_some_iff.mp h
  exact ⟨links, rfl⟩

/-- A new link is found, and hides no other. -/
theorem resolveLink_insertLink {db db' : Db} {provider subject userId : String}
    (h : insertLink db provider subject userId = some db') :
    resolveLink db' provider subject = some userId ∧
      ∀ p x u, resolveLink db p x = some u → resolveLink db' p x = some u := by
  obtain ⟨links, hi, rfl⟩ := Option.map_eq_some_iff.mp h
  have hget := Table.get_insert hi
  have hnew := (Table.insert_eq_some hi).1
  refine ⟨?_, ?_⟩
  · show (links.get (provider, subject)).map ExternalIdentityLink.userId = some userId
    rw [hget, key_link, if_pos rfl]
    rfl
  · intro p x u hu
    have hne : Keyed.key (⟨provider, subject, userId⟩ : ExternalIdentityLink) ≠ (p, x) := by
      intro he
      rw [he] at hnew
      unfold resolveLink at hu
      rw [hnew] at hu
      cases hu
    show (links.get (p, x)).map ExternalIdentityLink.userId = some u
    rw [hget, if_neg hne]
    exact hu

/-- The user of a login by Naver or Kakao is the one its identity is linked to. -/
theorem resolveLink_provisionUser {domain : String} {env : Env} {db db' : Db}
    {identity : ExternalIdentity} {uid userId : String}
    (h : provisionUser domain env db identity uid = .ok (userId, db')) :
    resolveLink db' identity.provider identity.subject = some userId ∧
      ∀ p x u, resolveLink db p x = some u → resolveLink db' p x = some u := by
  rcases provisionUser_eq_ok h with ⟨hlink, rfl⟩ | ⟨db₁, -, hc, hl⟩
  · exact ⟨hlink, fun _ _ _ h => h⟩
  · obtain ⟨hfound, hkept⟩ := resolveLink_insertLink hl
    have hlinks := (createActive_row hc).2.1
    refine ⟨hfound, ?_⟩
    intro p x u hu
    refine hkept p x u ?_
    unfold resolveLink
    rw [hlinks]
    exact hu

theorem revokeLink_eq_some {db db' : Db} {provider userId : String} {accepted : Bool}
    (h : revokeLink db provider userId accepted = some db') :
    ∃ links, db' = { db with links } := by
  unfold revokeLink at h
  split at h
  · cases h
  · split at h
    · cases h
      exact ⟨_, rfl⟩
    · cases h

/-- A revocation leaves the links of other providers. -/
theorem resolveLink_revokeLink {db db' : Db} {provider userId : String} {accepted : Bool}
    (h : revokeLink db provider userId accepted = some db') {p : String} (hp : p ≠ provider)
    (x : String) : resolveLink db' p x = resolveLink db p x := by
  unfold revokeLink at h
  split at h
  · cases h
  · next link hlink =>
      split at h
      · cases h
        have hmem := List.mem_of_mem_head? hlink
        have hprovider := (Table.mem_select.mp hmem).2
        rw [Bool.and_eq_true, decide_eq_true_eq, decide_eq_true_eq] at hprovider
        unfold resolveLink
        rw [Table.get_delete]
        cases hget : db.links.get (p, x) with
        | none => rfl
        | some l =>
            have hkey := Table.key_of_get hget
            rw [key_link, Prod.mk.injEq] at hkey
            have hne : ¬ l.provider = link.provider := by
              rw [hkey.1, hprovider.1]
              exact hp
            simp [Option.filter, hne]
      · cases h

end TemisLab.Sso
