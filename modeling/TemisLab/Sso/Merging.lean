/-
  Which account an external login returns. Registrations, the four provisioning functions and
  confirmed links run one after the other; `created` records how each account came to be, and
  `linked` the links that were confirmed.

  * `NoMerge`: a login returns an account that a login of the same identity created or that a
    confirmed link tied to it, so two identities share an account by such a link only.
  * `address_merge`: it fails. `_oauth_user` looks its account up by the address made from the
    subject, and whoever holds that address is signed in: who registered it first, or a subject
    that differs in case.
  * `no_merge_iff`: it holds of a run exactly if, at each `_oauth_user`, the address of the
    subject was not taken by a registration or another identity (`Unclaimed`).
-/
import TemisLab.Lib.Trace
import TemisLab.Sso.ExternalUsers

namespace TemisLab.Sso.Merging

open TemisLab.Lib

/-- The provider of the authorization-code flow. -/
def labProvider : String := "lab-provider"

/-- The address `_oauth_user` looks up. -/
def oauthAddress (subject : String) : String := subject ++ "@oauth.lab.invalid"

inductive Origin where
  | register
  | login (provider subject : String)
  deriving DecidableEq, Repr

/-- An account with the address it was created under. -/
structure Account where
  userId : String
  email : String
  origin : Origin
  deriving DecidableEq, Repr

structure State where
  db : Db
  created : List Account
  linked : List (String × String × String)

def State.start : State := ⟨.empty, [], []⟩

inductive Call where
  | register (uid email passwordHash : String)
  | oauth (subject defaultRole uid : String)
  | google (identity : ExternalIdentity) (uid : String)
  | kakao (identity : ExternalIdentity) (uid : String)
  | naver (identity : ExternalIdentity) (uid : String)
  | link (userId : String) (identity : ExternalIdentity) (confirmed : Bool)
  deriving DecidableEq, Repr

/-- `ConfirmedAccountLinkService.link`; `none` is a `ValueError`, a taken link, or a user that
    the foreign key does not find. -/
def confirmLink (db : Db) (userId : String) (identity : ExternalIdentity) (confirmed : Bool) :
    Option Db :=
  if userId = "" ∨ confirmed = false ∨ db.user userId = none then none
  else linkAccount db userId identity

/-- An external login: its identity, and the account it returns. -/
def login (env : Env) (db : Db) :
    Call → Option ((String × String) × Except ProvisionError (String × Db))
  | .oauth subject role uid => some ((labProvider, subject), oauthUser env db subject role uid)
  | .google i uid => some ((i.provider, i.subject), googleOauthUser env db i uid)
  | .kakao i uid => some ((i.provider, i.subject), kakaoOauthUser env db i uid)
  | .naver i uid => some ((i.provider, i.subject), naverOauthUser env db i uid)
  | _ => none

/-- The account record of a login, if it created one. -/
def newAccount (before after : Db) (userId provider subject : String) : List Account :=
  match before.user userId, after.user userId with
  | none, some u => [⟨userId, u.email, .login provider subject⟩]
  | _, _ => []

def step (env : Env) (s : State) (call : Call) : State :=
  match call with
  | .register uid email passwordHash =>
      match registerUser env s.db uid email passwordHash with
      | .error _ => s
      | .ok (who, db) =>
          { s with db, created := ⟨who.userId, who.email, .register⟩ :: s.created }
  | .link userId identity confirmed =>
      match confirmLink s.db userId identity confirmed with
      | none => s
      | some db =>
          { s with db, linked := (identity.provider, identity.subject, userId) :: s.linked }
  | call =>
      match login env s.db call with
      | some ((provider, subject), .ok (userId, db)) =>
          { s with db, created := newAccount s.db db userId provider subject ++ s.created }
      | _ => s

/-! ## The claims of a run -/

/-- A login of the identity returns the account. -/
def Returns (env : Env) (s : State) (call : Call) (provider subject userId : String) : Prop :=
  ∃ db, login env s.db call = some ((provider, subject), .ok (userId, db))

/-- The account was created by a login of the identity, or tied to it by a confirmed link. -/
def Own (s : State) (provider subject userId : String) : Prop :=
  (∃ a ∈ s.created, a.userId = userId) ∧
    ∀ a ∈ s.created, a.userId = userId →
      a.origin = .login provider subject ∨ (provider, subject, userId) ∈ s.linked

/-- In the run of `calls` on an empty database. -/
structure NoMerge (env : Env) (calls : List Call) : Prop where
  own : ∀ pre call post, calls = pre ++ call :: post → ∀ provider subject userId,
    Returns env (run (step env) .start pre) call provider subject userId →
      Own (run (step env) .start (pre ++ [call])) provider subject userId
  distinct : ∀ pre call mid call' post, calls = pre ++ call :: (mid ++ call' :: post) →
    ∀ provider subject provider' subject' userId,
    Returns env (run (step env) .start pre) call provider subject userId →
    Returns env (run (step env) .start (pre ++ call :: mid)) call' provider' subject' userId →
    (provider, subject) = (provider', subject') ∨
      (provider, subject, userId) ∈ (run (step env) .start calls).linked ∨
      (provider', subject', userId) ∈ (run (step env) .start calls).linked

/-- The address of an `_oauth_user` is not that of an account which a registration or a login of
    another identity created, unless a confirmed link tied that account to the subject. -/
def Unclaimed (env : Env) (s : State) : Call → Prop
  | .oauth subject _ _ => ∀ a ∈ s.created, a.email = env.normalize (oauthAddress subject) →
      a.origin = .login labProvider subject ∨ (labProvider, subject, a.userId) ∈ s.linked
  | _ => True

instance (env : Env) (s : State) (call : Call) : Decidable (Unclaimed env s call) := by
  unfold Unclaimed
  split <;> infer_instance

/-- `learner@oauth.lab.invalid` is registered before the subject `learner` signs in. -/
def claimed : List Call :=
  [.register "attacker" "learner@oauth.lab.invalid" "pw", .oauth "learner" "user" "u"]

/-- The subject is signed in to the registered account. -/
theorem address_merge : ¬ ∀ env calls, NoMerge env calls := by
  intro h
  obtain ⟨-, hown⟩ := (h plainEnv claimed).own (claimed.take 1) (.oauth "learner" "user" "u") []
    rfl labProvider "learner" "attacker" ⟨_, rfl⟩
  have horigin := hown ⟨"attacker", "learner@oauth.lab.invalid", .register⟩
    (by decide +kernel) rfl
  rcases horigin with he | hl
  · cases he
  · revert hl
    decide +kernel

/-! ## What a login returns -/

/-- A login that created its account. -/
structure Creates (db db' : Db) (provider subject userId : String) : Prop where
  fresh : db.user userId = none
  row : ∃ u, db'.user userId = some u ∧ ∀ u' ∈ db.users.rows, u'.email ≠ u.email
  others : ∀ v, v ≠ userId → db'.user v = db.user v
  links : ∀ l ∈ db'.links.rows, l ∈ db.links.rows ∨ l = ⟨provider, subject, userId⟩

/-- The three ways to an account: its link, its address, or a new one. -/
inductive Found (env : Env) (db : Db) (call : Call) (provider subject : String) :
    String → Db → Prop where
  | linked (userId : String) (h : resolveLink db provider subject = some userId) :
      Found env db call provider subject userId db
  | byAddress (u : User) (role uid : String) (hcall : call = .oauth subject role uid)
      (hp : provider = labProvider) (h : userByEmail env db (oauthAddress subject) = some u) :
      Found env db call provider subject u.id db
  | created (userId : String) (db' : Db) (h : Creates db db' provider subject userId) :
      Found env db call provider subject userId db'

theorem creates_oauth {env : Env} {db db' : Db} {email role uid id : String}
    (h : createActive env db uid email role = some (id, db')) (provider subject : String) :
    Creates db db' provider subject id := by
  obtain ⟨hid, hfresh, -, hothers, -, -⟩ := createActive_eq_some h
  obtain ⟨hrow, hlinks, -, hfree⟩ := createActive_row h
  rw [hid]
  refine ⟨hfresh, ⟨_, hrow, hfree⟩, hothers, ?_⟩
  intro l hl
  rw [hlinks] at hl
  exact Or.inl hl

theorem found_oauth {env : Env} {db db' : Db} {subject role uid userId : String}
    (h : oauthUser env db subject role uid = .ok (userId, db')) :
    Found env db (.oauth subject role uid) labProvider subject userId db' := by
  rcases oauthUser_eq_ok h with ⟨u, hu, rfl, rfl⟩ | hc
  · exact .byAddress u role uid rfl rfl hu
  · exact .created userId db' (creates_oauth hc labProvider subject)

theorem found_provision {domain : String} {env : Env} {db db' : Db}
    {identity : ExternalIdentity} {uid userId : String}
    (h : provisionUser domain env db identity uid = .ok (userId, db')) (call : Call) :
    Found env db call identity.provider identity.subject userId db' := by
  rcases provisionUser_eq_ok h with ⟨hv, rfl⟩ | ⟨db₁, -, hc, hl⟩
  · exact .linked userId hv
  · obtain ⟨hfresh, hrow, hothers, hlinks⟩ := creates_oauth hc identity.provider identity.subject
    obtain ⟨links, hi, rfl⟩ := Option.map_eq_some_iff.mp hl
    refine .created userId _ ⟨hfresh, hrow, hothers, ?_⟩
    intro l hl'
    simp only [(Table.insert_eq_some hi).2] at hl'
    rcases List.mem_append.mp hl' with hl' | hl'
    · exact hlinks l hl'
    · exact Or.inr (List.mem_singleton.mp hl')

/-- The inversion of a login. Only `_oauth_user` finds an account by its address. -/
theorem found_login {env : Env} {db db' : Db} {call : Call} {provider subject userId : String}
    (h : login env db call = some ((provider, subject), .ok (userId, db'))) :
    Found env db call provider subject userId db' := by
  cases call with
  | register uid email passwordHash => cases h
  | oauth σ role uid =>
      simp only [login, Option.some.injEq, Prod.mk.injEq] at h
      obtain ⟨⟨rfl, rfl⟩, hr⟩ := h
      exact found_oauth hr
  | google i uid =>
      simp only [login, googleOauthUser, Option.some.injEq, Prod.mk.injEq] at h
      cases h.2
  | kakao i uid =>
      simp only [login, Option.some.injEq, Prod.mk.injEq] at h
      obtain ⟨⟨rfl, rfl⟩, hr⟩ := h
      exact found_provision hr _
  | naver i uid =>
      simp only [login, Option.some.injEq, Prod.mk.injEq] at h
      obtain ⟨⟨rfl, rfl⟩, hr⟩ := h
      exact found_provision hr _
  | link userId' i confirmed => cases h

/-! ## The invariant -/

/-- Each account has one record, under its address; each link is to an account that a login of
    its identity created, or was confirmed. -/
structure Traced (s : State) : Prop where
  record : ∀ v u, s.db.user v = some u → ∃ a ∈ s.created, a.userId = v
  account : ∀ a ∈ s.created, ∃ u, s.db.user a.userId = some u ∧ u.email = a.email
  single : (s.created.map Account.userId).Nodup
  emails : ∀ v w u u', s.db.user v = some u → s.db.user w = some u' → u.email = u'.email → v = w
  known : ∀ l ∈ s.db.links.rows, ∃ u, s.db.user l.userId = some u
  links : ∀ l ∈ s.db.links.rows, ∀ a ∈ s.created, a.userId = l.userId →
    a.origin = .login l.provider l.subject ∨ (l.provider, l.subject, l.userId) ∈ s.linked

theorem traced_start : Traced .start := by
  refine ⟨?_, ?_, List.nodup_nil, ?_, ?_, ?_⟩ <;>
    simp [State.start, Db.empty, Db.user, Table.empty, Table.get]

/-- A new account with its record. -/
theorem Traced.create {s : State} (h : Traced s) {db : Db} {v : String} {u : User}
    {origin : Origin} (hfresh : s.db.user v = none) (hrow : db.user v = some u)
    (hfree : ∀ u' ∈ s.db.users.rows, u'.email ≠ u.email)
    (hothers : ∀ w, w ≠ v → db.user w = s.db.user w)
    (hlinks : ∀ l ∈ db.links.rows, l ∈ s.db.links.rows ∨
      (l.userId = v ∧ origin = .login l.provider l.subject)) :
    Traced ⟨db, ⟨v, u.email, origin⟩ :: s.created, s.linked⟩ := by
  have hne : ∀ w u', s.db.user w = some u' → w ≠ v := by
    intro w u' hw he
    rw [he, hfresh] at hw
    cases hw
  have hold : ∀ a ∈ s.created, a.userId ≠ v := by
    intro a ha
    obtain ⟨u', hu', -⟩ := h.account a ha
    exact hne a.userId u' hu'
  have hemail : ∀ w u', w ≠ v → db.user w = some u' → u'.email ≠ u.email := by
    intro w u' hw hu'
    rw [hothers w hw] at hu'
    exact hfree u' (Table.mem_of_get hu').1
  refine ⟨?_, ?_, ?_, ?_, ?_, ?_⟩
  · intro w u' hu'
    by_cases hw : w = v
    · exact ⟨_, List.mem_cons_self, hw.symm⟩
    · rw [hothers w hw] at hu'
      obtain ⟨a, ha, haw⟩ := h.record w u' hu'
      exact ⟨a, List.mem_cons_of_mem _ ha, haw⟩
  · intro a ha
    rcases List.mem_cons.mp ha with rfl | ha
    · exact ⟨u, hrow, rfl⟩
    · obtain ⟨u', hu', he⟩ := h.account a ha
      exact ⟨u', by rw [hothers _ (hold a ha), hu'], he⟩
  · rw [List.map_cons, List.nodup_cons]
    refine ⟨?_, h.single⟩
    intro hmem
    obtain ⟨a, ha, he⟩ := List.mem_map.mp hmem
    exact hold a ha he
  · intro w w' u₁ u₂ h₁ h₂ he
    by_cases hw : w = v
    · by_cases hw' : w' = v
      · rw [hw, hw']
      · rw [hw, hrow] at h₁
        cases h₁
        exact absurd he.symm (hemail w' u₂ hw' h₂)
    · by_cases hw' : w' = v
      · rw [hw', hrow] at h₂
        cases h₂
        exact absurd he (hemail w u₁ hw h₁)
      · rw [hothers w hw] at h₁
        rw [hothers w' hw'] at h₂
        exact h.emails w w' u₁ u₂ h₁ h₂ he
  · intro l hl
    rcases hlinks l hl with hl | ⟨hl, -⟩
    · obtain ⟨u', hu'⟩ := h.known l hl
      exact ⟨u', by rw [hothers _ (hne _ u' hu'), hu']⟩
    · rw [hl]
      exact ⟨u, hrow⟩
  · intro l hl a ha he
    rcases hlinks l hl with hl | ⟨hl, ho⟩
    · obtain ⟨u', hu'⟩ := h.known l hl
      rcases List.mem_cons.mp ha with rfl | ha
      · exact absurd he.symm (hne _ u' hu')
      · exact h.links l hl a ha he
    · rcases List.mem_cons.mp ha with rfl | ha
      · exact Or.inl ho
      · exact absurd (he.trans hl) (hold a ha)

/-- A confirmed link is recorded. -/
theorem Traced.link {s : State} (h : Traced s) {userId : String} {identity : ExternalIdentity}
    {confirmed : Bool} {db : Db} (hl : confirmLink s.db userId identity confirmed = some db) :
    Traced ⟨db, s.created, (identity.provider, identity.subject, userId) :: s.linked⟩ := by
  unfold confirmLink at hl
  split at hl
  · cases hl
  · next hchecks =>
      obtain ⟨links, hi, rfl⟩ := Option.map_eq_some_iff.mp hl
      push Not at hchecks
      obtain ⟨u, hu⟩ := Option.ne_none_iff_exists'.mp hchecks.2.2
      have hmem : ∀ l ∈ links.rows, l ∈ s.db.links.rows ∨
          l = ⟨identity.provider, identity.subject, userId⟩ := by
        intro l hl'
        rw [(Table.insert_eq_some hi).2] at hl'
        rcases List.mem_append.mp hl' with hl' | hl'
        · exact Or.inl hl'
        · exact Or.inr (List.mem_singleton.mp hl')
      refine ⟨h.record, h.account, h.single, h.emails, ?_, ?_⟩
      · intro l hl'
        rcases hmem l hl' with hl' | rfl
        · exact h.known l hl'
        · exact ⟨u, hu⟩
      · intro l hl' a ha he
        rcases hmem l hl' with hl' | rfl
        · rcases h.links l hl' a ha he with ho | ho
          · exact Or.inl ho
          · exact Or.inr (List.mem_cons_of_mem _ ho)
        · exact Or.inr List.mem_cons_self

/-- A login that found its account changes nothing. -/
theorem newAccount_same {db : Db} {v : String} (provider subject : String) :
    newAccount db db v provider subject = [] := by
  unfold newAccount
  cases db.user v <;> rfl

theorem Traced.login {s : State} (h : Traced s) {env : Env} {call : Call}
    {provider subject userId : String} {db : Db}
    (hl : Merging.login env s.db call = some ((provider, subject), .ok (userId, db))) :
    Traced ⟨db, newAccount s.db db userId provider subject ++ s.created, s.linked⟩ := by
  cases found_login hl with
  | linked _ _ =>
      rw [newAccount_same]
      exact h
  | byAddress u _ _ _ _ _ =>
      rw [newAccount_same]
      exact h
  | created _ _ hc =>
      obtain ⟨u, hrow, hfree⟩ := hc.row
      have hnew : newAccount s.db db userId provider subject =
          [⟨userId, u.email, .login provider subject⟩] := by
        unfold newAccount
        rw [hc.fresh, hrow]
      rw [hnew]
      refine h.create hc.fresh hrow hfree hc.others ?_
      intro l hl'
      rcases hc.links l hl' with hl' | rfl
      · exact Or.inl hl'
      · exact Or.inr ⟨rfl, rfl⟩

theorem step_login {env : Env} {s : State} {call : Call} {provider subject userId : String}
    {db : Db} (h : login env s.db call = some ((provider, subject), .ok (userId, db))) :
    step env s call =
      ⟨db, newAccount s.db db userId provider subject ++ s.created, s.linked⟩ := by
  cases call with
  | register uid email passwordHash => cases h
  | link userId' i confirmed => cases h
  | _ => simp only [step, h]

theorem traced_register {env : Env} {s : State} (h : Traced s) (uid email hash : String) :
    Traced (step env s (.register uid email hash)) := by
  simp only [step]
  split
  · exact h
  · next who db hr =>
      unfold registerUser at hr
      split at hr
      · cases hr
      · next user db₁ hc =>
          cases hr
          have hfree := createUser_email hc
          have hrow := user_createUser hc
          obtain ⟨huser, users, hi, hdb⟩ := createUser_eq_some hc
          have hid : user.id = uid := by rw [huser]
          refine h.create (Table.insert_eq_some hi).1 ?_ hfree ?_ ?_
          · rw [hrow, if_pos hid.symm]
          · intro w hw
            have hne : uid ≠ w := fun he => hw (by rw [hid, he])
            rw [hrow, if_neg hne]
          · intro l hl
            rw [hdb] at hl
            exact Or.inl hl

theorem traced_step (env : Env) (s : State) (call : Call) (h : Traced s) :
    Traced (step env s call) := by
  have hlogin : ∀ r, login env s.db call = some r → Traced (step env s call) := by
    intro r hr
    obtain ⟨⟨provider, subject⟩, result⟩ := r
    cases result with
    | ok p =>
        obtain ⟨userId, db⟩ := p
        rw [step_login hr]
        exact h.login hr
    | error e =>
        have hsame : step env s call = s := by
          cases call with
          | register uid email passwordHash => cases hr
          | link userId' i confirmed => cases hr
          | _ => simp only [step, hr]
        rw [hsame]
        exact h
  cases call with
  | register uid email hash => exact traced_register h uid email hash
  | link userId identity confirmed =>
      simp only [step]
      split
      · exact h
      · next db hl => exact h.link hl
  | _ => exact hlogin _ rfl

theorem traced_run (env : Env) (calls : List Call) : Traced (run (step env) .start calls) :=
  run_always (step env) Traced (traced_step env) traced_start calls

/-! ## Who is returned -/

theorem own_login {env : Env} {s : State} (h : Traced s) {call : Call}
    {provider subject userId : String}
    (hr : Returns env s call provider subject userId) (hc : Unclaimed env s call) :
    Own (step env s call) provider subject userId := by
  obtain ⟨db, hl⟩ := hr
  rw [step_login hl]
  cases found_login hl with
  | linked _ hres =>
      rw [newAccount_same]
      obtain ⟨l, hget, rfl⟩ := Option.map_eq_some_iff.mp hres
      obtain ⟨hmem, hkey⟩ := Table.mem_of_get hget
      obtain ⟨rfl, rfl⟩ := Prod.mk.inj hkey
      obtain ⟨u, hu⟩ := h.known l hmem
      exact ⟨h.record _ u hu, fun a ha he => h.links l hmem a ha he⟩
  | byAddress u role uid hcall hp hfound =>
      rw [newAccount_same, hp]
      obtain ⟨hu, hemail⟩ := userByEmail_eq_some hfound
      refine ⟨h.record _ u hu, ?_⟩
      intro a ha he
      obtain ⟨u', hu', hae⟩ := h.account a ha
      rw [he, hu] at hu'
      cases hu'
      rw [hcall] at hc
      rcases hc a ha (hae.symm.trans hemail) with ho | ho
      · exact Or.inl ho
      · rw [he] at ho
        exact Or.inr ho
  | created _ _ hnew =>
      obtain ⟨u, hrow, -⟩ := hnew.row
      have hrecord : newAccount s.db db userId provider subject =
          [⟨userId, u.email, .login provider subject⟩] := by
        unfold newAccount
        rw [hnew.fresh, hrow]
      rw [hrecord]
      refine ⟨⟨_, List.mem_cons_self, rfl⟩, ?_⟩
      intro a ha he
      rcases List.mem_cons.mp ha with rfl | ha
      · exact Or.inl rfl
      · obtain ⟨u', hu', -⟩ := h.account a ha
        rw [he, hnew.fresh] at hu'
        cases hu'

/-- A login by a claimed address returns an account of somebody else. -/
theorem unclaimed_of_own {env : Env} {s : State} (h : Traced s) (call : Call)
    (hown : ∀ provider subject userId, Returns env s call provider subject userId →
      Own (step env s call) provider subject userId) : Unclaimed env s call := by
  cases call with
  | oauth subject role uid =>
      intro a ha hemail
      obtain ⟨u, hu, hue⟩ := h.account a ha
      have hsome : (userByEmail env s.db (oauthAddress subject)).isSome := by
        unfold userByEmail
        rw [List.find?_isSome]
        exact ⟨u, (Table.mem_of_get hu).1, by simp [hue, hemail]⟩
      obtain ⟨u', hfound⟩ := Option.isSome_iff_exists.mp hsome
      obtain ⟨hu', hemail'⟩ := userByEmail_eq_some hfound
      have hid : a.userId = u'.id :=
        h.emails _ _ u u' hu hu' (hue.trans (hemail.trans hemail'.symm))
      have hlogin : login env s.db (.oauth subject role uid) =
          some ((labProvider, subject), .ok (u'.id, s.db)) := by
        unfold oauthAddress at hfound
        simp only [login, oauthUser, hfound]
      obtain ⟨-, horigin⟩ := hown labProvider subject u'.id ⟨s.db, hlogin⟩
      rw [step_login hlogin, newAccount_same] at horigin
      rcases horigin a ha hid with ho | ho
      · exact Or.inl ho
      · rw [← hid] at ho
        exact Or.inr ho
  | _ => trivial

/-! ## Runs -/

/-- Records stay. -/
theorem grows_step (env : Env) (s : State) (call : Call) :
    s.created ⊆ (step env s call).created ∧ s.linked ⊆ (step env s call).linked := by
  have hrefl : s.created ⊆ s.created ∧ s.linked ⊆ s.linked :=
    ⟨List.Subset.refl _, List.Subset.refl _⟩
  cases call with
  | register uid email hash =>
      simp only [step]
      split
      · exact hrefl
      · exact ⟨List.subset_cons_self _ _, hrefl.2⟩
  | link userId identity confirmed =>
      simp only [step]
      split
      · exact hrefl
      · exact ⟨hrefl.1, List.subset_cons_self _ _⟩
  | _ =>
      simp only [step]
      split
      · exact ⟨List.subset_append_right _ _, hrefl.2⟩
      · exact hrefl

theorem grows_run (env : Env) (s : State) (calls : List Call) :
    s.created ⊆ (run (step env) s calls).created ∧ s.linked ⊆ (run (step env) s calls).linked :=
  run_rel (step env) (fun s t => s.created ⊆ t.created ∧ s.linked ⊆ t.linked)
    (fun _ => ⟨List.Subset.refl _, List.Subset.refl _⟩)
    (fun _ _ _ h h' => ⟨List.Subset.trans h.1 h'.1, List.Subset.trans h.2 h'.2⟩)
    (grows_step env) s calls

/-- No two identities share an account, in exactly the runs where no address was claimed. -/
theorem no_merge_iff (env : Env) (calls : List Call) :
    NoMerge env calls ↔ Along (step env) (Unclaimed env) .start calls := by
  have hsnoc : ∀ (pre : List Call) (call : Call), run (step env) .start (pre ++ [call]) =
      step env (run (step env) .start pre) call := fun pre call => run_append _ _ _ _
  refine ⟨?_, ?_⟩
  · intro h
    rw [along_iff]
    intro pre call post hcalls
    refine unclaimed_of_own (traced_run env pre) call ?_
    intro provider subject userId hr
    rw [← hsnoc]
    exact h.own pre call post hcalls provider subject userId hr
  · intro h
    have hown : ∀ pre call post, calls = pre ++ call :: post → ∀ provider subject userId,
        Returns env (run (step env) .start pre) call provider subject userId →
          Own (run (step env) .start (pre ++ [call])) provider subject userId := by
      intro pre call post hcalls provider subject userId hr
      rw [hcalls] at h
      rw [hsnoc]
      exact own_login (traced_run env pre) hr h.at
    refine ⟨hown, ?_⟩
    intro pre call mid call' post hcalls provider subject provider' subject' userId hr hr'
    obtain ⟨⟨a, ha, hid⟩, horigin⟩ := hown pre call _ hcalls provider subject userId hr
    have hcalls' : calls = (pre ++ call :: mid) ++ call' :: post := by
      rw [hcalls]
      simp
    obtain ⟨-, horigin'⟩ := hown _ call' post hcalls' provider' subject' userId hr'
    have hgrow := grows_run env (run (step env) .start (pre ++ [call])) (mid ++ [call'])
    rw [← run_append] at hgrow
    have hgrow' := grows_run env (run (step env) .start (pre ++ call :: mid ++ [call'])) post
    rw [← run_append] at hgrow'
    have heq : pre ++ [call] ++ (mid ++ [call']) = pre ++ call :: mid ++ [call'] := by simp
    have heq' : pre ++ call :: mid ++ [call'] ++ post = calls := by
      rw [hcalls]
      simp
    rw [heq] at hgrow
    rw [heq'] at hgrow'
    rcases horigin a ha hid with ho | ho
    · rcases horigin' a (hgrow.1 ha) hid with ho' | ho'
      · rw [ho, Origin.login.injEq] at ho'
        exact Or.inl (Prod.ext ho'.1 ho'.2)
      · exact Or.inr (Or.inr (hgrow'.2 ho'))
    · exact Or.inr (Or.inl (hgrow'.2 (hgrow.2 ho)))

/-- A subject that signs in twice, another one, and a confirmed link of the second. -/
theorem unclaimed_no_merge : NoMerge plainEnv
    [.oauth "learner" "user" "u1", .register "u2" "x@mail.test" "pw",
     .oauth "learner" "user" "u3", .naver ⟨"naver", "7", some "x@mail.test", false⟩ "u4",
     .link "u2" ⟨"kakao", "9", none, false⟩ true, .kakao ⟨"kakao", "9", none, false⟩ "u5"] :=
  (no_merge_iff plainEnv _).mpr (by decide +kernel)

end TemisLab.Sso.Merging
