/-
  Whose e-mail address an active account has, over the requests of the SSO. `proofs` is history:
  the verify tokens consumed, the approvals and bootstraps, and the accounts created from an
  identity with a verified address.

  * `Owned`: an active account whose address is not synthetic has a proof of it.
  * `unverified_naver`: it fails. Naver's adapter reports every address as unverified, and
    `_naver_oauth_user` puts it on an active account all the same.
  * `address_owned`: it holds of each run in which no first login by Naver brings a free address of
    its own (`Vouched`), and after no step that does.
-/
import TemisLab.External.Adapters
import TemisLab.Sso.Requests

namespace TemisLab.External.Ownership

open TemisLab.Lib TemisLab.Sso

/-- `email.endswith(".lab.invalid")`. -/
def synthetic (email : String) : Bool := ".lab.invalid".toList.isSuffixOf email.toList

/-- Why an account may have its address. -/
inductive Proof where
  /-- A verify token of the account was consumed when it had the address. -/
  | verified (userId email : String)
  /-- An admin approved the account, or it was bootstrapped. -/
  | approved (userId : String)
  /-- The account was created from an identity with this address and `email_verified`. -/
  | external (userId email : String)
  deriving DecidableEq, Repr

def Proof.userId : Proof → String
  | .verified userId _ => userId
  | .approved userId => userId
  | .external userId _ => userId

structure State where
  sys : Sys
  proofs : List Proof

def State.start : State := ⟨.start .empty, []⟩

/-- What a login that created its account proves. -/
def created (env : Env) (db : Db) (identity : ExternalIdentity) :
    Except ProvisionError (String × Db) → List Proof
  | .error _ => []
  | .ok (userId, _) =>
      if (resolveLink db identity.provider identity.subject).isNone && identity.emailVerified then
        identity.email.toList.map fun email => .external userId (env.normalize email)
      else []

/-- What a transaction proves. -/
def record (env : Env) (s : Sys) : Tx → List Proof
  | .consumeVerify _ raw now =>
      match consumeOneTime env s.db raw .verify now with
      | .error _ => []
      | .ok (userId, _) => (s.db.user userId).toList.map fun u => .verified userId u.email
  | .admin op now =>
      match op, op.exec env s.db now with
      | .bootstrapAdmin v, .ok _ => [.approved v]
      | .approveUser _ v _, .ok _ => [.approved v]
      | _, _ => []
  | .naverUser _ identity uid => created env s.db identity (naverOauthUser env s.db identity uid)
  | .kakaoUser _ identity uid => created env s.db identity (kakaoOauthUser env s.db identity uid)
  | _ => []

def step (env : Env) (s : State) (l : Tx) : State :=
  ⟨Sso.step env s.sys l, record env s.sys l ++ s.proofs⟩

/-- Every active account with an address of its own has a proof of it. -/
def Owned (s : State) : Prop :=
  ∀ v u, s.sys.db.user v = some u → u.status = .active → synthetic u.email = false →
    .verified v u.email ∈ s.proofs ∨ .approved v ∈ s.proofs ∨ .external v u.email ∈ s.proofs

/-- The identities of a login are those its adapter returns. -/
def Adapted (o : Outside) : Tx → Prop
  | .naverUser _ identity _ => ∃ http, naverIdentity o http = .ok identity
  | .kakaoUser _ identity _ => ∃ http, kakaoIdentity http = .ok identity
  | _ => True

/-- `str.lower` keeps the end of a synthetic address. -/
def LowersSuffix (env : Env) : Prop :=
  ∀ text, synthetic text = true → synthetic (env.lower text) = true

/-- No first login by Naver brings an address that is free, is stored and is not synthetic. -/
def Vouched (env : Env) (s : State) : Tx → Prop
  | .naverUser _ identity _ =>
      resolveLink s.sys.db identity.provider identity.subject = none → identity.storable = true →
        ∀ email, identity.email = some email → email ≠ "" → userByEmail env s.sys.db email = none →
          storable 320 (env.normalize email) = true → synthetic (env.normalize email) = true
  | _ => True

/-- A generated user id is new. -/
def FreshId (s : State) : Tx → Prop
  | .naverUser _ _ uid => s.sys.db.user uid = none ∧ s.sys.db.hasRole uid "user" = false
  | _ => True

/-! ## Synthetic addresses -/

theorem synthetic_append (text : String) {suffix : String} (h : synthetic suffix = true) :
    synthetic (text ++ suffix) = true := by
  unfold synthetic at h ⊢
  rw [List.isSuffixOf_iff_suffix] at h ⊢
  rw [String.toList_append]
  exact h.trans (List.suffix_append _ _)

theorem synthetic_strip {text : String} (h : synthetic text = true) :
    synthetic (PyText.strip text) = true := by
  unfold synthetic at h ⊢
  rw [List.isSuffixOf_iff_suffix] at h ⊢
  obtain ⟨front, hfront⟩ := h
  generalize hs : ".lab.invalid".toList = suffix at hfront ⊢
  have hhead : suffix.dropWhile PyText.isSpace = suffix := by
    rw [← hs]
    decide
  have hlast : suffix.reverse.dropWhile PyText.isSpace = suffix.reverse := by
    rw [← hs]
    decide
  have hne : suffix.reverse.isEmpty = false := by
    rw [← hs]
    decide
  have hleft : ∃ kept, text.toList.dropWhile PyText.isSpace = kept ++ suffix := by
    rw [← hfront, List.dropWhile_append, hhead]
    split
    · exact ⟨[], rfl⟩
    · exact ⟨_, rfl⟩
  obtain ⟨kept, hkept⟩ := hleft
  unfold PyText.strip
  rw [String.toList_ofList, hkept, List.reverse_append, List.dropWhile_append, hlast, hne,
    if_neg Bool.false_ne_true, List.reverse_append, List.reverse_reverse, List.reverse_reverse]
  exact List.suffix_append _ _

theorem synthetic_normalize {env : Env} (henv : LowersSuffix env) {text : String}
    (h : synthetic text = true) : synthetic (env.normalize text) = true :=
  henv _ (synthetic_strip h)

/-! ## What a transaction does to the users and the tokens -/

/-- The row of a user after a transaction that gives nobody a status: the address and, of an
    active one, the status were there before, or it is new and pending. The users of tokens were
    users of tokens before. -/
structure Tame (db db' : Db) : Prop where
  rows : ∀ v u', db'.user v = some u' →
    (∃ u, db.user v = some u ∧ u'.email = u.email ∧ (u'.status = .active → u.status = .active)) ∨
      (db.user v = none ∧ u'.status = .pending)
  tokens : ∀ t' ∈ db'.oneTimeTokens.rows, ∃ t ∈ db.oneTimeTokens.rows, t.userId = t'.userId

theorem Tame.of_users {db db' : Db} (hu : db'.users = db.users)
    (ht : ∀ t' ∈ db'.oneTimeTokens.rows, ∃ t ∈ db.oneTimeTokens.rows, t.userId = t'.userId) :
    Tame db db' := by
  refine ⟨?_, ht⟩
  intro v u' hu'
  rw [Db.user, hu] at hu'
  exact Or.inl ⟨u', hu', rfl, id⟩

theorem Tame.of_same {db db' : Db} (hu : db'.users = db.users)
    (ht : db'.oneTimeTokens = db.oneTimeTokens) : Tame db db' := by
  refine .of_users hu ?_
  intro t hmem
  rw [ht] at hmem
  exact ⟨t, hmem, rfl⟩

theorem Tame.refl (db : Db) : Tame db db := .of_same rfl rfl

theorem Tame.of_setUser (db : Db) (userId : String) (f : User → User) (hf : ∀ u, (f u).id = u.id)
    (hk : ∀ u : User, (f u).status = u.status ∧ (f u).email = u.email) :
    Tame db (db.setUser userId f hf) := by
  refine ⟨?_, fun t ht => ⟨t, ht, rfl⟩⟩
  intro v u' hu'
  rw [Db.user_setUser] at hu'
  split at hu'
  · obtain ⟨u, hu, rfl⟩ := Option.map_eq_some_iff.mp hu'
    refine Or.inl ⟨u, hu, (hk u).2, ?_⟩
    rw [(hk u).1]
    exact id
  · exact Or.inl ⟨u', hu', rfl, id⟩

theorem Tame.of_createUser {env : Env} {db db' : Db} {uid email : String} {hash : Option String}
    {user : User} (h : createUser env db uid email hash = some (user, db')) : Tame db db' := by
  have hrow := user_createUser h
  obtain ⟨huser, users, hi, rfl⟩ := createUser_eq_some h
  refine ⟨?_, fun t ht => ⟨t, ht, rfl⟩⟩
  intro v u' hu'
  rw [hrow] at hu'
  split at hu'
  · next hv =>
      cases hu'
      refine Or.inr ⟨?_, by rw [huser]⟩
      rw [← hv]
      have hnew := (Table.insert_eq_some hi).1
      rw [key_user, huser] at hnew
      exact hnew
  · exact Or.inl ⟨u', hu', rfl, id⟩

theorem Tame.of_consumeOneTime {env : Env} {db db' : Db} {raw userId : String}
    {purpose : Purpose} {now : Time}
    (h : consumeOneTime env db raw purpose now = .ok (userId, db')) : Tame db db' := by
  unfold consumeOneTime at h
  split at h
  · cases h
  · cases h
    refine .of_users rfl ?_
    intro t' ht'
    obtain ⟨t, ht, rfl⟩ := List.mem_map.mp ht'
    refine ⟨t, ht, ?_⟩
    split <;> rfl

theorem Tame.of_bundleRefresh {env : Env} {db db' : Db} {userId aud fresh r : String}
    {refreshToken : Option String} {now : Time}
    (h : bundleRefresh env db userId aud refreshToken fresh now = some (r, db')) : Tame db db' := by
  rcases bundleRefresh_eq_some h with ⟨-, rfl⟩ | ⟨-, hi⟩
  · exact .refl _
  · obtain ⟨grants, g, -, -, -, -, -, rfl⟩ := issueRefresh_eq_some hi
    exact .of_same rfl rfl

/-- A transaction other than issuing a token, an activation, an admin operation and a login that
    may create its account. -/
def Plain : Tx → Prop
  | .issueOneTime _ _ _ => False
  | .activate _ => False
  | .admin _ _ => False
  | .oauthUser _ _ _ _ _ => False
  | .naverUser _ _ _ => False
  | .kakaoUser _ _ _ => False
  | _ => True

theorem tame_step (env : Env) (s : Sys) {l : Tx} (hl : Plain l) :
    Tame s.db (Sso.step env s l).db := by
  have hc := step_committed env s l
  generalize Sso.step env s l = s' at hc ⊢
  cases hc with
  | stayed | ended | asked | google => exact .refl _
  | registered rid uid email passwordHash who db hregister =>
      obtain ⟨user, hcreate, -⟩ := registerUser_eq_ok hregister
      exact .of_createUser hcreate
  | authenticated rid email password now next hnext =>
      rcases authenticate_db env s.db email password now with h | ⟨uid, f, hf, hk, h⟩
      · rw [h]
        exact .refl _
      · rw [h]
        exact .of_setUser s.db uid f hf fun u => ⟨(hk u).1, (hk u).2.2⟩
  | verified rid raw now userId db hconsume => exact .of_consumeOneTime hconsume
  | redeemed rid raw now userId db hconsume => exact .of_consumeOneTime hconsume
  | stored rid passwordHash userId db hpending hstore =>
      rw [storePassword_eq_ok hstore]
      exact .of_setUser s.db _ _ _ fun _ => ⟨rfl, rfl⟩
  | rotated rid raw new now userId aud db rotation hpresented hsuccessor hversion hrotate =>
      obtain ⟨g, grants, g', -, -, -, -, -, -, -, -, -, -, rfl⟩ := rotateRefresh_eq_some hrotate
      exact .of_same rfl rfl
  | loggedOut raw now => exact .of_same rfl rfl
  | bundled rid fresh activeKid now userId aud refreshToken via bundle db hpending hissue =>
      obtain ⟨-, -, -, -, -, -, -, hr⟩ := issueBundle_eq_ok hissue
      exact .of_bundleRefresh hr
  | linked userId identity db hlink =>
      obtain ⟨links, rfl⟩ := insertLink_eq_some hlink
      exact .of_same rfl rfl
  | unlinked provider userId accepted db hrevoke =>
      obtain ⟨links, rfl⟩ := revokeLink_eq_some hrevoke
      exact .of_same rfl rfl
  | issued | activated | administered | tokenUser | naver | kakao => exact hl.elim

/-- A first login by an identity puts the identity's own address on its account. -/
structure Brings (env : Env) (db : Db) (identity : ExternalIdentity) (email : String) : Prop where
  first : resolveLink db identity.provider identity.subject = none
  given : identity.email = some email
  nonempty : email ≠ ""
  free : userByEmail env db email = none
  fits : identity.storable = true ∧ storable 320 (env.normalize email) = true

/-- The row of a user after a transaction, and what gave it its status and its address. -/
inductive Came (env : Env) (s : Sys) : Tx → String → User → Prop where
  | kept (l : Tx) (v : String) (u u' : User) (hu : s.db.user v = some u)
      (hemail : u'.email = u.email) (hactive : u'.status = .active → u.status = .active) :
      Came env s l v u'
  | activated (rid : ℕ) (v : String) (u u' : User) (hu : s.db.user v = some u)
      (hemail : u'.email = u.email) (hpending : s.pending rid = some (.activate v)) :
      Came env s (.activate rid) v u'
  | approved (op : AdminOp) (now : Time) (u u' : User) (db : Db)
      (hu : s.db.user op.target = some u) (hemail : u'.email = u.email)
      (hexec : op.exec env s.db now = .ok db)
      (happroves : ∀ status, op.statusAfter status = .active) :
      Came env s (.admin op now) op.target u'
  | registered (l : Tx) (v : String) (u' : User) (hnew : s.db.user v = none)
      (hpending : u'.status = .pending) : Came env s l v u'
  | addressed (l : Tx) (v : String) (u' : User) (address : String) (hnew : s.db.user v = none)
      (hemail : u'.email = env.normalize address) (hsynthetic : synthetic address = true) :
      Came env s l v u'
  | naver (rid : ℕ) (identity : ExternalIdentity) (uid v email : String) (u' : User) (db : Db)
      (hlogin : naverOauthUser env s.db identity uid = .ok (v, db)) (hnew : s.db.user v = none)
      (hbrings : Brings env s.db identity email) (hemail : u'.email = env.normalize email) :
      Came env s (.naverUser rid identity uid) v u'
  | kakao (rid : ℕ) (identity : ExternalIdentity) (uid v email : String) (u' : User) (db : Db)
      (hlogin : kakaoOauthUser env s.db identity uid = .ok (v, db)) (hnew : s.db.user v = none)
      (hbrings : Brings env s.db identity email) (hemail : u'.email = env.normalize email) :
      Came env s (.kakaoUser rid identity uid) v u'

theorem Came.same {env : Env} {s : Sys} (l : Tx) {v : String} {u' : User}
    (h : s.db.user v = some u') : Came env s l v u' := .kept l v u' u' h rfl id

/-- The account of `createActive` is new, and has the address it was given. -/
theorem rows_createActive {env : Env} {db db' : Db} {uid email role id v : String} {u' : User}
    (h : createActive env db uid email role = some (id, db')) (hu' : db'.user v = some u') :
    db.user v = some u' ∨ (v = id ∧ db.user v = none ∧ u'.email = env.normalize email) := by
  obtain ⟨hid, hnew, -, hothers, -, -⟩ := createActive_eq_some h
  have hrow := (createActive_row h).1
  by_cases hv : v = uid
  · rw [hv, hrow] at hu'
    cases hu'
    rw [hv, hid]
    exact Or.inr ⟨rfl, hnew, rfl⟩
  · rw [hothers v hv] at hu'
    exact Or.inl hu'

theorem rows_provisionUser {domain : String} {env : Env} {db db' : Db}
    {identity : ExternalIdentity} {uid id v : String} {u' : User}
    (hdomain : synthetic domain = true)
    (h : provisionUser domain env db identity uid = .ok (id, db')) (hu' : db'.user v = some u') :
    db.user v = some u' ∨ (v = id ∧ db.user v = none ∧
      ((∃ address, u'.email = env.normalize address ∧ synthetic address = true) ∨
        ∃ email, Brings env db identity email ∧ u'.email = env.normalize email)) := by
  rcases provisionUser_eq_ok h with ⟨-, rfl⟩ | ⟨db₁, hfirst, hc, hl⟩
  · exact Or.inl hu'
  · obtain ⟨haddress, hidentity, -⟩ := (provisionUser_first hfirst).mp h
    obtain ⟨links, rfl⟩ := insertLink_eq_some hl
    rcases rows_createActive hc hu' with hold | ⟨hv, hnew, hemail⟩
    · exact Or.inl hold
    · refine Or.inr ⟨hv, hnew, ?_⟩
      rw [← hemail] at haddress
      unfold firstAddress at hemail
      dsimp only at hemail
      split at hemail
      · exact Or.inl ⟨_, hemail, synthetic_append _ hdomain⟩
      · next hfree =>
          rw [Bool.not_eq_true, Option.isSome_eq_false_iff, Option.isNone_iff_eq_none] at hfree
          cases hgiven : identity.email with
          | none =>
              rw [hgiven] at hemail
              exact Or.inl ⟨_, hemail, synthetic_append _ hdomain⟩
          | some email =>
              rw [hgiven] at hemail hfree
              unfold orDefault at hemail hfree
              dsimp only at hemail hfree
              split at hemail
              · exact Or.inl ⟨_, hemail, synthetic_append _ hdomain⟩
              · next hne =>
                  rw [if_neg hne] at hfree
                  rw [hemail] at haddress
                  exact Or.inr ⟨email, ⟨hfirst, hgiven, hne, hfree, hidentity, haddress⟩, hemail⟩

theorem came_admin {env : Env} {s : Sys} {op : AdminOp} {now : Time} {db : Db} {v : String}
    {u' : User} (hexec : op.exec env s.db now = .ok db) (hu' : db.user v = some u') :
    Came env s (.admin op now) v u' := by
  have heffect := AdminOp.exec_effect hexec
  by_cases hv : v = op.target
  · obtain ⟨u, hu⟩ := heffect.found
    have hrow := heffect.target u hu
    rw [hv] at hu' ⊢
    have he : u' = op.userAfter u := Option.some.inj (hu'.symm.trans hrow)
    have hemail : u'.email = u.email := by rw [he]; rfl
    have hstatus : u'.status = op.statusAfter u.status := by rw [he]; rfl
    cases op with
    | bootstrapAdmin t => exact .approved _ now u u' db hu hemail hexec fun _ => rfl
    | approveUser a t fail => exact .approved _ now u u' db hu hemail hexec fun _ => rfl
    | suspendUser a t reason =>
        refine .kept _ _ u u' hu hemail ?_
        intro hactive
        rw [hstatus] at hactive
        cases hactive
    | changeRole a t role grant =>
        refine .kept _ _ u u' hu hemail ?_
        rw [hstatus]
        exact id
    | revokeSessions a t =>
        refine .kept _ _ u u' hu hemail ?_
        rw [hstatus]
        exact id
  · rw [heffect.others v hv] at hu'
    exact .same _ hu'

theorem came_step (env : Env) (s : Sys) (l : Tx) {v : String} {u' : User}
    (hu' : (Sso.step env s l).db.user v = some u') : Came env s l v u' := by
  by_cases hl : Plain l
  · rcases (tame_step env s hl).rows v u' hu' with ⟨u, hu, hemail, hactive⟩ | ⟨hnew, hp⟩
    · exact .kept l v u u' hu hemail hactive
    · exact .registered l v u' hnew hp
  · have hc := step_committed env s l
    generalize Sso.step env s l = s' at hc hu'
    cases hc with
    | stayed | ended => exact .same _ hu'
    | issued rid raw now userId purpose db hpending hissue =>
        obtain ⟨tokens, rfl⟩ := issueOneTime_eq_some hissue
        exact .same _ hu'
    | activated rid w hpending =>
        change (setStatus s.db w .active).user v = some u' at hu'
        rw [user_setStatus] at hu'
        split at hu'
        · next hv =>
            obtain ⟨u, hu, rfl⟩ := Option.map_eq_some_iff.mp hu'
            rw [← hv] at hpending
            exact .activated rid v u _ hu rfl hpending
        · exact .same _ hu'
    | administered op now db hexec => exact came_admin hexec hu'
    | tokenUser rid subject role uid aud userId db huser =>
        rcases oauthUser_eq_ok huser with ⟨u, -, -, rfl⟩ | hcreate
        · exact .same _ hu'
        · rcases rows_createActive hcreate hu' with hold | ⟨-, hnew, hemail⟩
          · exact .same _ hold
          · exact .addressed _ v u' _ hnew hemail (synthetic_append subject (by decide))
    | naver rid identity uid userId db huser =>
        rcases rows_provisionUser (by decide) huser hu' with hold | ⟨rfl, hnew, hb⟩
        · exact .same _ hold
        · rcases hb with ⟨address, hemail, hsynthetic⟩ | ⟨email, hb, hemail⟩
          · exact .addressed _ v u' address hnew hemail hsynthetic
          · exact .naver rid identity uid v email u' db huser hnew hb hemail
    | kakao rid identity uid userId db huser =>
        rcases rows_provisionUser (by decide) huser hu' with hold | ⟨rfl, hnew, hb⟩
        · exact .same _ hold
        · rcases hb with ⟨address, hemail, hsynthetic⟩ | ⟨email, hb, hemail⟩
          · exact .addressed _ v u' address hnew hemail hsynthetic
          · exact .kakao rid identity uid v email u' db huser hnew hb hemail
    | _ => exact absurd trivial hl

/-- Rows stay, with their addresses. -/
theorem address_stays (env : Env) (s : Sys) (l : Tx) {v : String} {u : User}
    (hu : s.db.user v = some u) :
    ∃ u', (Sso.step env s l).db.user v = some u' ∧ u'.email = u.email := by
  obtain ⟨u', hu', -⟩ := (step_grows env s l).users v u hu
  refine ⟨u', hu', ?_⟩
  have hsame : ∀ w, s.db.user v = some w → w = u := fun w hw => Option.some.inj (hw.symm.trans hu)
  cases came_step env s l hu' with
  | kept _ _ w _ hw hemail _ => rw [hemail, hsame w hw]
  | activated _ _ w _ hw hemail _ => rw [hemail, hsame w hw]
  | approved _ _ w _ _ hw hemail _ _ => rw [hemail, hsame w hw]
  | registered _ _ _ hnew _ => rw [hu] at hnew; cases hnew
  | addressed _ _ _ _ hnew _ _ => rw [hu] at hnew; cases hnew
  | naver _ _ _ _ _ _ _ _ hnew _ _ => rw [hu] at hnew; cases hnew
  | kakao _ _ _ _ _ _ _ _ hnew _ _ => rw [hu] at hnew; cases hnew

/-- The tokens of a transaction that issues none. -/
theorem tokens_createActive {env : Env} {db db' : Db} {uid email role id : String}
    (h : createActive env db uid email role = some (id, db')) :
    db'.oneTimeTokens = db.oneTimeTokens := (createActive_row h).2.2.1

theorem tokens_provisionUser {domain : String} {env : Env} {db db' : Db}
    {identity : ExternalIdentity} {uid id : String}
    (h : provisionUser domain env db identity uid = .ok (id, db')) :
    db'.oneTimeTokens = db.oneTimeTokens := by
  rcases provisionUser_eq_ok h with ⟨-, rfl⟩ | ⟨db₁, -, hc, hl⟩
  · rfl
  · obtain ⟨links, rfl⟩ := insertLink_eq_some hl
    have htokens := tokens_createActive hc
    exact htokens

theorem tokens_exec {op : AdminOp} {env : Env} {db db' : Db} {now : Time}
    (h : op.exec env db now = .ok db') : db'.oneTimeTokens = db.oneTimeTokens := by
  obtain ⟨-, -, logs, rfl⟩ := AdminOp.exec_eq_ok h
  cases op with
  | changeRole a t role grant => cases grant <;> rfl
  | _ => rfl

/-- A token's user had a token, or a request was about to issue it one. -/
theorem token_step (env : Env) (s : Sys) (l : Tx) {t' : OneTimeToken}
    (ht' : t' ∈ (Sso.step env s l).db.oneTimeTokens.rows) :
    (∃ t ∈ s.db.oneTimeTokens.rows, t.userId = t'.userId) ∨
      ∃ rid purpose, s.pending rid = some (.oneTime t'.userId purpose) := by
  by_cases hl : Plain l
  · exact Or.inl ((tame_step env s hl).tokens t' ht')
  · have hold : (Sso.step env s l).db.oneTimeTokens = s.db.oneTimeTokens →
        ∃ t ∈ s.db.oneTimeTokens.rows, t.userId = t'.userId := by
      intro he
      rw [he] at ht'
      exact ⟨t', ht', rfl⟩
    have hc := step_committed env s l
    generalize Sso.step env s l = s' at hc ht' hold
    cases hc with
    | stayed | ended | activated => exact Or.inl (hold rfl)
    | issued rid raw now userId purpose db hpending hissue =>
        obtain ⟨tokens, hi, rfl⟩ := Option.map_eq_some_iff.mp hissue
        have hrows := (Table.insert_eq_some hi).2
        have hmem : t' ∈ tokens.rows := ht'
        rw [hrows, List.mem_append, List.mem_singleton] at hmem
        rcases hmem with hmem | rfl
        · exact Or.inl ⟨t', hmem, rfl⟩
        · exact Or.inr ⟨rid, purpose, hpending⟩
    | administered op now db hexec => exact Or.inl (hold (tokens_exec hexec))
    | tokenUser rid subject role uid aud userId db huser =>
        refine Or.inl (hold ?_)
        rcases oauthUser_eq_ok huser with ⟨u, -, -, rfl⟩ | hcreate
        · rfl
        · exact tokens_createActive hcreate
    | naver rid identity uid userId db huser => exact Or.inl (hold (tokens_provisionUser huser))
    | kakao rid identity uid userId db huser => exact Or.inl (hold (tokens_provisionUser huser))
    | _ => exact absurd trivial hl

/-! ## What a transaction leaves to run -/

/-- A continuation that a transaction leaves, as far as it names a user. -/
inductive Leaves (env : Env) (s : Sys) : Tx → Cont → Prop where
  | register (rid : ℕ) (uid email passwordHash : String) (who : AuthenticatedUser) (db : Db)
      (hregister : registerUser env s.db uid email passwordHash = .ok (who, db)) :
      Leaves env s (.register rid uid email passwordHash) (.oneTime who.userId .verify)
  | reset (rid : ℕ) (email : String) (u : User) (hu : userByEmail env s.db email = some u) :
      Leaves env s (.requestReset rid email) (.oneTime u.id .reset)
  | activate (rid : ℕ) (raw userId : String) (now : Time) (db : Db)
      (hconsume : consumeOneTime env s.db raw .verify now = .ok (userId, db)) :
      Leaves env s (.consumeVerify rid raw now) (.activate userId)
  | bundle (l : Tx) (userId aud : String) (refresh : Option String) (via : Option Rotation) :
      Leaves env s l (.bundle userId aud refresh via)
  | storePassword (l : Tx) (userId : String) : Leaves env s l (.storePassword userId)

theorem leaves_commit {env : Env} {s : Sys} {l : Tx} {rid rid' : ℕ} {db : Db}
    {next : Option Cont} {c : Cont} (h : (s.commit rid db next).pending rid' = some c)
    (hnext : ∀ c, next = some c → Leaves env s l c) :
    s.pending rid' = some c ∨ Leaves env s l c := by
  rcases pending_commit h with ⟨-, h⟩ | ⟨-, h⟩
  · exact Or.inl h
  · exact Or.inr (hnext c h)

/-- A block that ends its request leaves nothing new. -/
theorem leaves_nothing {env : Env} {s : Sys} {l : Tx} {rid rid' : ℕ} {db : Db} {c : Cont}
    (h : (s.commit rid db none).pending rid' = some c) :
    s.pending rid' = some c ∨ Leaves env s l c := Or.inl (slot_clear h).2

theorem leaves_step (env : Env) (s : Sys) (l : Tx) {rid' : ℕ} {c : Cont}
    (h : (Sso.step env s l).pending rid' = some c) :
    s.pending rid' = some c ∨ Leaves env s l c := by
  have hc := step_committed env s l
  generalize Sso.step env s l = s' at hc h
  cases hc with
  | stayed | loggedOut | administered | linked | unlinked => exact Or.inl h
  | ended | issued | activated | stored => exact leaves_nothing h
  | registered rid uid email passwordHash who db hregister =>
      refine leaves_commit h ?_
      rintro c ⟨⟩
      exact .register rid uid email passwordHash who db hregister
  | authenticated rid email password now next hnext =>
      refine leaves_commit h ?_
      intro c hn
      obtain ⟨userId, rfl⟩ := hnext c hn
      exact .bundle _ _ _ _ _
  | verified rid raw now userId db hconsume =>
      refine leaves_commit h ?_
      rintro c ⟨⟩
      exact .activate rid raw userId now db hconsume
  | asked rid email user huser =>
      refine leaves_commit h ?_
      rintro c ⟨⟩
      exact .reset rid email user huser
  | redeemed rid raw now userId db hconsume =>
      refine leaves_commit h ?_
      rintro c ⟨⟩
      exact .storePassword _ _
  | rotated rid raw new now userId aud db rotation hpresented hsuccessor hversion hrotate =>
      have hcommit : (s.commit rid db _).pending rid' = some c := h
      refine leaves_commit hcommit ?_
      rintro c ⟨⟩
      exact .bundle _ _ _ _ _
  | bundled rid fresh activeKid now userId aud refreshToken via bundle db hpending hissue =>
      have hcommit : (s.commit rid db none).pending rid' = some c := h
      exact leaves_nothing hcommit
  | tokenUser | google | naver | kakao =>
      refine leaves_commit h ?_
      rintro c ⟨⟩
      exact .bundle _ _ _ _ _

/-! ## Proofs -/

/-- The users of tokens, of requests that issue one and of proofs exist; a request that has
    consumed a verify token has a proof of its user's address. -/
structure Traced (s : State) : Prop where
  tokens : ∀ t ∈ s.sys.db.oneTimeTokens.rows, ∃ u, s.sys.db.user t.userId = some u
  issuing : ∀ rid v purpose, s.sys.pending rid = some (.oneTime v purpose) →
    ∃ u, s.sys.db.user v = some u
  activating : ∀ rid v, s.sys.pending rid = some (.activate v) →
    ∃ u, s.sys.db.user v = some u ∧ .verified v u.email ∈ s.proofs
  named : ∀ p ∈ s.proofs, ∃ u, s.sys.db.user p.userId = some u

theorem traced_start : Traced .start := by
  refine ⟨?_, ?_, ?_, ?_⟩
  · intro t ht
    cases ht
  · intro rid v purpose h
    cases h
  · intro rid v h
    cases h
  · intro p hp
    cases hp

/-- The user that a login returns exists. -/
theorem user_provisionUser {domain : String} {env : Env} {db db' : Db}
    {identity : ExternalIdentity} {uid id : String}
    (h : provisionUser domain env db identity uid = .ok (id, db')) :
    resolveLink db identity.provider identity.subject = some id ∨
      ∃ u, db'.user id = some u := by
  rcases provisionUser_eq_ok h with ⟨hlink, -⟩ | ⟨db₁, -, hc, hl⟩
  · exact Or.inl hlink
  · obtain ⟨links, rfl⟩ := insertLink_eq_some hl
    obtain ⟨hid, -, ⟨u, hu, -⟩, -, -, -⟩ := createActive_eq_some hc
    rw [hid]
    exact Or.inr ⟨u, hu⟩

/-- What a login proves is about the account it created. -/
theorem mem_created {domain : String} {env : Env} {db : Db} {identity : ExternalIdentity}
    {uid : String} {p : Proof}
    (hp : p ∈ created env db identity (provisionUser domain env db identity uid)) :
    ∃ db' u, provisionUser domain env db identity uid = .ok (p.userId, db') ∧
      db'.user p.userId = some u := by
  unfold created at hp
  split at hp
  · cases hp
  · next userId db' hlogin =>
      split at hp
      · next hfirst =>
          rw [Bool.and_eq_true, Option.isNone_iff_eq_none] at hfirst
          obtain ⟨email, -, rfl⟩ := List.mem_map.mp hp
          rcases user_provisionUser hlogin with hlink | ⟨u, hu⟩
          · rw [hfirst.1] at hlink
            cases hlink
          · exact ⟨db', u, hlogin, hu⟩
      · cases hp

/-- Every proof of a transaction is about a user that exists after it. -/
theorem named_record (env : Env) {s : Sys} (l : Tx) {p : Proof} (hp : p ∈ record env s l) :
    ∃ u, (Sso.step env s l).db.user p.userId = some u := by
  have hstays : ∀ {v u}, s.db.user v = some u → ∃ u', (Sso.step env s l).db.user v = some u' := by
    intro v u hu
    obtain ⟨u', hu', -⟩ := address_stays env s l hu
    exact ⟨u', hu'⟩
  cases l with
  | consumeVerify rid raw now =>
      simp only [record] at hp
      split at hp
      · cases hp
      · next userId db hc =>
          obtain ⟨u, hu, rfl⟩ := List.mem_map.mp hp
          exact hstays (Option.mem_toList.mp hu)
  | admin op now =>
      simp only [record] at hp
      split at hp
      · next v db hexec =>
          obtain ⟨u, hu⟩ := (AdminOp.exec_effect hexec).found
          rw [List.mem_singleton.mp hp]
          exact hstays hu
      · next a v fail db hexec =>
          obtain ⟨u, hu⟩ := (AdminOp.exec_effect hexec).found
          rw [List.mem_singleton.mp hp]
          exact hstays hu
      · cases hp
  | naverUser rid identity uid =>
      obtain ⟨db', u, hlogin, hu⟩ := mem_created hp
      refine ⟨u, ?_⟩
      simp only [Sso.step, naverOauthUser, hlogin, Sys.signIn]
      exact hu
  | kakaoUser rid identity uid =>
      obtain ⟨db', u, hlogin, hu⟩ := mem_created hp
      refine ⟨u, ?_⟩
      simp only [Sso.step, kakaoOauthUser, hlogin, Sys.signIn]
      exact hu
  | _ => cases hp

theorem traced_step (env : Env) (s : State) (l : Tx) (h : Traced s) : Traced (step env s l) := by
  have hstays : ∀ {v u}, s.sys.db.user v = some u →
      ∃ u', (Sso.step env s.sys l).db.user v = some u' ∧ u'.email = u.email :=
    fun hu => address_stays env s.sys l hu
  refine ⟨?_, ?_, ?_, ?_⟩
  · intro t' ht'
    rcases token_step env s.sys l ht' with ⟨t, ht, he⟩ | ⟨rid, purpose, hp⟩
    · obtain ⟨u, hu⟩ := h.tokens t ht
      obtain ⟨u', hu', -⟩ := hstays hu
      rw [he] at hu'
      exact ⟨u', hu'⟩
    · obtain ⟨u, hu⟩ := h.issuing rid _ purpose hp
      obtain ⟨u', hu', -⟩ := hstays hu
      exact ⟨u', hu'⟩
  · intro rid v purpose hp
    rcases leaves_step env s.sys l hp with hp | hleaves
    · obtain ⟨u, hu⟩ := h.issuing rid v purpose hp
      obtain ⟨u', hu', -⟩ := hstays hu
      exact ⟨u', hu'⟩
    · cases hleaves with
      | register rid uid email passwordHash who db hregister =>
          obtain ⟨user, hc, hwho⟩ := registerUser_eq_ok hregister
          refine ⟨user, ?_⟩
          simp only [step, Sso.step, hregister, hwho]
          show db.user uid = some user
          rw [user_createUser hc, if_pos rfl]
      | reset rid email u hu =>
          have hrow : s.sys.db.user u.id = some u :=
            Table.get_of_mem (List.mem_of_find?_eq_some hu)
          obtain ⟨u', hu', -⟩ := hstays hrow
          exact ⟨u', hu'⟩
  · intro rid v hp
    rcases leaves_step env s.sys l hp with hp | hleaves
    · obtain ⟨u, hu, hproof⟩ := h.activating rid v hp
      obtain ⟨u', hu', hemail⟩ := hstays hu
      refine ⟨u', hu', ?_⟩
      rw [hemail]
      exact List.mem_append_right _ hproof
    · cases hleaves with
      | activate rid raw _ now db hconsume =>
          obtain ⟨token, htoken, hid, -⟩ := consumeOneTime_eq_ok hconsume
          have hrow := (Table.mem_of_get (liveOneTime_eq_some htoken).1).1
          obtain ⟨u, hu⟩ := h.tokens token hrow
          rw [← hid] at hu
          obtain ⟨u', hu', hemail⟩ := hstays hu
          refine ⟨u', hu', List.mem_append_left _ ?_⟩
          simp only [record, hconsume, hu, hemail]
          exact List.mem_singleton_self _
  · intro p hp
    rcases List.mem_append.mp hp with hp | hp
    · exact named_record env l hp
    · obtain ⟨u, hu⟩ := h.named p hp
      obtain ⟨u', hu', -⟩ := hstays hu
      exact ⟨u', hu'⟩

theorem traced_run (env : Env) (ls : List Tx) : Traced (run (step env) .start ls) :=
  run_always (step env) Traced (traced_step env) traced_start ls

/-- An account that Kakao's identity created has a proof of the identity's address. -/
theorem external_proof {domain : String} {env : Env} {db db' : Db} {identity : ExternalIdentity}
    {uid id email : String} (hlogin : provisionUser domain env db identity uid = .ok (id, db'))
    (hbrings : Brings env db identity email) (hverified : identity.emailVerified = true) :
    .external id (env.normalize email) ∈
      created env db identity (provisionUser domain env db identity uid) := by
  rw [hlogin]
  unfold created
  dsimp only
  rw [hbrings.first, hbrings.given, hverified]
  exact List.mem_singleton_self _

theorem owned_step {env : Env} (henv : LowersSuffix env) (o : Outside) {s : State} {l : Tx}
    (ht : Traced s) (h : Owned s) (hadapted : Adapted o l) (hvouched : Vouched env s l) :
    Owned (step env s l) := by
  intro v u' hu' hactive hown
  have hmono : ∀ u, s.sys.db.user v = some u → u'.email = u.email → u.status = .active →
      .verified v u'.email ∈ (step env s l).proofs ∨ .approved v ∈ (step env s l).proofs ∨
        .external v u'.email ∈ (step env s l).proofs := by
    intro u hu hemail hstatus
    rw [hemail] at hown ⊢
    rcases h v u hu hstatus hown with hp | hp | hp
    · exact Or.inl (List.mem_append_right _ hp)
    · exact Or.inr (Or.inl (List.mem_append_right _ hp))
    · exact Or.inr (Or.inr (List.mem_append_right _ hp))
  cases came_step env s.sys l hu' with
  | kept _ _ u _ hu hemail hstatus => exact hmono u hu hemail (hstatus hactive)
  | activated rid _ u _ hu hemail hpending =>
      obtain ⟨w, hw, hproof⟩ := ht.activating rid v hpending
      have hwu : w = u := Option.some.inj (hw.symm.trans hu)
      rw [hwu, ← hemail] at hproof
      exact Or.inl (List.mem_append_right _ hproof)
  | approved op now u _ db hu hemail hexec happroves =>
      refine Or.inr (Or.inl (List.mem_append_left _ ?_))
      cases op with
      | bootstrapAdmin t =>
          simp only [record, hexec]
          exact List.mem_singleton_self _
      | approveUser a t fail =>
          simp only [record, hexec]
          exact List.mem_singleton_self _
      | suspendUser a t reason => cases happroves .pending
      | changeRole a t role grant => cases happroves .pending
      | revokeSessions a t => cases happroves .pending
  | registered _ _ _ hnew hpending =>
      rw [hactive] at hpending
      cases hpending
  | addressed _ _ _ address hnew hemail hsynthetic =>
      rw [hemail, synthetic_normalize henv hsynthetic] at hown
      cases hown
  | naver rid identity uid _ email _ db hlogin hnew hbrings hemail =>
      have hsynthetic := hvouched hbrings.first hbrings.fits.1 email hbrings.given
        hbrings.nonempty hbrings.free hbrings.fits.2
      rw [hemail, hsynthetic] at hown
      cases hown
  | kakao rid identity uid _ email _ db hlogin hnew hbrings hemail =>
      obtain ⟨http, hidentity⟩ := hadapted
      have hverified := (kakaoIdentity_eq_ok hidentity).2
      rw [hbrings.given] at hverified
      refine Or.inr (Or.inr (List.mem_append_left _ ?_))
      rw [hemail]
      exact external_proof hlogin hbrings hverified

/-! ## A login that is not vouched for -/

/-- A login that brings an address of its own puts it on an active account. -/
theorem provisionUser_of_brings {domain : String} {env : Env} {db : Db}
    {identity : ExternalIdentity} {uid email : String} (hbrings : Brings env db identity email)
    (huser : db.user uid = none) (hrole : db.hasRole uid "user" = false) :
    ∃ db', provisionUser domain env db identity uid = .ok (uid, db') ∧
      db'.user uid = some ⟨uid, env.normalize email, none, .active, 1, 0, none⟩ := by
  have hgiven : orDefault identity.email (identity.subject ++ "@" ++ domain) = email := by
    rw [hbrings.given]
    exact if_neg hbrings.nonempty
  have haddress : firstAddress domain env db identity = email := by
    unfold firstAddress
    dsimp only
    rw [hgiven, hbrings.free, Option.isSome_none, if_neg Bool.false_ne_true]
  exact provisionUser_of_free hbrings.first haddress hbrings.fits.2 hbrings.fits.1 huser hrole
    hbrings.free

/-- After a step that is not vouched for, an account has an address without a proof. -/
theorem not_owned_step {env : Env} (o : Outside) {s : State} {l : Tx} (ht : Traced s)
    (hadapted : Adapted o l) (hid : FreshId s l) (hvouched : ¬ Vouched env s l) :
    ¬ Owned (step env s l) := by
  cases l with
  | naverUser rid identity uid =>
      simp only [Vouched, not_forall] at hvouched
      obtain ⟨hfirst, hidentity, email, hgiven, hne, hfree, hemail, hown⟩ := hvouched
      rw [Bool.not_eq_true] at hown
      obtain ⟨db', hlogin, hrow⟩ : ∃ db',
          naverOauthUser env s.sys.db identity uid = .ok (uid, db') ∧
          db'.user uid = some ⟨uid, env.normalize email, none, .active, 1, 0, none⟩ :=
        provisionUser_of_brings ⟨hfirst, hgiven, hne, hfree, hidentity, hemail⟩ hid.1 hid.2
      obtain ⟨http, hadapts⟩ := hadapted
      have hverified := (naverIdentity_eq_ok hadapts).2.2
      have hrecord : record env s.sys (.naverUser rid identity uid) = [] := by
        simp only [record, hlogin, created, hverified, Bool.and_false]
        rfl
      have hnone : ∀ p ∈ (step env s (.naverUser rid identity uid)).proofs, p.userId ≠ uid := by
        intro p hp he
        have hp' : p ∈ record env s.sys (.naverUser rid identity uid) ++ s.proofs := hp
        rw [hrecord, List.nil_append] at hp'
        obtain ⟨u, hu⟩ := ht.named p hp'
        rw [he, hid.1] at hu
        cases hu
      intro howned
      have hrow' : (step env s (.naverUser rid identity uid)).sys.db.user uid =
          some ⟨uid, env.normalize email, none, .active, 1, 0, none⟩ := by
        simp only [step, Sso.step, hlogin, Sys.signIn]
        exact hrow
      rcases howned uid _ hrow' rfl hown with hp | hp | hp
      · exact hnone _ hp rfl
      · exact hnone _ hp rfl
      · exact hnone _ hp rfl
  | _ => exact absurd trivial hvouched

/-- Addresses are owned in every run of vouched steps, and after no step that is not. -/
theorem address_owned (env : Env) (o : Outside) (henv : LowersSuffix env) (ls : List Tx)
    (hadapted : ∀ l ∈ ls, Adapted o l) :
    (Along (step env) (Vouched env) .start ls → Owned (run (step env) .start ls)) ∧
      ∀ l, Adapted o l → FreshId (run (step env) .start ls) l →
        ¬ Vouched env (run (step env) .start ls) l →
          ¬ Owned (run (step env) .start (ls ++ [l])) := by
  refine ⟨?_, ?_⟩
  · intro hvouched
    have hstep : ∀ s l, Traced s ∧ Owned s → Adapted o l ∧ Vouched env s l →
        Traced (step env s l) ∧ Owned (step env s l) := by
      intro s l h hl
      exact ⟨traced_step env s l h.1, owned_step henv o h.1 h.2 hl.1 hl.2⟩
    have hadapts : Along (step env) (fun _ l => Adapted o l) .start ls := by
      rw [along_iff]
      intro pre l post hls
      exact hadapted l (by rw [hls]; exact List.mem_append_right _ List.mem_cons_self)
    have howned : Owned .start := by
      intro v u hu
      cases hu
    exact (run_invariant (step env) (fun s => Traced s ∧ Owned s) hstep
      ⟨traced_start, howned⟩ (hadapts.and hvouched)).2
  · intro l hl hid hvouched
    rw [run_append]
    exact not_owned_step o (traced_run env ls) hl hid hvouched

/-! ## Runs -/

/-- PyJWT and `urlparse` as they are not used below. -/
def plainOutside : Outside where
  getUnverifiedHeader _ := .error .uncaught
  fromJwk _ := .error .uncaught
  decode _ _ _ _ _ := .error .invalidToken
  repr _ := ""
  urlError _ := none

theorem lowersSuffix_plain : LowersSuffix plainEnv := fun _ h => h

/-- A profile that Naver answers with. -/
def naverProfile (profile : Dict) : Http :=
  .response "" (.ok (.dict [("resultcode", .str "00"), ("response", .dict profile)]))

/-- A first login by Naver takes the address that its profile says. -/
theorem unverified_naver : ¬ ∀ env o ls, LowersSuffix env → (∀ l ∈ ls, Adapted o l) →
    Owned (run (step env) .start ls) := by
  intro h
  have howned := h plainEnv plainOutside
    [.naverUser 1 ⟨"naver", "subject", some "victim@mail.test", false⟩ "u1"] lowersSuffix_plain
    (by
      intro l hl
      rw [List.mem_singleton.mp hl]
      exact ⟨naverProfile [("id", .str "subject"), ("email", .str "victim@mail.test")], rfl⟩)
    "u1" ⟨"u1", "victim@mail.test", none, .active, 1, 0, none⟩ (by decide +kernel) rfl
    (by decide +kernel)
  revert howned
  decide +kernel

/-- What Kakao answers for an account with a verified address. -/
def kakaoProfile : Http :=
  .response "" (.ok (.dict [("id", .int 7), ("kakao_account", .dict
    [("email_needs_agreement", .bool false), ("is_email_valid", .bool true),
      ("is_email_verified", .bool true), ("email", .str "kakao@mail.test")])]))

/-- An account that verified its address, one that Kakao vouches for, one that Naver gives no
    address and one that is bootstrapped. -/
def fourAccounts : List Tx :=
  [.register 1 "u1" "learner@mail.test" "hash", .issueOneTime 1 "raw" 0, .consumeVerify 2 "raw" 5,
    .activate 2, .kakaoUser 3 ⟨"kakao", "7", some "kakao@mail.test", true⟩ "u2",
    .naverUser 4 ⟨"naver", "subject", none, false⟩ "u3", .register 5 "u4" "admin@mail.test" "hash",
    .admin (.bootstrapAdmin "u4") 9]

theorem fourAccounts_adapted : ∀ l ∈ fourAccounts, Adapted plainOutside l := by
  intro l hl
  simp only [fourAccounts, List.mem_cons, List.not_mem_nil, or_false] at hl
  rcases hl with rfl | rfl | rfl | rfl | rfl | rfl | rfl | rfl
  case inr.inr.inr.inr.inl => exact ⟨kakaoProfile, rfl⟩
  case inr.inr.inr.inr.inr.inl => exact ⟨naverProfile [("id", .str "subject")], rfl⟩
  all_goals exact trivial

theorem four_accounts_owned :
    let s := run (step plainEnv) .start fourAccounts
    (["u1", "u2", "u3", "u4"].all fun v => s.sys.db.isActive v) = true ∧ Owned s := by
  refine ⟨by decide +kernel, ?_⟩
  refine (address_owned plainEnv plainOutside lowersSuffix_plain fourAccounts
    fourAccounts_adapted).1
    ⟨trivial, trivial, trivial, trivial, trivial, ?_, trivial, trivial, trivial⟩
  intro _ _ email hemail
  cases hemail

end TemisLab.External.Ownership
