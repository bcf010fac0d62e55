/-
  Access tokens back at the SSO. The requests that end in `issue_bundle` run with the key ring
  under one clock; `current_subject` then gets a token of theirs.

  * `Works`: `current_subject` accepts each token that was handed out, until it expires.
  * `callback_refused`: it fails. The callbacks of the external providers ask for the audience
    `lab-client`, and `current_subject` for that of `verify_access`'s default.
  * `works_iff`: it holds of a run exactly if no bundle is issued to a callback, nor to a
    refresh that descends from one (`Native`). Issuer, key and lifetime agree on every path.
-/
import TemisLab.Keyring.Lifecycle
import TemisLab.OAuth.CodeFlow
import TemisLab.Sso.Endpoints

namespace TemisLab.Sso.Handout

open TemisLab.Lib TemisLab.Keyring TemisLab.OAuth

/-- How a bundle was come by: the password, a client's code, an external provider, or a refresh
    of what came by the path `of`. -/
inductive Path where
  | login
  | token (client : ClientPolicy)
  | callback (provider : String)
  | refresh (of : Path)
  deriving DecidableEq, Repr

namespace Path

/-- The audience each path asks `issue_bundle` for. -/
def audience : Path → String
  | .login => Sso.audience
  | .token client => client.audience
  | .callback _ => labClient
  | .refresh p => p.audience

/-- The path does not begin at a callback. -/
def native : Path → Bool
  | .callback _ => false
  | .refresh p => p.native
  | _ => true

/-- A client of the path has a policy. -/
def Known : Path → Prop
  | .token client => ∃ clientId, clientById clientId = .ok client
  | .refresh p => p.Known
  | _ => True

end Path

/-- The ring, the SSO, the path of each request that awaits its bundle, and of each grant by its
    digest. -/
structure Site where
  life : Life
  sso : Sys
  paths : ℕ → Option Path
  grants : List (String × Path)

def Site.start (clock : Time) : Site := ⟨.start clock, .start .empty, fun _ => none, []⟩

/-- A call of the ring, a code of a client that `/oauth/token` redeems, or a transaction of
    another request. -/
inductive Event where
  | ring (op : RingOp)
  | token (rid : ℕ) (subject clientId uid : String)
  | request (tx : Tx)
  deriving DecidableEq, Repr

/-- The kid `sign_claims` signs under. -/
def signer (ring : Ring) : Option String := (signClaims ring).toOption.map Prod.fst

namespace Event

/-- The transaction an event runs. `/oauth/token` asks for the audience of its client, and
    `issue_access` signs with the ring of the moment. -/
def tx (s : Site) (now : Time) : Event → Option Tx
  | .ring _ => none
  | .token rid subject clientId uid =>
      match clientById clientId with
      | .error _ => none
      | .ok client => some (.oauthUser rid subject client.defaultRole uid client.audience)
  | .request (.oauthUser _ _ _ _ _) => none
  | .request (.bundle rid fresh _ _) => some (.bundle rid fresh (signer s.life.ring) now)
  | .request tx => some tx

/-- The request an event makes wait for a bundle, and its path. -/
def path (env : Env) (s : Site) : Event → Option (ℕ × Path)
  | .token rid _ clientId _ => (clientById clientId).toOption.map fun client => (rid, .token client)
  | .request (.authenticate rid _ _ _) => some (rid, .login)
  | .request (.rotate rid raw _ _) =>
      (s.grants.lookup (tokenDigest env raw)).map fun p => (rid, .refresh p)
  | .request (.googleUser rid _) => some (rid, .callback "google")
  | .request (.naverUser rid _ _) => some (rid, .callback "naver")
  | .request (.kakaoUser rid _ _) => some (rid, .callback "kakao")
  | _ => none

/-- The digest a transaction may issue a grant under, and its path. -/
def grant (env : Env) (s : Site) : Event → Option (String × Path)
  | .request (.bundle rid fresh _ _) => (s.paths rid).map fun p => (tokenDigest env fresh, p)
  | .request (.rotate _ raw new _) =>
      (s.grants.lookup (tokenDigest env raw)).map fun p => (tokenDigest env new, .refresh p)
  | _ => none

end Event

/-- A grant that is there after the step and was not before. -/
def noted (before after : Db) (grant : Option (String × Path)) : List (String × Path) :=
  grant.toList.filter fun g =>
    (before.refreshGrants.get g.1).isNone && (after.refreshGrants.get g.1).isSome

/-- The ring's part of an event: its own call, or the signature of a bundle. -/
def ringStep (keyRing : KeyRing) (life : Life) (now : Time) (signs : Bool) : Event → Life
  | .ring op => Keyring.step keyRing life (now, .op op)
  | _ => if signs then Keyring.step keyRing life (now, .sign)
         else { life with clock := max life.clock now }

/-- An event at a reading of the clock. -/
def step (env : Env) (keyRing : KeyRing) (s : Site) (l : Time × Event) : Site :=
  let sso := (l.2.tx s (max s.life.clock l.1)).elim s.sso (Sso.step env s.sso)
  { life := ringStep keyRing s.life l.1 (s.sso.issued.length < sso.issued.length) l.2
    sso
    paths := (l.2.path env s).elim s.paths fun p => Function.update s.paths p.1 (some p.2)
    grants := noted s.sso.db sso.db (l.2.grant env s) ++ s.grants }

/-- A generated kid is not one of the ring's. -/
def Fresh (s : Site) : Time × Event → Prop
  | (now, .ring op) => FreshKid s.life (now, .op op)
  | _ => True

instance (s : Site) (l : Time × Event) : Decidable (Fresh s l) := by
  unfold Fresh
  split <;> infer_instance

/-! ## The claims of a run -/

/-- After each prefix of `ls`: `current_subject` takes a token handed out so far for its user
    until it expires, and each endpoint behind it acts for that user. -/
def Works (env : Env) (keyRing : KeyRing) (clock : Time) (ls : List (Time × Event)) : Prop :=
  ∀ pre post, ls = pre ++ post →
    let s := run (step env keyRing) (.start clock) pre
    ∀ b ∈ s.sso.issued, ∀ t, s.life.clock ≤ t → t < b.bundle.accessToken.claims.exp →
      currentSubject (verifies s.life.ring) t (some b.bundle.accessToken) = .ok b.bundle.userId ∧
        ∀ e : Endpoint, e.handle env (verifies s.life.ring) s.sso.db t (some b.bundle.accessToken) =
          e.act env s.sso.db t b.bundle.userId

/-- `issue_bundle` answers: the user is active, the ring has a signer, and a refresh token it
    generates is new. -/
def Answers (env : Env) (s : Site) (userId : String) (refreshToken : Option String)
    (fresh : String) : Prop :=
  s.sso.db.isActive userId = true ∧ (signer s.life.ring).isSome = true ∧
    (refreshToken.getD "" = "" → s.sso.db.refreshGrants.get (tokenDigest env fresh) = none)

instance (env : Env) (s : Site) (userId : String) (refreshToken : Option String)
    (fresh : String) : Decidable (Answers env s userId refreshToken fresh) := by
  unfold Answers
  infer_instance

/-- No bundle of a path that begins at a callback. -/
def Native (env : Env) (s : Site) : Time × Event → Prop
  | (_, .request (.bundle rid fresh _ _)) =>
      match s.sso.pending rid, s.paths rid with
      | some (.bundle userId _ refreshToken _), some p =>
          p.native = true ∨ ¬ Answers env s userId refreshToken fresh
      | _, _ => True
  | _ => True

instance (env : Env) (s : Site) (l : Time × Event) : Decidable (Native env s l) := by
  unfold Native
  repeat' split
  all_goals infer_instance

/-- A key is published and activated, and a subject of Naver signs in. -/
def naverLogin : List (Time × Event) :=
  [(0, .ring (.publish "a" (samplePair 3233))), (0, .ring (.activate "a")),
   (5, .request (.naverUser 1 ⟨"naver", "7", some "x@mail.test", false⟩ "u")),
   (5, .request (.bundle 1 "r1" none 0))]

/-- Its token does not pass `current_subject`. -/
theorem callback_refused : ¬ ∀ env keyRing clock ls,
    Along (step env keyRing) Fresh (.start clock) ls → Works env keyRing clock ls := by
  intro h
  have hw := h plainEnv KeyRing.default 0 naverLogin (by decide +kernel) naverLogin []
    (List.append_nil _).symm
  simp only at hw
  have hall : ∀ b ∈ (run (step plainEnv KeyRing.default) (.start 0) naverLogin).sso.issued,
      (currentSubject
        (verifies (run (step plainEnv KeyRing.default) (.start 0) naverLogin).life.ring)
        5 (some b.bundle.accessToken)).isOk = true := by
    intro b hb
    rw [(hw b hb 5 (by decide +kernel) ?_).1]
    · rfl
    · revert b
      decide +kernel
  revert hall
  decide +kernel

/-! ## What a transaction asks for -/

/-- The request a transaction signs in. -/
def asker : Tx → Option ℕ
  | .authenticate rid _ _ _ => some rid
  | .rotate rid _ _ _ => some rid
  | .oauthUser rid _ _ _ _ => some rid
  | .googleUser rid _ => some rid
  | .naverUser rid _ _ => some rid
  | .kakaoUser rid _ _ => some rid
  | _ => none

/-- The audience a transaction makes its request wait for. -/
inductive Asks (env : Env) (s : Sys) : Tx → String → Prop where
  | login (rid : ℕ) (email password : String) (now : Time) :
      Asks env s (.authenticate rid email password now) Sso.audience
  | token (rid : ℕ) (subject role uid aud : String) :
      Asks env s (.oauthUser rid subject role uid aud) aud
  | google (rid : ℕ) (i : ExternalIdentity) : Asks env s (.googleUser rid i) labClient
  | naver (rid : ℕ) (i : ExternalIdentity) (uid : String) :
      Asks env s (.naverUser rid i uid) labClient
  | kakao (rid : ℕ) (i : ExternalIdentity) (uid : String) :
      Asks env s (.kakaoUser rid i uid) labClient
  | rotate (rid : ℕ) (raw new : String) (now : Time) (g : RefreshGrant)
      (h : s.db.refreshGrants.get (tokenDigest env raw) = some g) :
      Asks env s (.rotate rid raw new now) g.audience

/-- A request that awaits its bundle, or was just made to. -/
def Awaits (env : Env) (s : Sys) (tx : Tx) (rid : ℕ) (c : Cont) (aud : String) : Prop :=
  (asker tx ≠ some rid ∧ s.pending rid = some c) ∨ (asker tx = some rid ∧ Asks env s tx aud)

/-- A block that ended, or left its request to wait for a bundle it asks for. -/
theorem awaits_commit (db : Db) {env : Env} {s : Sys} {tx : Tx} {rid rid' : ℕ}
    {next : Option Cont} {u aud : String} {r : Option String} {via : Option Rotation}
    (hown : asker tx = some rid ∨ asker tx = none)
    (hnext : ∀ u aud r via, next = some (.bundle u aud r via) →
      asker tx = some rid ∧ Asks env s tx aud)
    (h : (s.commit rid db next).pending rid' = some (.bundle u aud r via)) :
    Awaits env s tx rid' (.bundle u aud r via) aud := by
  rcases pending_commit h with ⟨hne, hp⟩ | ⟨rfl, hn⟩
  · refine Or.inl ⟨?_, hp⟩
    rcases hown with ha | ha
    · rw [ha]
      intro he
      exact hne (Option.some.inj he).symm
    · rw [ha]
      simp
  · exact Or.inr (hnext u aud r via hn)

/-- A transaction asks for its own request, before it has any other to follow. -/
theorem asker_of_rid {tx : Tx} {rid : ℕ} (h : tx.rid = some rid) :
    asker tx = some rid ∨ asker tx = none := by
  cases tx <;> simp_all [Tx.rid, asker]

theorem asker_of_opens {tx : Tx} (h : tx.opens = false) (rid : ℕ) : asker tx ≠ some rid := by
  cases tx <;> simp_all [Tx.opens, asker]

/-- What a request awaits its bundle for. -/
theorem pending_step (env : Env) (s : Sys) (tx : Tx) {rid : ℕ} {u aud : String}
    {r : Option String} {via : Option Rotation}
    (h : (Sso.step env s tx).pending rid = some (.bundle u aud r via)) :
    Awaits env s tx rid (.bundle u aud r via) aud := by
  have hc := step_committed env s tx
  generalize Sso.step env s tx = s' at hc h
  cases hc with
  | stayed tx hopens => exact Or.inl ⟨asker_of_opens hopens rid, h⟩
  | ended tx rid' hrid => exact awaits_commit _ (asker_of_rid hrid) (by simp) h
  | registered | issued | verified | activated | asked | redeemed | stored =>
      exact awaits_commit _ (Or.inr rfl) (by simp) h
  | authenticated rid' email password now next hnext =>
      refine awaits_commit _ (Or.inl rfl) ?_ h
      intro u aud r via hn
      obtain ⟨userId, he⟩ := hnext _ hn
      cases he
      exact ⟨rfl, .login rid' email password now⟩
  | rotated rid' raw new now userId aud' db rotation hpresented hsuccessor hversion hrotate =>
      obtain ⟨g, -, -, hg, -, -, haud, -⟩ := rotateRefresh_eq_some hrotate
      refine awaits_commit db (Or.inl rfl) ?_ h
      rintro u aud r via ⟨⟩
      rw [← haud]
      exact ⟨rfl, .rotate rid' raw new now g hg⟩
  | bundled rid' fresh activeKid now userId aud' refreshToken via' bundle db hpending hissue =>
      exact awaits_commit db (Or.inr rfl) (by simp) h
  | loggedOut | administered | linked | unlinked => exact Or.inl ⟨by simp [asker], h⟩
  | tokenUser rid' subject role uid aud' userId db huser =>
      refine awaits_commit _ (Or.inl rfl) ?_ h
      rintro u aud r via ⟨⟩
      exact ⟨rfl, .token rid' subject role uid aud'⟩
  | google rid' identity userId hlink =>
      refine awaits_commit _ (Or.inl rfl) ?_ h
      rintro u aud r via ⟨⟩
      exact ⟨rfl, .google rid' identity⟩
  | naver rid' identity uid userId db huser =>
      refine awaits_commit _ (Or.inl rfl) ?_ h
      rintro u aud r via ⟨⟩
      exact ⟨rfl, .naver rid' identity uid⟩
  | kakao rid' identity uid userId db huser =>
      refine awaits_commit _ (Or.inl rfl) ?_ h
      rintro u aud r via ⟨⟩
      exact ⟨rfl, .kakao rid' identity uid⟩

/-- A grant a transaction issues: its digest, and its audience. -/
inductive Grants (env : Env) (s : Sys) : Tx → String → String → Prop where
  | rotate (rid : ℕ) (raw new : String) (now : Time) (g : RefreshGrant)
      (h : s.db.refreshGrants.get (tokenDigest env raw) = some g) :
      Grants env s (.rotate rid raw new now) (tokenDigest env new) g.audience
  | bundle (rid : ℕ) (fresh : String) (kid : Option String) (now : Time) (u aud : String)
      (r : Option String) (via : Option Rotation)
      (h : s.pending rid = some (.bundle u aud r via)) :
      Grants env s (.bundle rid fresh kid now) (tokenDigest env fresh) aud

/-- The grants of `db'` are those of `db` in audience, but for one that `P` says is new. -/
def Onto (db db' : Db) (P : String → String → Prop) : Prop :=
  ∀ d g', db'.refreshGrants.get d = some g' →
    (∃ g, db.refreshGrants.get d = some g ∧ g.audience = g'.audience) ∨
      (db.refreshGrants.get d = none ∧ P d g'.audience)

theorem Onto.of_eq {db db' : Db} {P : String → String → Prop}
    (h : db'.refreshGrants = db.refreshGrants) : Onto db db' P := by
  intro d g' hg'
  rw [h] at hg'
  exact Or.inl ⟨g', hg', rfl⟩

theorem Onto.consume (db : Db) (p : RefreshGrant → Bool) (now : Time)
    (P : String → String → Prop) : Onto db (db.consumeGrants p now) P := by
  intro d g' hg'
  rw [Db.grant_consumeGrants] at hg'
  obtain ⟨g, hg, rfl⟩ := Option.map_eq_some_iff.mp hg'
  refine Or.inl ⟨g, hg, ?_⟩
  split <;> rfl

theorem Onto.insert {db : Db} {grants : Table RefreshGrant} {g : RefreshGrant}
    {P : String → String → Prop} (h : db.refreshGrants.insert g = some grants)
    (hP : P g.digest g.audience) : Onto db { db with refreshGrants := grants } P := by
  intro d g' hg'
  rw [Table.get_insert h] at hg'
  split at hg'
  · next he =>
      cases hg'
      rw [← he]
      exact Or.inr ⟨(Table.insert_eq_some h).1, hP⟩
  · exact Or.inl ⟨g', hg', rfl⟩

theorem Onto.consume_trans {db db' : Db} {p : RefreshGrant → Bool} {now : Time}
    {P : String → String → Prop} (h : Onto (db.consumeGrants p now) db' P) : Onto db db' P := by
  intro d g' hg'
  rcases h d g' hg' with ⟨g, hg, ha⟩ | ⟨hn, hP⟩
  · rcases Onto.consume db p now P d g hg with ⟨g₀, hg₀, ha₀⟩ | ⟨hn, -⟩
    · exact Or.inl ⟨g₀, hg₀, ha₀.trans ha⟩
    · rw [Db.grant_consumeGrants, hn] at hg
      cases hg
  · rw [Db.grant_consumeGrants] at hn
    exact Or.inr ⟨Option.map_eq_none_iff.mp hn, hP⟩

theorem Onto.createActive {env : Env} {db db' : Db} {uid email role id : String}
    (h : createActive env db uid email role = some (id, db')) (P : String → String → Prop) :
    Onto db db' P := by
  obtain ⟨-, -, -, -, -, hg⟩ := createActive_eq_some h
  exact .of_eq hg

theorem Onto.provision {domain : String} {env : Env} {db db' : Db} {identity : ExternalIdentity}
    {uid id : String} (h : provisionUser domain env db identity uid = .ok (id, db'))
    (P : String → String → Prop) : Onto db db' P := by
  rcases provisionUser_eq_ok h with ⟨-, rfl⟩ | ⟨db₁, -, hc, hl⟩
  · exact .of_eq rfl
  · obtain ⟨links, rfl⟩ := insertLink_eq_some hl
    exact Onto.createActive hc P

theorem Onto.bundle {env : Env} {db db' : Db} {userId aud fresh : String}
    {refreshToken activeKid : Option String} {now : Time} {b : TokenBundle}
    {P : String → String → Prop}
    (h : issueBundle env db userId aud refreshToken fresh activeKid now = .ok (b, db'))
    (hP : P (tokenDigest env fresh) aud) : Onto db db' P := by
  obtain ⟨-, -, -, -, -, -, -, hr⟩ := issueBundle_eq_ok h
  rcases bundleRefresh_eq_some hr with ⟨-, rfl⟩ | ⟨-, hi⟩
  · exact .of_eq rfl
  · obtain ⟨grants, g, hins, hd, -, haud, -, rfl⟩ := issueRefresh_eq_some hi
    refine Onto.insert hins ?_
    rw [hd, haud]
    exact hP

/-- The grants a step leaves. -/
theorem grant_step (env : Env) (s : Sys) (tx : Tx) :
    Onto s.db (Sso.step env s tx).db (Grants env s tx) := by
  have hc := step_committed env s tx
  generalize Sso.step env s tx = s' at hc ⊢
  cases hc with
  | stayed | ended | activated | asked | google => exact .of_eq rfl
  | registered rid uid email passwordHash who db hregister =>
      obtain ⟨user, hcreate, -⟩ := registerUser_eq_ok hregister
      obtain ⟨-, users, -, rfl⟩ := createUser_eq_some hcreate
      exact .of_eq rfl
  | issued rid raw now userId purpose db hpending hissue =>
      obtain ⟨tokens, rfl⟩ := issueOneTime_eq_some hissue
      exact .of_eq rfl
  | authenticated rid email password now next hnext =>
      rcases authenticate_db env s.db email password now with h | ⟨uid, f, hf, -, h⟩
      · rw [h]
        exact .of_eq rfl
      · rw [h]
        exact .of_eq rfl
  | verified rid raw now userId db hconsume =>
      obtain ⟨-, -, -, tokens, rfl⟩ := consumeOneTime_eq_ok hconsume
      exact .of_eq rfl
  | redeemed rid raw now userId db hconsume =>
      obtain ⟨-, -, -, tokens, rfl⟩ := consumeOneTime_eq_ok hconsume
      exact .of_eq rfl
  | stored rid passwordHash userId db hpending hstore =>
      rw [storePassword_eq_ok hstore]
      exact .of_eq rfl
  | rotated rid raw new now userId aud db rotation hpresented hsuccessor hversion hrotate =>
      obtain ⟨g, grants, g', hg, -, -, haud, -, hi, hd, -, haud', -, rfl⟩ :=
        rotateRefresh_eq_some hrotate
      refine Onto.consume_trans (Onto.insert hi ?_)
      rw [hd, haud', ← haud]
      exact .rotate rid raw new now g hg
  | loggedOut raw now => exact Onto.consume s.db _ now _
  | bundled rid fresh activeKid now userId aud refreshToken via bundle db hpending hissue =>
      exact Onto.bundle hissue
        (.bundle rid fresh activeKid now userId aud refreshToken via hpending)
  | administered op now db hexec =>
      intro d g' hg'
      have hgrants := (AdminOp.exec_effect hexec).grants
      change db.refreshGrants.get d = some g' at hg'
      rw [hgrants] at hg'
      exact Onto.consume s.db _ now _ d g' hg'
  | tokenUser rid subject role uid aud userId db huser =>
      rcases oauthUser_eq_ok huser with ⟨u, -, -, rfl⟩ | hcreate
      · exact .of_eq rfl
      · exact Onto.createActive hcreate _
  | naver rid identity uid userId db huser => exact Onto.provision huser _
  | kakao rid identity uid userId db huser => exact Onto.provision huser _
  | linked userId identity db hlink =>
      obtain ⟨links, rfl⟩ := insertLink_eq_some hlink
      exact .of_eq rfl
  | unlinked provider userId accepted db hrevoke =>
      obtain ⟨links, rfl⟩ := revokeLink_eq_some hrevoke
      exact .of_eq rfl

/-! ## The invariant -/

/-- The ring is sound, each awaited bundle and each grant has a path of its audience, and each
    bundle's token was signed by the ring with the claims of `issue_bundle`. -/
structure Kept (keyRing : KeyRing) (s : Site) : Prop where
  sound : Sound keyRing s.life
  awaits : ∀ rid u aud r via, s.sso.pending rid = some (.bundle u aud r via) →
    ∃ p, s.paths rid = some p ∧ p.audience = aud ∧ p.Known
  grants : ∀ d g, s.sso.db.refreshGrants.get d = some g →
    ∃ p, s.grants.lookup d = some p ∧ p.audience = g.audience ∧ p.Known
  issued : ∀ b ∈ s.sso.issued, ∃ g ∈ s.life.signed, ∃ v roles aud, b.bundle.accessToken =
    ⟨g.kid, bundleClaims b.bundle.userId v roles aud g.time⟩

theorem kept_start (keyRing : KeyRing) (clock : Time) : Kept keyRing (.start clock) := by
  refine ⟨sound_life keyRing clock, ?_, ?_, ?_⟩
  · intro rid u aud r via h
    cases h
  · intro d g h
    cases h
  · intro b hb
    cases hb

variable {env : Env} {keyRing : KeyRing} {s : Site} {now : Time} {e : Event} {tx : Tx}

/-- A bundle is signed under the ring's signer, at the time of the event. -/
theorem tx_bundle {rid : ℕ} {fresh : String} {kid : Option String} {t : Time}
    (h : e.tx s now = some (.bundle rid fresh kid t)) :
    (∃ k t', e = .request (.bundle rid fresh k t')) ∧ kid = signer s.life.ring ∧ t = now := by
  cases e with
  | ring op => cases h
  | token rid' subject clientId uid =>
      simp only [Event.tx] at h
      split at h <;> cases h
  | request tx =>
      cases tx <;> cases h
      exact ⟨⟨_, _, rfl⟩, rfl, rfl⟩

/-- An event without a transaction records nothing. -/
theorem quiet_of_tx (h : e.tx s now = none) : e.path env s = none ∧ e.grant env s = none := by
  cases e with
  | ring op => exact ⟨rfl, rfl⟩
  | token rid subject clientId uid =>
      simp only [Event.tx] at h
      split at h
      · next hc => exact ⟨by simp [Event.path, hc, Except.toOption], rfl⟩
      · cases h
  | request tx => cases tx <;> first | exact ⟨rfl, rfl⟩ | cases h

/-- A path is recorded for the request that the transaction signs in. -/
theorem asker_of_path {rid : ℕ} {p : Path} (h : e.tx s now = some tx)
    (hp : e.path env s = some (rid, p)) : asker tx = some rid := by
  cases e with
  | ring op => cases h
  | token rid' subject clientId uid =>
      simp only [Event.tx] at h
      split at h
      · cases h
      · next client hc =>
          cases h
          simp only [Event.path, hc, Except.toOption, Option.map_some, Option.some.injEq,
            Prod.mk.injEq] at hp
          simp only [asker, hp.1]
  | request tx' =>
      cases tx' with
      | rotate rid' raw new t =>
          cases h
          obtain ⟨p', -, he⟩ := Option.map_eq_some_iff.mp hp
          cases he
          rfl
      | _ =>
          cases hp <;> cases h <;> rfl

/-- What a transaction asks for is the audience of the path recorded with it. -/
theorem Kept.path (h : Kept keyRing s) (ht : e.tx s now = some tx) {rid : ℕ} {aud : String}
    (hr : asker tx = some rid) (hask : Asks env s.sso tx aud) :
    ∃ p, e.path env s = some (rid, p) ∧ p.audience = aud ∧ p.Known := by
  cases e with
  | ring op => cases ht
  | token rid' subject clientId uid =>
      simp only [Event.tx] at ht
      split at ht
      · cases ht
      · next client hc =>
          cases ht
          cases hask
          cases hr
          refine ⟨.token client, ?_, rfl, clientId, hc⟩
          simp [Event.path, hc, Except.toOption]
  | request tx' =>
      cases hask with
      | login rid' email password t =>
          cases tx' <;> cases ht
          cases hr
          exact ⟨.login, rfl, rfl, trivial⟩
      | token rid' subject role uid aud =>
          cases tx' <;> cases ht
      | google rid' i =>
          cases tx' <;> cases ht
          cases hr
          exact ⟨.callback "google", rfl, rfl, trivial⟩
      | naver rid' i uid =>
          cases tx' <;> cases ht
          cases hr
          exact ⟨.callback "naver", rfl, rfl, trivial⟩
      | kakao rid' i uid =>
          cases tx' <;> cases ht
          cases hr
          exact ⟨.callback "kakao", rfl, rfl, trivial⟩
      | rotate rid' raw new t g hg =>
          cases tx' <;> cases ht
          cases hr
          obtain ⟨p, hp, haud, hknown⟩ := h.grants _ g hg
          refine ⟨.refresh p, ?_, haud, hknown⟩
          simp [Event.path, hp]

/-- A grant a transaction issues is recorded with a path of its audience. -/
theorem Kept.grant (h : Kept keyRing s) (ht : e.tx s now = some tx) {d aud : String}
    (hg : Grants env s.sso tx d aud) :
    ∃ p, e.grant env s = some (d, p) ∧ p.audience = aud ∧ p.Known := by
  cases e with
  | ring op => cases ht
  | token rid' subject clientId uid =>
      simp only [Event.tx] at ht
      split at ht
      · cases ht
      · cases ht
        cases hg
  | request tx' =>
      cases hg with
      | rotate rid raw new t g hg =>
          cases tx' <;> cases ht
          obtain ⟨p, hp, haud, hknown⟩ := h.grants _ g hg
          refine ⟨.refresh p, ?_, haud, hknown⟩
          simp [Event.grant, hp]
      | bundle rid fresh kid t u aud r via hp =>
          cases tx' <;> cases ht
          obtain ⟨p, hpath, haud, hknown⟩ := h.awaits rid u aud r via hp
          refine ⟨p, ?_, haud, hknown⟩
          simp [Event.grant, hpath]

/-- The paths of the requests after a step. -/
theorem Kept.awaits_step (h : Kept keyRing s) (l : Time × Event) :
    ∀ rid u aud r via, (step env keyRing s l).sso.pending rid = some (.bundle u aud r via) →
      ∃ p, (step env keyRing s l).paths rid = some p ∧ p.audience = aud ∧ p.Known := by
  intro rid u aud r via hp
  simp only [step] at hp ⊢
  cases ht : l.2.tx s (max s.life.clock l.1) with
  | none =>
      rw [ht] at hp
      rw [(quiet_of_tx ht).1]
      exact h.awaits rid u aud r via hp
  | some tx =>
      rw [ht] at hp
      rcases pending_step env s.sso tx hp with ⟨hne, hp⟩ | ⟨hr, hask⟩
      · obtain ⟨p, hpath, hp⟩ := h.awaits rid u aud r via hp
        refine ⟨p, ?_, hp⟩
        cases hq : l.2.path env s with
        | none => exact hpath
        | some q =>
            obtain ⟨rid', q⟩ := q
            have hne' : rid ≠ rid' := by
              intro he
              rw [he] at hne
              exact hne (asker_of_path ht hq)
            simp only [Option.elim, Function.update_of_ne hne', hpath]
      · obtain ⟨p, hpath, hp⟩ := h.path ht hr hask
        refine ⟨p, ?_, hp⟩
        simp only [hpath, Option.elim, Function.update_self]

/-- Only new grants are noted. -/
theorem lookup_noted {before after : Db} {grant : Option (String × Path)} {d : String}
    (h : before.refreshGrants.get d ≠ none) (grants : List (String × Path)) :
    (noted before after grant ++ grants).lookup d = grants.lookup d := by
  cases grant with
  | none => rfl
  | some g =>
      obtain ⟨k, p⟩ := g
      by_cases hd : d = k
      · subst hd
        simp [noted, Option.isNone_iff_eq_none, h]
      · have hk : (d == k) = false := beq_eq_false_iff_ne.mpr hd
        unfold noted
        rw [Option.toList_some, List.filter_cons]
        split
        · rw [List.filter_nil, List.singleton_append, List.lookup_cons, hk]
        · rfl

/-- The paths of the grants after a step. -/
theorem Kept.grants_step (h : Kept keyRing s) (l : Time × Event) :
    ∀ d g, (step env keyRing s l).sso.db.refreshGrants.get d = some g →
      ∃ p, (step env keyRing s l).grants.lookup d = some p ∧ p.audience = g.audience ∧
        p.Known := by
  intro d g' hg'
  simp only [step] at hg' ⊢
  cases ht : l.2.tx s (max s.life.clock l.1) with
  | none =>
      rw [ht] at hg'
      rw [(quiet_of_tx ht).2]
      exact h.grants d g' hg'
  | some tx =>
      rw [ht] at hg'
      simp only [Option.elim] at hg' ⊢
      rcases grant_step env s.sso tx d g' hg' with ⟨g, hg, haud⟩ | ⟨hn, hgrants⟩
      · obtain ⟨p, hp, hpa, hknown⟩ := h.grants d g hg
        refine ⟨p, ?_, hpa.trans haud, hknown⟩
        rw [lookup_noted (by rw [hg]; simp), hp]
      · obtain ⟨p, hp, hpa⟩ := h.grant ht hgrants
        refine ⟨p, ?_, hpa⟩
        simp [noted, hp, hn, hg']

theorem ringStep_sound (h : Sound keyRing s.life) (l : Time × Event) (hl : Fresh s l)
    (signs : Bool) : Sound keyRing (ringStep keyRing s.life l.1 signs l.2) := by
  obtain ⟨now, e⟩ := l
  cases e with
  | ring op => exact sound_step keyRing s.life (now, .op op) h hl
  | _ =>
      cases signs with
      | false => exact h.wait now
      | true => exact sound_step keyRing s.life (now, .sign) h trivial

/-- What was signed stays in the history. -/
theorem mem_signed_ringStep (keyRing : KeyRing) (life : Life) (now : Time) (signs : Bool)
    (e : Event) {g : Signed} (hg : g ∈ life.signed) :
    g ∈ (ringStep keyRing life now signs e).signed := by
  have hstep : ∀ call, g ∈ (Keyring.step keyRing life (now, call)).signed := by
    intro call
    have hd := step_did keyRing life (now, call)
    generalize Keyring.step keyRing life (now, call) = life' at hd ⊢
    cases hd with
    | signed kid key hs => exact List.mem_cons_of_mem _ hg
    | _ => exact hg
  cases e with
  | ring op => exact hstep _
  | _ =>
      cases signs with
      | false => exact hg
      | true => exact hstep .sign

/-- A bundle of a step: the request that awaited it, and the ring's signature. -/
structure Bundles (env : Env) (s s' : Site) (l : Time × Event) (b : Issued) : Prop where
  issued : s'.sso.issued = b :: s.sso.issued
  clock : s'.life.clock = max s.life.clock l.1
  made : ∃ rid fresh k t u aud r kid key db, l.2 = .request (.bundle rid fresh k t) ∧
    s.sso.pending rid = some (.bundle u aud r b.via) ∧
    signClaims s.life.ring = .ok (kid, key) ∧
    ⟨kid, key, max s.life.clock l.1⟩ ∈ s'.life.signed ∧
    issueBundle env s.sso.db u aud r fresh (some kid) (max s.life.clock l.1) = .ok (b.bundle, db)

/-- A step leaves the bundles, or signs one more. -/
theorem issued_step (env : Env) (keyRing : KeyRing) (s : Site) (l : Time × Event) :
    (step env keyRing s l).sso.issued = s.sso.issued ∨
      ∃ b, Bundles env s (step env keyRing s l) l b := by
  cases ht : l.2.tx s (max s.life.clock l.1) with
  | none =>
      left
      simp only [step, ht, Option.elim]
  | some tx =>
      have hspec := step_cases env s.sso tx
      have hsso : (step env keyRing s l).sso = Sso.step env s.sso tx := by
        simp only [step, ht, Option.elim]
      have hlife : (step env keyRing s l).life = ringStep keyRing s.life l.1
          (s.sso.issued.length < (Sso.step env s.sso tx).issued.length) l.2 := by
        simp only [step, ht, Option.elim]
      generalize Sso.step env s.sso tx = sso at hspec hsso hlife
      cases hspec with
      | quiet hissued hrot hpending =>
          left
          rw [hsso, hissued]
      | rotated hrot hp hsucc hv =>
          left
          rw [hsso]
          rfl
      | @bundled rid u aud fresh r activeKid via t b db hp hi =>
          right
          obtain ⟨⟨k, t', he⟩, hkid, rfl⟩ := tx_bundle ht
          obtain ⟨user, kid, -, -, hk, -⟩ := issueBundle_eq_ok hi
          rw [hk] at hkid hi
          cases hs : signClaims s.life.ring with
          | error err => simp [signer, hs, Except.toOption] at hkid
          | ok q =>
              obtain ⟨kid', key⟩ := q
              simp only [signer, hs, Except.toOption, Option.map_some, Option.some.injEq] at hkid
              subst hkid
              have hsigned : (step env keyRing s l).life = { s.life with
                  clock := max s.life.clock l.1
                  signed := ⟨kid, key, max s.life.clock l.1⟩ :: s.life.signed } := by
                rw [hlife, he]
                simp [ringStep, Keyring.step, hs]
              refine ⟨⟨b, via⟩, by rw [hsso], by rw [hsigned], rid, fresh, k, t', u, aud, r, kid,
                key, db, he, hp, hs, ?_, hi⟩
              rw [hsigned]
              exact List.mem_cons_self

theorem kept_step (env : Env) (keyRing : KeyRing) (s : Site) (l : Time × Event)
    (h : Kept keyRing s) (hl : Fresh s l) : Kept keyRing (step env keyRing s l) := by
  have hmono : ∀ g ∈ s.life.signed, g ∈ (step env keyRing s l).life.signed := fun g hg =>
    mem_signed_ringStep keyRing s.life l.1 _ l.2 hg
  refine ⟨ringStep_sound h.sound l hl _, h.awaits_step l, h.grants_step l, ?_⟩
  intro b hb
  rcases issued_step env keyRing s l with hsame | ⟨b', hb'⟩
  · rw [hsame] at hb
    obtain ⟨g, hg, hclaims⟩ := h.issued b hb
    exact ⟨g, hmono g hg, hclaims⟩
  · rw [hb'.issued] at hb
    rcases List.mem_cons.mp hb with rfl | hb
    · obtain ⟨rid, fresh, k, t, u, aud, r, kid, key, db, -, -, -, hsigned, hi⟩ := hb'.made
      obtain ⟨user, kid', -, -, hk, hid, htoken, -⟩ := issueBundle_eq_ok hi
      cases hk
      refine ⟨_, hsigned, user.authzVersion, s.sso.db.roles u, aud, ?_⟩
      rw [htoken, hid]
    · obtain ⟨g, hg, hclaims⟩ := h.issued b hb
      exact ⟨g, hmono g hg, hclaims⟩

theorem kept_run {clock : Time} {ls : List (Time × Event)}
    (h : Along (step env keyRing) Fresh (.start clock) ls) :
    Kept keyRing (run (step env keyRing) (.start clock) ls) :=
  run_invariant (step env keyRing) (Kept keyRing) (kept_step env keyRing)
    (kept_start keyRing clock) h

/-! ## The audience -/

/-- A path that does not begin at a callback asks for the audience of `verify_access`: every
    client's is that one. -/
theorem Path.audience_of_native {p : Path} (h : p.Known) :
    p.audience = Sso.audience ↔ p.native = true := by
  induction p with
  | login => simp [Path.audience, Path.native]
  | token client =>
      obtain ⟨clientId, hc⟩ := h
      have hl := clientById_eq_ok hc
      simp only [clients, List.lookup_cons, List.lookup_nil] at hl
      split at hl
      · cases hl
        simp [Path.audience, Path.native, Sso.audience]
      · cases hl
  | callback provider => simp [Path.audience, Path.native, Sso.audience, labClient]
  | refresh p ih => exact ih h

/-- The tokens handed out are for the audience of `verify_access`. -/
def Home (s : Site) : Prop :=
  ∀ b ∈ s.sso.issued, b.bundle.accessToken.claims.aud = Sso.audience

/-- A bundle's audience is what its request awaited it for, and `issue_bundle` could answer. -/
theorem Bundles.awaited {s' : Site} {l : Time × Event} {b : Issued}
    (h : Bundles env s s' l b) : ∃ rid fresh k t u aud r,
      l.2 = .request (.bundle rid fresh k t) ∧ s.sso.pending rid = some (.bundle u aud r b.via) ∧
      b.bundle.accessToken.claims.aud = aud ∧ Answers env s u r fresh := by
  obtain ⟨rid, fresh, k, t, u, aud, r, kid, key, db, he, hp, hs, -, hi⟩ := h.made
  obtain ⟨user, kid', hu, hactive, -, -, htoken, hr⟩ := issueBundle_eq_ok hi
  refine ⟨rid, fresh, k, t, u, aud, r, he, hp, by rw [htoken]; rfl, ?_, ?_, ?_⟩
  · exact Db.isActive_iff.mpr ⟨user, hu, hactive⟩
  · simp [signer, hs, Except.toOption]
  · exact bundleRefresh_isSome.mp (by rw [hr]; rfl)

/-- `issue_bundle` answers under these conditions. -/
theorem Answers.issueBundle {u fresh : String} {r : Option String}
    (h : Answers env s u r fresh) (aud : String) (t : Time) : ∃ b db,
      Sso.issueBundle env s.sso.db u aud r fresh (signer s.life.ring) t = .ok (b, db) := by
  obtain ⟨hactive, hsigner, hfresh⟩ := h
  exact issueBundle_iff.mpr ⟨hactive, Option.isSome_iff_ne_none.mp hsigner, hfresh⟩

/-- A request that `issue_bundle` can answer gets a bundle for the audience it awaits. -/
theorem bundles_of_answers {rid : ℕ} {fresh : String} {k : Option String} {t : Time}
    {u aud : String} {r : Option String} {via : Option Rotation} {l : Time × Event}
    (keyRing : KeyRing) (he : l.2 = .request (.bundle rid fresh k t))
    (hp : s.sso.pending rid = some (.bundle u aud r via)) (ha : Answers env s u r fresh) :
    ∃ b, b.bundle.accessToken.claims.aud = aud ∧ Bundles env s (step env keyRing s l) l b := by
  rcases issued_step env keyRing s l with hsame | ⟨b, hb⟩
  · exfalso
    obtain ⟨b, db, hi⟩ := ha.issueBundle aud (max s.life.clock l.1)
    simp only [step, he, Event.tx, Option.elim, Sso.step, hp, hi] at hsame
    exact absurd hsame (by simp)
  · refine ⟨b, ?_, hb⟩
    obtain ⟨rid', fresh', k', t', u', aud', r', he', hp', haud, -⟩ := hb.awaited
    rw [he] at he'
    cases he'
    rw [hp] at hp'
    cases hp'
    exact haud

/-! ## The verdict of `current_subject` -/

/-- A token of the SSO's audience is accepted until it expires. -/
theorem Kept.accepted (h : Kept keyRing s) {b : Issued} (hb : b ∈ s.sso.issued)
    (haud : b.bundle.accessToken.claims.aud = Sso.audience) {t : Time} (ht : s.life.clock ≤ t)
    (hexp : t < b.bundle.accessToken.claims.exp) :
    currentSubject (verifies s.life.ring) t (some b.bundle.accessToken) =
      .ok b.bundle.userId := by
  obtain ⟨g, hg, v, roles, aud, htoken⟩ := h.issued b hb
  have htime : g.time ≤ s.life.clock := (h.sound.signed g hg).1
  rw [htoken] at haud hexp ⊢
  have haud' : aud = Sso.audience := haud
  have hlife : t < g.time + minimumOverlapSeconds := by
    have hfloor : ((⌊g.time + 10 * 60⌋ : ℤ) : ℚ) ≤ g.time + 10 * 60 := Int.floor_le _
    have hexp' : t < ((⌊g.time + 10 * 60⌋ : ℤ) : ℚ) := hexp
    unfold minimumOverlapSeconds
    linarith
  have hkey : verifies s.life.ring g.kid = true := by
    rw [verifies, (h.sound.kept hg ht hlife).1]
    rfl
  have hiat : ((⌊g.time⌋ : ℤ) : ℚ) ≤ t := by
    have hfloor : ((⌊g.time⌋ : ℤ) : ℚ) ≤ g.time := Int.floor_le _
    linarith
  have hverify : verifyAccess (verifies s.life.ring) Sso.audience t
      ⟨g.kid, bundleClaims b.bundle.userId v roles aud g.time⟩ =
        some (bundleClaims b.bundle.userId v roles aud g.time) := by
    unfold verifyAccess
    refine if_pos ?_
    simp only [Bool.and_eq_true, decide_eq_true_eq]
    exact ⟨⟨⟨⟨hkey, hiat⟩, hexp⟩, rfl⟩, haud'⟩
  simp only [currentSubject, hverify]
  rfl

/-- A token of another audience is refused. -/
theorem refused_of_aud (keys : String → Bool) (t : Time) {token : AccessToken}
    (h : token.claims.aud ≠ Sso.audience) : currentSubject keys t (some token) = .error 401 := by
  have hverify : verifyAccess keys Sso.audience t token = none := by
    unfold verifyAccess
    refine if_neg ?_
    simp [h]
  simp only [currentSubject, hverify]

/-- Just issued, a token has not expired. -/
theorem Bundles.unexpired {s' : Site} {l : Time × Event} {b : Issued}
    (h : Bundles env s s' l b) : s'.life.clock < b.bundle.accessToken.claims.exp := by
  obtain ⟨rid, fresh, k, t, u, aud, r, kid, key, db, -, -, -, -, hi⟩ := h.made
  obtain ⟨user, kid', -, -, -, -, htoken, -⟩ := issueBundle_eq_ok hi
  rw [h.clock, htoken]
  show max s.life.clock l.1 < ((⌊max s.life.clock l.1 + 10 * 60⌋ : ℤ) : ℚ)
  have hlt : max s.life.clock l.1 + 10 * 60 < (⌊max s.life.clock l.1 + 10 * 60⌋ : ℤ) + 1 :=
    Int.lt_floor_add_one _
  linarith

/-! ## Runs -/

/-- A step that issues to no callback hands out tokens for the SSO. -/
theorem home_step (h : Kept keyRing s) (hhome : Home s) {l : Time × Event}
    (hl : Native env s l) : Home (step env keyRing s l) := by
  intro b hb
  rcases issued_step env keyRing s l with hsame | ⟨b', hb'⟩
  · rw [hsame] at hb
    exact hhome b hb
  · rw [hb'.issued] at hb
    rcases List.mem_cons.mp hb with rfl | hb
    · obtain ⟨rid, fresh, k, t, u, aud, r, he, hp, haud, hanswers⟩ := hb'.awaited
      obtain ⟨p, hpath, hpa, hknown⟩ := h.awaits rid u aud r b.via hp
      obtain ⟨now, e⟩ := l
      simp only at he
      subst he
      simp only [Native, hp, hpath] at hl
      rcases hl with hnative | hno
      · rw [haud, ← hpa]
        exact (Path.audience_of_native hknown).mpr hnative
      · exact absurd hanswers hno
    · exact hhome b hb

/-- A step that issues to a callback hands out a token `current_subject` refuses. -/
theorem refused_of_not_native (h : Kept keyRing s) {l : Time × Event} (hl : ¬ Native env s l) :
    ∃ b, Bundles env s (step env keyRing s l) l b ∧
      b.bundle.accessToken.claims.aud ≠ Sso.audience := by
  obtain ⟨now, e⟩ := l
  unfold Native at hl
  split at hl
  · next rid fresh k t heq =>
      split at hl
      · next u aud r via p hp hpath =>
          rw [not_or, not_not] at hl
          obtain ⟨q, hq, hqa, hknown⟩ := h.awaits rid u aud r via hp
          rw [hpath] at hq
          cases hq
          cases heq
          obtain ⟨b, haud, hb⟩ := bundles_of_answers
            (l := (now, .request (.bundle rid fresh k t))) keyRing rfl hp hl.2
          refine ⟨b, hb, ?_⟩
          rw [haud, ← hqa]
          intro he
          exact hl.1 ((Path.audience_of_native hknown).mp he)
      · exact absurd trivial hl
  · exact absurd trivial hl

/-- Every token handed out works, in exactly the runs that issue none to a callback. -/
theorem works_iff (env : Env) (keyRing : KeyRing) (clock : Time) (ls : List (Time × Event))
    (hfresh : Along (step env keyRing) Fresh (.start clock) ls) :
    Works env keyRing clock ls ↔ Along (step env keyRing) (Native env) (.start clock) ls := by
  refine ⟨?_, ?_⟩
  · intro h
    rw [along_iff]
    intro pre l post hls
    by_contra hl
    rw [hls, along_append] at hfresh
    obtain ⟨b, hb, haud⟩ := refused_of_not_native (kept_run hfresh.1) hl
    have hls' : ls = (pre ++ [l]) ++ post := by
      rw [hls]
      simp
    have hw := h (pre ++ [l]) post hls'
    rw [run_append] at hw
    have hok := (hw b (by rw [run_cons, run_nil, hb.issued]; exact List.mem_cons_self) _
      (le_refl _) hb.unexpired).1
    rw [refused_of_aud _ _ haud] at hok
    cases hok
  · intro h pre post hls
    rw [hls, along_append] at h hfresh
    have hboth := run_invariant (step env keyRing) (fun s => Kept keyRing s ∧ Home s) ?_
      ⟨kept_start keyRing clock, by intro b hb; cases hb⟩ (hfresh.1.and h.1)
    · intro s b hb t ht hexp
      have hok := hboth.1.accepted hb (hboth.2 b hb) ht hexp
      refine ⟨hok, ?_⟩
      intro e
      rw [Endpoint.handle, hok]
    · intro s l hs hl
      exact ⟨kept_step env keyRing s l hs.1 hl.1, home_step hs.1 hs.2 hl.2⟩

/-- A password login and its refresh while the next key takes over, and a client's code. -/
theorem native_works : Works plainEnv KeyRing.default 0
    [(0, .ring (.publish "a" (samplePair 3233))), (0, .ring (.activate "a")),
     (1, .request (.register 1 "u" "x@mail.test" "pw")),
     (1, .request (.issueOneTime 1 "v" 1)), (2, .request (.consumeVerify 2 "v" 2)),
     (2, .request (.activate 2)), (3, .request (.authenticate 3 "x@mail.test" "pw" 3)),
     (3, .request (.bundle 3 "r1" none 3)), (4, .ring (.publish "b" (samplePair 2773))),
     (5, .ring (.activate "b")), (6, .request (.rotate 4 "r1" "r2" 6)),
     (6, .request (.bundle 4 "unused" none 6)), (7, .token 5 "learner-001" "temis-web" "w"),
     (7, .request (.bundle 5 "r3" none 7))] :=
  (works_iff plainEnv KeyRing.default 0 _ (by decide +kernel)).mpr (by decide +kernel)

end TemisLab.Sso.Handout
