/-
  What a bundle of an external callback was handed out for, in every interleaving of logins and
  callbacks from any tables.

  `Inv` is kept by every step: the stores are sound, a callback that is not answered has consumed
  its flow and holds what its phase established (`Task.Fits`), and every bundle is backed by a
  consumed flow, by evidence checked against that flow, and by a link.

  * `external_login_safe`: every bundle is `Handed.Safe`, no two are for one state, and a callback
    whose consume raises changes neither the tables nor the stores and has nothing left to run.
-/
import TemisLab.External.Callbacks

namespace TemisLab.External

open TemisLab.Lib TemisLab.Sso TemisLab.Keyring

/-! ## The statement -/

/-- The provider and the state that a bundle was handed out for. -/
def Handed.key (h : Handed) : Provider × String := (h.request.provider, h.request.state)

/-- The user a bundle signs in. -/
def Handed.user (h : Handed) : String := h.bundle.accessToken.claims.sub

/-- What the `fetch_identity` of a provider returns of a response; Google's adapter has none. -/
def Fetched (o : Outside) (response : Http) (identity : ExternalIdentity) : Provider → Prop
  | .google => False
  | .naver => naverIdentity o response = .ok identity
  | .kakao => kakaoIdentity response = .ok identity

/-- The bundle `h` is for a state that a login of its provider issued before, at most `flowTtl`
    earlier and with the presented binding, and that was consumed once; and for the user that is
    linked to the verified or the fetched subject. -/
structure Handed.Safe (o : Outside) (cfg : Settings) (s : Server) (h : Handed) : Prop where
  issued : [Punch.redeemed h.request.state h.flow h.request.presented,
    .issued h.request.state h.flow].Sublist (s.flows h.request.provider).flows.log
  inTime : h.request.presented.now - h.flow.createdAt ≤ flowTtl
  binding : h.flow.browserBinding = h.request.presented.browserBinding
  once : (s.flows h.request.provider).flows.spent.count h.request.state = 1
  google : h.request.provider = .google → ∃ encoded jwk clock key claims subject,
    h.evidence = .idToken encoded jwk clock ∧ o.fromJwk jwk = .ok key ∧
      o.decode encoded key cfg.googleClientId expectedIssuer clock = .ok claims ∧
      Dict.str claims "nonce" = some h.flow.nonce ∧ Dict.str claims "sub" = some subject ∧
      resolveLink s.db "google" subject = some h.user
  fetched : h.request.provider ≠ .google → ∃ response identity,
    h.evidence = .profile response ∧ Fetched o response identity h.request.provider ∧
      resolveLink s.db h.request.provider.name identity.subject = some h.user

/-- The consume of a callback raises, or is not reached. -/
def Unconsumed (s : Server) (rid : ℕ) (p : Provider) (state : String) (cookie : Option String)
    (now : ℤ) : Prop :=
  ∀ binding, cookie = some binding →
    ∀ result, (s.flows p).consume state ⟨rid, now, binding⟩ ≠ .ok result

/-! ## What a callback holds -/

/-- The evidence shows the identity, checked against the flow. -/
def Shows (o : Outside) (cfg : Settings) (flow : ExternalFlow) (identity : ExternalIdentity) :
    Provider → Evidence → Prop
  | .google, .idToken encoded jwk clock => ∃ claims,
      decodeIdToken o cfg.googleClientId expectedIssuer encoded jwk clock = .ok claims ∧
        identityOf cfg.googleClientId flow.nonce claims = .ok identity
  | .naver, .profile response => naverIdentity o response = .ok identity
  | _, _ => False

/-- What a callback has established when it is in its phase. A retry gets no identity. -/
def Task.Fits (o : Outside) (cfg : Settings) (db : Db) (t : Task) : Prop :=
  match t.phase with
  | .discovering => t.request.provider = .google
  | .exchanging metadata =>
      t.request.provider = .google ∧ metadata.issuer = expectedIssuer
  | .fetching metadata _ _ _ =>
      t.request.provider = .google ∧ metadata.issuer = expectedIssuer
  | .resolving identity evidence =>
      t.retry = false ∧ Shows o cfg t.flow identity t.request.provider evidence
  | .naverExchanging => t.retry = false ∧ t.request.provider = .naver
  | .naverFetching _ => t.retry = false ∧ t.request.provider = .naver
  | .provisioning identity evidence =>
      t.retry = false ∧ Shows o cfg t.flow identity t.request.provider evidence
  | .issuing identity evidence userId =>
      t.retry = false ∧ Shows o cfg t.flow identity t.request.provider evidence ∧
        resolveLink db identity.provider identity.subject = some userId

/-- The callback `rid` that is not answered. The flow of a retry is not the one it consumed. -/
structure Task.Held (o : Outside) (cfg : Settings) (s : Server) (rid : ℕ) (t : Task) : Prop where
  rid : t.request.presented.rid = rid
  fits : t.Fits o cfg s.db
  redeemed : t.retry = false → .redeemed t.request.state t.flow t.request.presented ∈
    (s.flows t.request.provider).flows.log
  unhanded : t.retry = false → (t.request.provider, t.request.state) ∉ s.handed.map Handed.key

/-- A bundle that was handed out. -/
structure Handed.Backed (o : Outside) (cfg : Settings) (s : Server) (h : Handed) : Prop where
  redeemed : .redeemed h.request.state h.flow h.request.presented ∈
    (s.flows h.request.provider).flows.log
  shows : Shows o cfg h.flow h.identity h.request.provider h.evidence
  linked : resolveLink s.db h.identity.provider h.identity.subject = some h.user

/-- The store of a provider. -/
def FlowStore.Good (store : FlowStore) : Prop := store.Sound ∧ store.ttlSeconds = flowTtl

structure Inv (o : Outside) (cfg : Settings) (s : Server) : Prop where
  stores : ∀ p, (s.flows p).Good
  tasks : ∀ rid t, s.tasks rid = some t → t.Held o cfg s rid
  handed : ∀ h ∈ s.handed, h.Backed o cfg s
  once : (s.handed.map Handed.key).Nodup

variable {env : Env} {o : Outside} {cfg : Settings} {s s' : Server}

theorem inv_start (o : Outside) (cfg : Settings) (db : Db) : Inv o cfg (.start db) := by
  refine ⟨?_, ?_, ?_, List.nodup_nil⟩
  · intro p
    exact ⟨FlowStore.sound_init flowTtl, rfl⟩
  · intro rid t ht
    cases ht
  · intro h hh
    cases hh

/-! ## Identities -/

theorem Shows.provider {flow : ExternalFlow} {identity : ExternalIdentity} {p : Provider}
    {evidence : Evidence} (h : Shows o cfg flow identity p evidence) :
    identity.provider = p.name := by
  cases p with
  | google =>
      cases evidence with
      | idToken encoded jwk clock =>
          obtain ⟨claims, -, hidentity⟩ := h
          exact (identityOf_eq_ok hidentity).2.1
      | profile response => cases h
  | naver =>
      cases evidence with
      | idToken encoded jwk clock => cases h
      | profile response => exact (naverIdentity_eq_ok h).1
  | kakao => cases evidence <;> cases h

/-- A token that passes is evidence; a retry never gets there. -/
theorem verify_fits {t : Task} {metadata : ProviderMetadata} {encoded : String} {jwk : Dict}
    {clock : Time} {phase : Phase} (db : Db) (hgoogle : t.request.provider = .google)
    (hissuer : metadata.issuer = expectedIssuer)
    (h : verify o cfg t metadata encoded jwk clock = .ok phase) :
    Task.Fits o cfg db { t with phase } := by
  obtain ⟨claims, identity, hclaims, hidentity, hretry, rfl⟩ := verify_eq_ok h
  rw [hissuer] at hclaims
  refine ⟨hretry, ?_⟩
  rw [hgoogle]
  exact ⟨claims, hclaims, hidentity⟩

theorem respond_fits {t : Task} {jwks jwks' : JwksCache} {http : Http} {clock : Time}
    {phase : Phase} {db : Db} (ht : t.Fits o cfg db)
    (h : respond env o cfg jwks t http clock = (jwks', .ok phase)) :
    Task.Fits o cfg db { t with phase } := by
  unfold Task.Fits at ht
  cases respond_cases h with
  | discovered metadata hphase hdiscover =>
      rw [hphase] at ht
      exact ⟨ht, googleDiscover_issuer hdiscover⟩
  | missed metadata encoded kid hphase =>
      rw [hphase] at ht
      exact ht
  | verified metadata encoded jwk phase hphase hverify =>
      rcases hphase with hphase | ⟨_, _, _, hphase⟩
      · rw [hphase] at ht
        exact verify_fits db ht.1 ht.2 hverify
      · rw [hphase] at ht
        exact verify_fits db ht.1 ht.2 hverify
  | exchanged token hphase =>
      rw [hphase] at ht
      exact ht
  | fetched token identity hphase hidentity =>
      rw [hphase] at ht
      refine ⟨ht.1, ?_⟩
      rw [ht.2]
      exact hidentity
  | idle hdiscovering => exact ht

/-! ## Steps -/

/-- What holds of `s` and stays. -/
structure Later (s s' : Server) : Prop where
  logs : ∀ p, (s.flows p).flows.log ⊆ (s'.flows p).flows.log
  links : ∀ p x u, resolveLink s.db p x = some u → resolveLink s'.db p x = some u

theorem Later.same (hflows : s'.flows = s.flows) (hdb : s'.db = s.db) : Later s s' := by
  refine ⟨?_, ?_⟩
  · intro p
    rw [hflows]
    exact List.Subset.refl _
  · intro p x u hu
    rw [hdb]
    exact hu

/-- An entry in the log of one store. -/
theorem Later.punch {p : Provider} {store : FlowStore} {entry : Punch String ExternalFlow Presented}
    (hlog : store.flows.log = entry :: (s.flows p).flows.log)
    (hflows : s'.flows = Function.update s.flows p store) (hdb : s'.db = s.db) : Later s s' := by
  refine ⟨?_, ?_⟩
  · intro q
    rw [hflows]
    by_cases hq : q = p
    · rw [hq, Function.update_self, hlog]
      exact List.subset_cons_self _ _
    · rw [Function.update_of_ne hq]
      exact List.Subset.refl _
  · intro q x u hu
    rw [hdb]
    exact hu

theorem good_update {p : Provider} {store : FlowStore} (h : ∀ q, (s.flows q).Good)
    (hstore : store.Good) : ∀ q, (Function.update s.flows p store q).Good := by
  intro q
  by_cases hq : q = p
  · rw [hq, Function.update_self]
    exact hstore
  · rw [Function.update_of_ne hq]
    exact h q

theorem Task.Fits.later {t : Task} (h : t.Fits o cfg s.db) (hl : Later s s') :
    t.Fits o cfg s'.db := by
  unfold Task.Fits at h ⊢
  split at h
  case h_8 => exact ⟨h.1, h.2.1, hl.links _ _ _ h.2.2⟩
  all_goals exact h

theorem Task.Held.later {rid : ℕ} {t : Task} (h : t.Held o cfg s rid) (hl : Later s s')
    (hhanded : s'.handed = s.handed) : t.Held o cfg s' rid := by
  refine ⟨h.rid, h.fits.later hl, fun hr => hl.logs _ (h.redeemed hr), ?_⟩
  rw [hhanded]
  exact h.unhanded

theorem Handed.Backed.later {h : Handed} (hb : h.Backed o cfg s) (hl : Later s s') :
    h.Backed o cfg s' :=
  ⟨hl.logs _ hb.redeemed, hb.shows, hl.links _ _ _ hb.linked⟩

/-- A step that hands nothing out. -/
theorem Inv.advance (h : Inv o cfg s) (hl : Later s s') (hstores : ∀ p, (s'.flows p).Good)
    (hhanded : s'.handed = s.handed)
    (htasks : ∀ rid t, s'.tasks rid = some t →
      s.tasks rid = some t ∨ t.Held o cfg s' rid) : Inv o cfg s' := by
  refine ⟨hstores, ?_, ?_, by rw [hhanded]; exact h.once⟩
  · intro rid t ht
    rcases htasks rid t ht with ht | ht
    · exact (h.tasks rid t ht).later hl hhanded
    · exact ht
  · intro b hb
    rw [hhanded] at hb
    exact (h.handed b hb).later hl

/-- A state whose consume returned has no bundle yet. -/
theorem Inv.unhanded (h : Inv o cfg s) {p : Provider} {state : String} {presented : Presented}
    {flow : ExternalFlow} {store : FlowStore}
    (hconsume : (s.flows p).consume state presented = .ok (flow, store)) :
    (p, state) ∉ s.handed.map Handed.key := by
  intro hmem
  obtain ⟨b, hb, hkey⟩ := List.mem_map.mp hmem
  have hredeemed := (h.handed b hb).redeemed
  obtain ⟨hp, hstate⟩ := Prod.mk.inj hkey
  rw [hp, hstate] at hredeemed
  have hspent := Tickets.mem_spent.mpr ⟨_, _, hredeemed⟩
  exact (h.stores p).1.consume_new hconsume hspent

/-- The user of a bundle is the one it was issued for. -/
theorem issueBundle_user {db db' : Db} {userId aud fresh : String} {activeKid : Option String}
    {now : Time} {b : TokenBundle}
    (h : issueBundle env db userId aud none fresh activeKid now = .ok (b, db')) :
    b.accessToken.claims.sub = userId ∧ db'.links = db.links := by
  obtain ⟨user, kid, -, -, -, -, htoken, hrefresh⟩ := issueBundle_eq_ok h
  refine ⟨by rw [htoken]; rfl, ?_⟩
  rcases bundleRefresh_eq_some hrefresh with ⟨hn, -⟩ | ⟨-, hissue⟩
  · cases hn
  · obtain ⟨grants, g, -, -, -, -, -, rfl⟩ := issueRefresh_eq_some hissue
    rfl

/-- The store after a consume that returns. -/
theorem Inv.consume (h : Inv o cfg s) {p : Provider} {state : String} {presented : Presented}
    {flow : ExternalFlow} {store : FlowStore}
    (hconsume : (s.flows p).consume state presented = .ok (flow, store)) :
    store.Good ∧
      store.flows.log = .redeemed state flow presented :: (s.flows p).flows.log := by
  have hsound := (h.stores p).1.consume hconsume
  obtain ⟨-, -, rfl⟩ := FlowStore.consume_eq_ok hconsume
  exact ⟨⟨hsound, (h.stores p).2⟩, rfl⟩

theorem first_fits {p : Provider} {phase : Phase} (h : p.first = some phase) {t : Task}
    (hprovider : t.request.provider = p) (db : Db) (hretry : t.retry = false)
    (hphase : t.phase = phase) : t.Fits o cfg db := by
  unfold Task.Fits
  rw [hphase]
  cases p with
  | google =>
      cases h
      exact hprovider
  | naver =>
      cases h
      exact ⟨hretry, hprovider⟩
  | kakao => cases h

/-- A callback that moves to a phase it fits. -/
theorem Inv.move (h : Inv o cfg s) {rid : ℕ} {t : Task} {phase : Phase}
    (htask : s.tasks rid = some t) (hl : Later s s') (hstores : ∀ p, (s'.flows p).Good)
    (hhanded : s'.handed = s.handed)
    (htasks : s'.tasks = Function.update s.tasks rid (some { t with phase }))
    (hfits : Task.Fits o cfg s'.db { t with phase }) : Inv o cfg s' := by
  have hheld := h.tasks rid t htask
  refine h.advance hl hstores hhanded ?_
  intro rid' t' ht
  rw [htasks] at ht
  rcases slot_set ht with ⟨-, ht⟩ | ⟨rfl, rfl⟩
  · exact Or.inl ht
  · refine Or.inr ⟨hheld.rid, hfits, fun hr => hl.logs _ (hheld.redeemed hr), ?_⟩
    rw [hhanded]
    exact hheld.unhanded

/-- The step that hands a bundle out: no other callback consumed its state. -/
theorem Inv.hand (h : Inv o cfg s) {rid : ℕ} {t : Task} {identity : ExternalIdentity}
    {evidence : Evidence} {userId fresh : String} {activeKid : Option String} {now : Time}
    {bundle : TokenBundle} {db : Db} (htask : s.tasks rid = some t)
    (hphase : t.phase = .issuing identity evidence userId)
    (hissue : issueBundle env s.db userId labClient none fresh activeKid now = .ok (bundle, db))
    (answer : Answer) :
    Inv o cfg (Server.answer
      { s with db, handed := ⟨t.request, t.flow, identity, evidence, bundle⟩ :: s.handed }
      rid answer) := by
  have hheld := h.tasks rid t htask
  have hfits := hheld.fits
  unfold Task.Fits at hfits
  rw [hphase] at hfits
  obtain ⟨hretry, hshows, hlink⟩ := hfits
  obtain ⟨huser, hlinks⟩ := issueBundle_user hissue
  generalize hs' : Server.answer _ rid answer = s'
  have hl : Later s s' := by
    subst hs'
    refine ⟨fun p => List.Subset.refl _, ?_⟩
    intro p x u hu
    show (db.links.get (p, x)).map ExternalIdentityLink.userId = some u
    rw [hlinks]
    exact hu
  have hflows : s'.flows = s.flows := by rw [← hs']; rfl
  have hhanded : s'.handed = ⟨t.request, t.flow, identity, evidence, bundle⟩ :: s.handed := by
    rw [← hs']
    rfl
  refine ⟨by rw [hflows]; exact h.stores, ?_, ?_, ?_⟩
  · intro rid' t' ht'
    have hother : s.tasks rid' = some t' := by
      rw [← hs'] at ht'
      exact (slot_clear ht').2
    have hheld' := h.tasks rid' t' hother
    refine ⟨hheld'.rid, hheld'.fits.later hl, fun hr => hl.logs _ (hheld'.redeemed hr), ?_⟩
    intro hr hmem
    rw [hhanded, List.map_cons, List.mem_cons] at hmem
    rcases hmem with he | hmem
    · obtain ⟨hp, hstate⟩ := Prod.mk.inj he
      have hone := hheld'.redeemed hr
      rw [hp, hstate] at hone
      obtain ⟨-, hpresented⟩ := (h.stores _).1.unique hone (hheld.redeemed hretry)
      have hrid : rid' = rid := by rw [← hheld'.rid, ← hheld.rid, hpresented]
      have hcleared : s'.tasks rid = none := by
        rw [← hs']
        exact Function.update_self rid none s.tasks
      rw [hrid, hcleared] at ht'
      cases ht'
    · exact hheld'.unhanded hr hmem
  · intro b hb
    rw [hhanded, List.mem_cons] at hb
    rcases hb with rfl | hb
    · refine ⟨hl.logs _ (hheld.redeemed hretry), hshows, ?_⟩
      show resolveLink s'.db identity.provider identity.subject = some bundle.accessToken.claims.sub
      rw [huser]
      exact hl.links _ _ _ hlink
    · exact (h.handed b hb).later hl
  · rw [hhanded, List.map_cons]
    exact List.nodup_cons.mpr ⟨hheld.unhanded hretry, h.once⟩

theorem inv_step (s : Server) (l : Step) (h : Inv o cfg s) (hl : FreshState s l) :
    Inv o cfg (step env o cfg s l) := by
  have hd := step_did env o cfg s l
  generalize step env o cfg s l = s' at hd ⊢
  cases hd with
  | stayed => exact h
  | ended l rid jwks answer =>
      refine h.advance (.same rfl rfl) h.stores rfl ?_
      exact fun rid' t ht => Or.inl (slot_clear ht).2
  | began p http browserBinding verifier state nonce now flow store request hissue =>
      obtain ⟨-, -, -, -, hstore⟩ := FlowStore.issue_eq_ok hissue
      have hgood : store.Good := by
        refine ⟨(h.stores p).1.issue hl hissue, ?_⟩
        rw [hstore]
        exact (h.stores p).2
      have hlog : store.flows.log = .issued state flow :: (s.flows p).flows.log := by
        rw [hstore]
        rfl
      refine h.advance (.punch hlog rfl rfl) (good_update h.stores hgood) rfl ?_
      exact fun rid' t ht => Or.inl ht
  | consumed rid p state code binding now flow store phase hconsume hfirst =>
      obtain ⟨hgood, hlog⟩ := h.consume hconsume
      refine h.advance (.punch hlog rfl rfl) (good_update h.stores hgood) rfl ?_
      intro rid' t ht
      rcases slot_set ht with ⟨-, ht⟩ | ⟨rfl, rfl⟩
      · exact Or.inl ht
      · refine Or.inr ⟨rfl, first_fits hfirst rfl _ rfl rfl, fun _ => ?_,
          fun _ => h.unhanded hconsume⟩
        show _ ∈ (Function.update s.flows p store p).flows.log
        rw [Function.update_self, hlog]
        exact List.mem_cons_self
  | dropped rid p state code binding now flow store hconsume =>
      obtain ⟨hgood, hlog⟩ := h.consume hconsume
      refine h.advance (.punch hlog rfl rfl) (good_update h.stores hgood) rfl ?_
      exact fun rid' t ht => Or.inl (slot_clear ht).2
  | moved rid http clock t jwks phase htask hrespond =>
      have hheld := h.tasks rid t htask
      exact h.move htask (.same rfl rfl) h.stores rfl rfl (respond_fits hheld.fits hrespond)
  | retried l rid jwks t flow htask hgoogle =>
      have hheld := h.tasks rid t htask
      refine h.advance (.same rfl rfl) h.stores rfl ?_
      intro rid' t' ht
      rcases slot_set ht with ⟨-, ht⟩ | ⟨rfl, rfl⟩
      · exact Or.inl ht
      · refine Or.inr ⟨hheld.rid, hgoogle, ?_, ?_⟩
        all_goals exact nofun
  | resolved rid uid sessionId t identity evidence userId htask hphase hlink =>
      have hfits := (h.tasks rid t htask).fits
      unfold Task.Fits at hfits
      rw [hphase] at hfits
      exact h.move htask (.same rfl rfl) h.stores rfl rfl ⟨hfits.1, hfits.2, hlink⟩
  | provisioned rid uid sessionId t identity evidence userId db htask hphase huser =>
      have hfits := (h.tasks rid t htask).fits
      unfold Task.Fits at hfits
      rw [hphase] at hfits
      obtain ⟨hlink, hkept⟩ := resolveLink_provisionUser huser
      have hl : Later s ({ s with db }.move rid t (.issuing identity evidence userId)) :=
        ⟨fun p => List.Subset.refl _, hkept⟩
      exact h.move htask hl h.stores rfl rfl ⟨hfits.1, hfits.2, hlink⟩
  | handed rid fresh activeKid now t identity evidence userId bundle db htask hphase hissue =>
      exact h.hand htask hphase hissue _

theorem inv_run {db : Db} {ls : List Step}
    (h : Along (step env o cfg) FreshState (.start db) ls) :
    Inv o cfg (run (step env o cfg) (.start db) ls) :=
  run_invariant (step env o cfg) (Inv o cfg) inv_step (inv_start o cfg db) h

/-! ## Bundles -/

/-- A bundle with evidence, a consumed flow and a link is safe. -/
theorem Inv.safe (h : Inv o cfg s) {b : Handed} (hb : b ∈ s.handed) : b.Safe o cfg s := by
  obtain ⟨hredeemed, hshows, hlinked⟩ := h.handed b hb
  obtain ⟨hsound, httl⟩ := h.stores b.request.provider
  obtain ⟨⟨htime, hbinding⟩, hsub⟩ := Tickets.Sound.redeemed hsound _ _ _ hredeemed
  rw [httl] at htime
  have hspent := Tickets.mem_spent.mpr ⟨_, _, hredeemed⟩
  have hprovider := hshows.provider
  rw [hprovider] at hlinked
  refine ⟨hsub, htime, hbinding, List.count_eq_one_of_mem hsound.once hspent, ?_, ?_⟩
  · intro hgoogle
    rw [hgoogle] at hshows hlinked
    cases hevidence : b.evidence with
    | idToken encoded jwk clock =>
        rw [hevidence] at hshows
        obtain ⟨claims, hclaims, hidentity⟩ := hshows
        obtain ⟨key, hkey, hdecode⟩ := decodeIdToken_eq_ok hclaims
        obtain ⟨hnonce, -, hsubject⟩ := identityOf_eq_ok hidentity
        exact ⟨encoded, jwk, clock, key, claims, _, rfl, hkey, hdecode, hnonce, hsubject, hlinked⟩
    | profile response =>
        rw [hevidence] at hshows
        cases hshows
  · intro hgoogle
    cases hp : b.request.provider with
    | google => exact absurd hp hgoogle
    | naver =>
        rw [hp] at hshows hlinked
        cases hevidence : b.evidence with
        | idToken encoded jwk clock =>
            rw [hevidence] at hshows
            cases hshows
        | profile response =>
            rw [hevidence] at hshows
            exact ⟨response, b.identity, rfl, hshows, hlinked⟩
    | kakao =>
        rw [hp] at hshows
        cases hevidence : b.evidence <;> rw [hevidence] at hshows <;> cases hshows

/-- A callback that consumes nothing is answered at once. -/
theorem callback_unconsumed {rid : ℕ} {p : Provider} {state : String} {cookie : Option String}
    {now : ℤ} (h : Unconsumed s rid p state cookie now) (code : String) :
    ∃ answer, callback s rid p state code cookie now = s.answer rid answer := by
  unfold callback
  cases cookie with
  | none => exact ⟨_, rfl⟩
  | some binding =>
      simp only [Option.getD_some]
      split
      · exact ⟨_, rfl⟩
      · split
        · exact ⟨_, rfl⟩
        · next flow store hconsume => exact absurd hconsume (h binding rfl _)

/-- External logins are safe, and a callback whose consume raises changes nothing. -/
theorem external_login_safe (env : Env) (o : Outside) (cfg : Settings) (db : Db) (ls : List Step)
    (hfresh : Along (step env o cfg) FreshState (.start db) ls) :
    let s := run (step env o cfg) (.start db) ls
    (∀ h ∈ s.handed, h.Safe o cfg s) ∧ (s.handed.map Handed.key).Nodup ∧
      ∀ rid p state code cookie now, Unconsumed s rid p state cookie now →
        let s' := step env o cfg s (.callback rid p state code cookie now)
        s'.db = s.db ∧ s'.flows = s.flows ∧ s'.handed = s.handed ∧ s'.tasks rid = none := by
  have hinv := inv_run hfresh
  refine ⟨fun h hh => hinv.safe hh, hinv.once, ?_⟩
  intro rid p state code cookie now hun
  obtain ⟨answer, hanswer⟩ := callback_unconsumed hun code
  have hstep : step env o cfg (run (step env o cfg) (.start db) ls)
      (.callback rid p state code cookie now) = _ := hanswer
  simp only [hstep]
  exact ⟨rfl, rfl, rfl, Function.update_self ..⟩

/-! ## A run -/

/-- PyJWT and `urlparse` on the tokens and the addresses of the run below. -/
def labOutside : Outside where
  getUnverifiedHeader _ := .ok [("alg", .str "RS256"), ("kid", .str "key-1")]
  fromJwk _ := .ok ⟨3233, 17⟩
  decode _ _ audience issuer _ :=
    .ok [("iss", .str issuer), ("aud", .str audience), ("sub", .str "google-subject"),
      ("nonce", .str "nonce-2"), ("email", .str "learner@mail.test")]
  repr _ := ""
  urlError _ := none

def labSettings : Settings := ⟨"google-client", "naver-client", "kakao-key"⟩

/-- An active user with a Google link. -/
def labDb : Db :=
  { Db.empty with
    users := ⟨[⟨"u1", "learner@mail.test", none, .active, 1, 0, none⟩], by decide⟩
    links := ⟨[⟨"google", "google-subject", "u1"⟩], by decide⟩ }

/-- A response that must not be cached. -/
def answered (entries : Dict) : Http := .response "no-store" (.ok (.dict entries))

def discoveryDocument : Http :=
  answered [("issuer", .str expectedIssuer), ("authorization_endpoint", .str "https://g/auth"),
    ("token_endpoint", .str "https://g/token"), ("userinfo_endpoint", .str "https://g/info"),
    ("revocation_endpoint", .str "https://g/revoke"), ("jwks_uri", .str "https://g/jwks")]

/-- A login by Naver and one by Google, interleaved, and a replay of Naver's state. -/
def twoLogins : List Step :=
  [.login .naver discoveryDocument "browser-binding-123" "verifier-1" "state-1" "nonce-1" 100,
    .login .google discoveryDocument "browser-binding-456" "verifier-2" "state-2" "nonce-2" 100,
    .callback 1 .naver "state-1" "code-1" (some "browser-binding-123") 159,
    .callback 2 .google "state-2" "code-2" (some "browser-binding-456") 160,
    .response 2 discoveryDocument 160,
    .response 1 (answered [("access_token", .str "token")]) 160,
    .callback 3 .naver "state-1" "code-1" (some "browser-binding-123") 161,
    .response 2 (answered [("id_token", .str "id-token")]) 161,
    .response 1 (answered [("resultcode", .str "00"),
      ("response", .dict [("id", .str "naver-subject")])]) 161,
    .response 2 (answered [("keys", .list [.dict [("kid", .str "key-1")]])]) 162,
    .user 1 "u2" "", .user 2 "" "session-2", .bundle 1 "refresh-1" (some "kid") 162,
    .bundle 2 "refresh-2" (some "kid") 162]

/-- Both logins end with a bundle, the replay does not, and the bundles are safe. -/
theorem two_logins_safe :
    let s := run (step plainEnv labOutside labSettings) (.start labDb) twoLogins
    s.handed.map Handed.user = ["u1", "u2"] ∧ ∀ h ∈ s.handed, h.Safe labOutside labSettings s :=
  ⟨by decide +kernel,
    (external_login_safe plainEnv labOutside labSettings labDb twoLogins (by decide +kernel)).1⟩

end TemisLab.External
