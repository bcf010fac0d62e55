/-
  The BFF and the SSO together: the logins of `TemisLab.Bff.Flow` and the authorization-code flow of
  `TemisLab.OAuth.CodeFlow`, where a callback's token exchange is a request to `/oauth/token` that
  the SSO serves among all others. Anybody may send anything to either side; a callback posts the
  body `OAuthTokenClient.exchange` makes, and goes on with what the SSO answers to this very
  request, or fails.

  * `Serves`: where the SSO stands with a request that the BFF posted.
  * `Linked`: what a callback has in hand goes back to a bundle for its own verifier.
  * `session_attested`: the account of a session is the one that approved the authorization request
    of the very login the session came of. A code that was issued for the challenge of another
    login, injected into a callback, leads to none.
-/
import TemisLab.Bff.Messages
import TemisLab.Bff.Sessions

namespace TemisLab.Bff

open TemisLab.Lib TemisLab.Sso

/-! ## States and steps -/

/-- The SSO, the BFF, the request to the SSO that a callback waits for, and the sessions created. -/
structure Realm where
  sso : OAuth.Sys
  bff : Server
  posted : ℕ → Option ℕ
  made : List Made

def Realm.start (db : Db) : Realm := ⟨.start db, .start, fun _ => none, []⟩

/-- A step of the SSO or of the BFF; a callback posts its token request, hears the answer, or its
    exchange raises. -/
inductive RealmStep where
  | sso (l : OAuth.Label)
  | bff (l : Step)
  | post (rid ssoRid : ℕ) (now : Time)
  | respond (rid : ℕ)
  | fail (rid : ℕ)

/-- A request that arrives at the SSO. -/
def arrives : OAuth.Label → Option ℕ
  | .authorize rid _ _ _ | .fakeAuthorize rid _ _ _ _ | .callback rid _ _ _ | .token rid _ _ =>
      some rid
  | _ => none

/-- A request id of the SSO is used again: nobody waits for the request that held it. -/
def unposted (posted : ℕ → Option ℕ) (arrived : Option ℕ) (rid : ℕ) : Option ℕ :=
  if posted rid = arrived then none else posted rid

/-- The JSON of a `TokenBundle`; `encode` is the signed token as a text. -/
def bundlePayload (encode : AccessToken → String) (b : TokenBundle) : List (String × String) :=
  [("user_id", b.userId), ("access_token", encode b.accessToken),
    ("refresh_token", b.refreshToken), ("token_type", "bearer")]

/-- `OAuthTokenClient.exchange` from the response on: a status other than 200 is refused. -/
def exchangedOf (encode : AccessToken → String) : OAuth.Answer → Exchanged
  | .bundle b => .tokens (bundlePayload encode b)
  | _ => .oauthFailed "token endpoint rejected authorization code"

def Realm.step (cfg : Config) (env : Env) (encode : AccessToken → String) (x : Realm) :
    RealmStep → Realm
  | .sso l =>
      { x with
        sso := OAuth.step env x.sso l
        posted := unposted x.posted (arrives l) }
  | .bff (.exchanged _ _) => x
  | .bff (.callback rid browser state code now) =>
      { x with
        bff := Bff.step cfg env x.bff (.callback rid browser state code now)
        posted := Function.update x.posted rid none }
  | .bff l =>
      { x with
        bff := Bff.step cfg env x.bff l
        made := (x.bff.makes cfg l).toList ++ x.made }
  | .post rid ssoRid now =>
      match x.bff.tasks rid, x.posted rid with
      | some (.exchanging _ _ code transaction), none =>
          { x with
            sso := OAuth.step env x.sso
              (.token ssoRid (OAuth.formOf (tokenBody cfg code transaction.verifier)) now)
            posted := Function.update (unposted x.posted (some ssoRid)) rid (some ssoRid) }
      | _, _ => x
  | .respond rid =>
      match (x.posted rid).bind x.sso.tasks with
      | some (.answered a) =>
          { x with
            bff := Bff.step cfg env x.bff (.exchanged rid (exchangedOf encode a))
            posted := Function.update x.posted rid none }
      | _ => x
  | .fail rid =>
      { x with
        bff := Bff.step cfg env x.bff (.exchanged rid .raised)
        posted := Function.update x.posted rid none }

/-- Raw tokens are new, and so are states, and the challenges of verifiers. -/
def NewTokens (env : Env) (x : Realm) : RealmStep → Prop
  | .sso l => OAuth.Fresh x.sso l
  | .bff (.login _ _ state verifier _) => ∀ g ∈ x.bff.begun, g.state ≠ state ∧
      OAuth.pkceChallenge env g.transaction.verifier ≠ OAuth.pkceChallenge env verifier
  | _ => True

instance (env : Env) (x : Realm) (l : RealmStep) : Decidable (NewTokens env x l) := by
  unfold NewTokens
  split <;> infer_instance

/-! ## A request that was posted -/

/-- Where the SSO stands with the request of a body, by the task it has for it. -/
def Serves (s : OAuth.Sys) (request : Option OAuth.TokenRequest) : Option OAuth.Task → Prop
  | none => True
  | some (.bundle r _ _) => request = some r
  | some (.answered a) => ∀ b, a = .bundle b → ∃ r, request = some r ∧ ⟨r, b⟩ ∈ s.redeemed
  | some _ => False

theorem redeemed_step (env : Env) (s : OAuth.Sys) (l : OAuth.Label) :
    s.redeemed ⊆ (OAuth.step env s l).redeemed := by
  cases l with
  | bundle rid fresh activeKid now =>
      simp only [OAuth.step]
      split
      · unfold OAuth.bundle
        split
        · exact List.Subset.refl _
        · split
          · exact List.Subset.refl _
          · exact List.subset_cons_self _ _
      · exact List.Subset.refl _
  | _ =>
      simp only [OAuth.step, OAuth.authorize, OAuth.fakeAuthorize, OAuth.callback, OAuth.exchange,
        OAuth.providerExchange, OAuth.login, OAuth.issueCode, OAuth.token]
      repeat' split
      all_goals exact List.Subset.refl _

theorem Serves.more {s s' : OAuth.Sys} {request : Option OAuth.TokenRequest}
    {task : Option OAuth.Task} (h : Serves s request task) (hsub : s.redeemed ⊆ s'.redeemed) :
    Serves s' request task := by
  match task with
  | none => trivial
  | some (.bundle _ _ _) => exact h
  | some (.answered _) =>
      intro b hb
      obtain ⟨r, hr, hmem⟩ := h b hb
      exact ⟨r, hr, hsub hmem⟩

/-- An answer without a bundle serves any request. -/
theorem serves_answer (s : OAuth.Sys) (rid : ℕ) (request : Option OAuth.TokenRequest)
    {a : OAuth.Answer} (ha : ∀ b, a ≠ .bundle b) :
    Serves (s.answer rid a) request ((s.answer rid a).tasks rid) := by
  unfold OAuth.Sys.answer
  rw [OAuth.Sys.tasks_goOn_self]
  exact fun b hb => absurd hb (ha b)

/-- The first step of a token request. -/
theorem serves_token (env : Env) (s : OAuth.Sys) (rid : ℕ) (body : List UInt8) (now : Time) :
    Serves (OAuth.step env s (.token rid (OAuth.formOf body) now)) (OAuth.requestOf body)
      ((OAuth.step env s (.token rid (OAuth.formOf body) now)).tasks rid) := by
  simp only [OAuth.step, OAuth.requestOf]
  unfold OAuth.token
  cases OAuth.formOf body with
  | none => exact serves_answer _ _ _ fun b h => by cases h
  | some form =>
      dsimp only [Option.bind_some]
      cases OAuth.TokenRequest.ofForm form with
      | none => exact serves_answer _ _ _ fun b h => by cases h
      | some r =>
          dsimp only
          split
          · exact serves_answer _ _ _ fun b h => by cases h
          · split
            · split
              · exact serves_answer _ _ _ fun b h => by cases h
              · rw [OAuth.Sys.tasks_goOn_self]
                rfl
            · exact serves_answer _ _ _ fun b h => by cases h

/-- `issue_bundle` in a token request. -/
theorem serves_bundle (env : Env) (s : OAuth.Sys) (rid : ℕ) (r : OAuth.TokenRequest)
    (grant : OAuth.Value) (policy : OAuth.ClientPolicy) (fresh : String)
    (activeKid : Option String) (now : Time) :
    Serves (OAuth.bundle env s rid r grant policy fresh activeKid now) (some r)
      ((OAuth.bundle env s rid r grant policy fresh activeKid now).tasks rid) := by
  unfold OAuth.bundle
  split
  · exact serves_answer _ _ _ fun b h => by cases h
  · split
    · exact serves_answer _ _ _ fun b h => by cases h
    · next b db hb =>
        have htask : ((OAuth.Sys.answer { s with db } rid (.bundle b)).tasks rid) =
            some (.answered (.bundle b)) := OAuth.Sys.tasks_goOn_self ..
        dsimp only
        rw [htask]
        intro b' hb'
        cases hb'
        exact ⟨r, rfl, List.mem_cons_self⟩

/-- Another step of the SSO. -/
theorem serves_step {env : Env} {s : OAuth.Sys} {request : Option OAuth.TokenRequest} {rid : ℕ}
    (h : Serves s request (s.tasks rid)) {l : OAuth.Label} (hl : arrives l ≠ some rid) :
    Serves (OAuth.step env s l) request ((OAuth.step env s l).tasks rid) := by
  by_cases howner : l.owner = some rid
  · cases l with
    | authorize _ _ _ _ => exact absurd howner hl
    | fakeAuthorize _ _ _ _ _ => exact absurd howner hl
    | callback _ _ _ _ => exact absurd howner hl
    | token _ _ _ => exact absurd howner hl
    | exchange p now =>
        cases howner
        simp only [OAuth.step]
        split
        · next htask =>
            rw [htask] at h
            exact h.elim
        · exact h
    | login p uid =>
        cases howner
        simp only [OAuth.step]
        split
        · next htask =>
            rw [htask] at h
            exact h.elim
        · exact h
    | issueCode p raw now =>
        cases howner
        simp only [OAuth.step]
        split
        · next htask =>
            rw [htask] at h
            exact h.elim
        · exact h
    | bundle p fresh activeKid now =>
        cases howner
        simp only [OAuth.step]
        split
        · next r grant policy htask =>
            rw [htask] at h
            have hr : request = some r := h
            rw [hr]
            exact serves_bundle env s _ r grant policy fresh activeKid now
        · exact h
    | drop p =>
        cases howner
        simp only [OAuth.step, Function.update_self]
        trivial
    | other db => cases howner
  · rw [OAuth.tasks_step_of_other howner]
    exact h.more (redeemed_step env s l)

/-! ## What a callback has in hand -/

/-- A field that is read is one that was posted. -/
theorem mem_of_lookup_tokenFields {cfg : Config} {code verifier name value : String}
    (h : ((tokenFields cfg code verifier).filter fun f => f.2 ≠ "").lookup name = some value) :
    (name, value) ∈ tokenFields cfg code verifier := by
  obtain ⟨before, after, hsplit, -⟩ := List.lookup_eq_some_iff.mp h
  have hmem : (name, value) ∈ (tokenFields cfg code verifier).filter fun f => f.2 ≠ "" := by
    rw [hsplit]
    exact List.mem_append_right _ List.mem_cons_self
  exact List.mem_of_mem_filter hmem

/-- What the BFF posts parses into its own client, code and verifier, if into anything. -/
theorem requestOf_tokenBody_eq_some {cfg : Config} {code verifier : String}
    {r : OAuth.TokenRequest} (h : OAuth.requestOf (tokenBody cfg code verifier) = some r) :
    r.clientId = cfg.clientId ∧ r.redirectUri = cfg.redirectUri ∧ r.code = code ∧
      r.codeVerifier = verifier := by
  unfold OAuth.requestOf at h
  rw [formOf_tokenBody, Option.bind_some] at h
  unfold OAuth.TokenRequest.ofForm at h
  obtain ⟨grantType, -, h⟩ := Option.bind_eq_some_iff.mp h
  obtain ⟨clientId, hclient, h⟩ := Option.bind_eq_some_iff.mp h
  obtain ⟨redirectUri, hredirect, h⟩ := Option.bind_eq_some_iff.mp h
  obtain ⟨code', hcode, h⟩ := Option.bind_eq_some_iff.mp h
  obtain ⟨codeVerifier, hverifier, h⟩ := Option.bind_eq_some_iff.mp h
  have hclient : clientId = cfg.clientId := by
    simpa [tokenFields] using mem_of_lookup_tokenFields hclient
  have hredirect : redirectUri = cfg.redirectUri := by
    simpa [tokenFields] using mem_of_lookup_tokenFields hredirect
  have hcode : code' = code := by simpa [tokenFields] using mem_of_lookup_tokenFields hcode
  have hverifier : codeVerifier = verifier := by
    simpa [tokenFields] using mem_of_lookup_tokenFields hverifier
  split at h
  · cases h
    exact ⟨hclient, hredirect, hcode, hverifier⟩
  · cases h

/-- The tokens of a bundle. -/
def tokensIn (encode : AccessToken → String) (b : TokenBundle) : Tokens where
  userId := b.userId
  accessToken := encode b.accessToken
  refreshToken := b.refreshToken

theorem checkTokens_exchangedOf {encode : AccessToken → String} {a : OAuth.Answer} {t : Tokens}
    (h : checkTokens (exchangedOf encode a) = .ok t) :
    ∃ b, a = .bundle b ∧ t = tokensIn encode b := by
  cases a with
  | bundle b =>
      refine ⟨b, rfl, ?_⟩
      have hb : checkTokens (exchangedOf encode (.bundle b)) = .ok (tokensIn encode b) := rfl
      rw [hb] at h
      cases h
      rfl
  | _ => cases h

/-- The tokens are those of a bundle the SSO gave for a request with this verifier. -/
def Realm.Backed (cfg : Config) (encode : AccessToken → String) (x : Realm) (verifier : String)
    (t : Tokens) : Prop :=
  ∃ r ∈ x.sso.redeemed, r.request.clientId = cfg.clientId ∧
    r.request.redirectUri = cfg.redirectUri ∧ r.request.codeVerifier = verifier ∧
    t = tokensIn encode r.bundle

theorem Realm.Backed.more {cfg : Config} {encode : AccessToken → String} {x x' : Realm}
    {verifier : String} {t : Tokens} (h : x.Backed cfg encode verifier t)
    (hsub : x.sso.redeemed ⊆ x'.sso.redeemed) : x'.Backed cfg encode verifier t := by
  obtain ⟨r, hr, hrest⟩ := h
  exact ⟨r, hsub hr, hrest⟩

/-- A callback waits for the SSO's request with its own body. -/
def Realm.Waits (cfg : Config) (x : Realm) (rid ssoRid : ℕ) : Prop :=
  ∃ browser state code transaction,
    x.bff.tasks rid = some (.exchanging browser state code transaction) ∧
      Serves x.sso (OAuth.requestOf (tokenBody cfg code transaction.verifier))
        (x.sso.tasks ssoRid)

/-- The session has the tokens of a bundle for the verifier of its own login. -/
def Realm.Own (cfg : Config) (encode : AccessToken → String) (x : Realm) (m : Made) : Prop :=
  ∃ g ∈ x.bff.begun, g.state = m.state ∧ ∃ t csrfToken,
    x.Backed cfg encode g.transaction.verifier t ∧ m.session = t.session csrfToken

structure Realm.Linked (cfg : Config) (env : Env) (encode : AccessToken → String) (x : Realm) :
    Prop where
  sso : x.sso.Inv env
  bff : Traced env x.bff
  challenges : (x.bff.begun.map fun g => OAuth.pkceChallenge env g.transaction.verifier).Nodup
  posted : ∀ rid ssoRid, x.posted rid = some ssoRid → x.Waits cfg rid ssoRid
  creating : ∀ rid browser state transaction t,
    x.bff.tasks rid = some (.creating browser state transaction t) →
      x.Backed cfg encode transaction.verifier t
  made : ∀ m ∈ x.made, x.Own cfg encode m

variable {cfg : Config} {env : Env} {encode : AccessToken → String} {x : Realm}

theorem linked_start (db : Db) : (Realm.start db).Linked cfg env encode where
  sso := OAuth.inv_start db
  bff := traced_start env
  challenges := List.nodup_nil
  posted _ _ h := by cases h
  creating _ _ _ _ _ h := by cases h
  made _ h := by cases h

/-- The SSO moves. -/
theorem Realm.Linked.serve (h : x.Linked cfg env encode) (henv : Function.Injective env.sha256)
    {l : OAuth.Label} (hl : OAuth.Fresh x.sso l) {posted : ℕ → Option ℕ}
    (hposted : ∀ rid ssoRid, posted rid = some ssoRid →
      Realm.Waits cfg { x with sso := OAuth.step env x.sso l } rid ssoRid) :
    Realm.Linked cfg env encode { x with sso := OAuth.step env x.sso l, posted } := by
  obtain ⟨rid, ha⟩ := OAuth.step_advance henv h.sso hl
  have hsub := redeemed_step env x.sso l
  refine ⟨h.sso.advance ha, h.bff, h.challenges, hposted, ?_, ?_⟩
  · intro rid browser state transaction t htask
    exact (h.creating rid browser state transaction t htask).more hsub
  · intro m hm
    obtain ⟨g, hg, hstate, t, csrfToken, hback, hsession⟩ := h.made m hm
    exact ⟨g, hg, hstate, t, csrfToken, hback.more hsub, hsession⟩

/-- Who waits for another request still does. -/
theorem Realm.Linked.waits (h : x.Linked cfg env encode) {l : OAuth.Label} {arrived : Option ℕ}
    (hl : arrives l = arrived) {rid ssoRid : ℕ}
    (hposted : unposted x.posted arrived rid = some ssoRid) :
    Realm.Waits cfg { x with sso := OAuth.step env x.sso l } rid ssoRid := by
  unfold unposted at hposted
  split at hposted
  · cases hposted
  · next hne =>
      obtain ⟨browser, state, code, transaction, htask, hserves⟩ := h.posted rid ssoRid hposted
      refine ⟨browser, state, code, transaction, htask, serves_step hserves ?_⟩
      rw [hl]
      intro he
      exact hne (hposted.trans he.symm)

/-- The BFF moves. -/
theorem Realm.Linked.move (h : x.Linked cfg env encode) {bff : Server} {posted : ℕ → Option ℕ}
    {made : List Made} (hbff : Traced env bff)
    (hchallenges : (bff.begun.map fun g => OAuth.pkceChallenge env g.transaction.verifier).Nodup)
    (hsub : x.bff.begun ⊆ bff.begun)
    (hposted : ∀ rid ssoRid, posted rid = some ssoRid →
      x.posted rid = some ssoRid ∧ bff.tasks rid = x.bff.tasks rid)
    (hcreating : ∀ rid browser state transaction t,
      bff.tasks rid = some (.creating browser state transaction t) →
        x.bff.tasks rid = some (.creating browser state transaction t) ∨
          x.Backed cfg encode transaction.verifier t)
    (hmade : ∀ m ∈ made, m ∈ x.made ∨ Realm.Own cfg encode { x with bff } m) :
    Realm.Linked cfg env encode { x with bff, posted, made } := by
  refine ⟨h.sso, hbff, hchallenges, ?_, ?_, ?_⟩
  · intro rid ssoRid hp
    obtain ⟨hold, hsame⟩ := hposted rid ssoRid hp
    obtain ⟨browser, state, code, transaction, htask, hserves⟩ := h.posted rid ssoRid hold
    exact ⟨browser, state, code, transaction, hsame.trans htask, hserves⟩
  · intro rid browser state transaction t htask
    rcases hcreating rid browser state transaction t htask with hold | hback
    · exact h.creating rid browser state transaction t hold
    · exact hback
  · intro m hm
    rcases hmade m hm with hold | hown
    · obtain ⟨g, hg, hrest⟩ := h.made m hold
      exact ⟨g, hsub hg, hrest⟩
    · exact hown

/-- A callback hears from its exchange. -/
theorem Realm.Linked.hears (h : x.Linked cfg env encode) (henv : Function.Injective env.sha256)
    (rid : ℕ) (outcome : Exchanged)
    (hback : ∀ browser state code transaction t,
      x.bff.tasks rid = some (.exchanging browser state code transaction) →
        checkTokens outcome = .ok t → x.Backed cfg encode transaction.verifier t) :
    Realm.Linked cfg env encode
      { x with
        bff := Bff.step cfg env x.bff (.exchanged rid outcome)
        posted := Function.update x.posted rid none } := by
  have ht : Traced env (Bff.step cfg env x.bff (.exchanged rid outcome)) :=
    traced_step henv x.bff _ h.bff trivial
  have hd := step_did cfg env x.bff (.exchanged rid outcome)
  generalize Bff.step cfg env x.bff (.exchanged rid outcome) = bff at hd ht ⊢
  cases hd with
  | stayed =>
      refine h.move ht h.challenges (List.Subset.refl _) ?_ ?_ fun _ hm => Or.inl hm
      · exact fun rid' ssoRid hp => ⟨(slot_clear hp).2, rfl⟩
      · exact fun _ _ _ _ _ htask => Or.inl htask
  | refused _ browser state code transaction _ detail htask hcheck =>
      refine h.move ht h.challenges (List.Subset.refl _) ?_ ?_ fun _ hm => Or.inl hm
      · intro rid' ssoRid hp
        obtain ⟨hne, hp⟩ := slot_clear hp
        exact ⟨hp, Function.update_of_ne hne _ _⟩
      · exact fun rid' _ _ _ _ htask => Or.inl (slot_clear htask).2
  | passed _ browser state code transaction _ tokens htask hcheck =>
      refine h.move ht h.challenges (List.Subset.refl _) ?_ ?_ fun _ hm => Or.inl hm
      · intro rid' ssoRid hp
        obtain ⟨hne, hp⟩ := slot_clear hp
        exact ⟨hp, Function.update_of_ne hne _ _⟩
      · intro rid' browser' state' transaction' t htask'
        rcases slot_set htask' with ⟨-, hold⟩ | ⟨-, he⟩
        · exact Or.inl hold
        · cases he
          exact Or.inr (hback browser state code transaction tokens htask hcheck)

/-- A login begins. -/
theorem Realm.Linked.login (h : x.Linked cfg env encode) (henv : Function.Injective env.sha256)
    (browser : ℕ) (returnTo state verifier : String) (now : Time)
    (hl : NewTokens env x (.bff (.login browser returnTo state verifier now))) :
    (x.step cfg env encode (.bff (.login browser returnTo state verifier now))).Linked cfg env
      encode := by
  have ht : Traced env (Bff.step cfg env x.bff (.login browser returnTo state verifier now)) :=
    traced_step henv x.bff _ h.bff fun g hg => (hl g hg).1
  have hd := step_did cfg env x.bff (.login browser returnTo state verifier now)
  show Realm.Linked cfg env encode
    { x with bff := Bff.step cfg env x.bff (.login browser returnTo state verifier now) }
  generalize Bff.step cfg env x.bff (.login browser returnTo state verifier now) = bff
    at hd ht ⊢
  cases hd with
  | stayed => exact h
  | began _ _ _ _ path _ hpath =>
      refine h.move ht ?_ (List.subset_cons_self _ _) (fun _ _ hp => ⟨hp, rfl⟩)
        (fun _ _ _ _ _ htask => Or.inl htask) fun _ hm => Or.inl hm
      rw [List.map_cons, List.nodup_cons]
      refine ⟨?_, h.challenges⟩
      intro hmem
      obtain ⟨g, hg, he⟩ := List.mem_map.mp hmem
      exact (hl g hg).2 he

/-- A callback arrives. -/
theorem Realm.Linked.callback (h : x.Linked cfg env encode) (henv : Function.Injective env.sha256)
    (rid browser : ℕ) (state code : String) (now : Time) :
    (x.step cfg env encode (.bff (.callback rid browser state code now))).Linked cfg env
      encode := by
  have ht : Traced env (Bff.step cfg env x.bff (.callback rid browser state code now)) :=
    traced_step henv x.bff _ h.bff trivial
  have hd := step_did cfg env x.bff (.callback rid browser state code now)
  show Realm.Linked cfg env encode
    { x with
      bff := Bff.step cfg env x.bff (.callback rid browser state code now)
      posted := Function.update x.posted rid none }
  generalize Bff.step cfg env x.bff (.callback rid browser state code now) = bff at hd ht ⊢
  cases hd with
  | stayed =>
      exact h.move ht h.challenges (List.Subset.refl _)
        (fun rid' ssoRid hp => ⟨(slot_clear hp).2, rfl⟩)
        (fun _ _ _ _ _ htask => Or.inl htask) fun _ hm => Or.inl hm
  | took _ _ _ _ _ transaction hread =>
      refine h.move ht h.challenges (List.Subset.refl _) ?_ ?_ fun _ hm => Or.inl hm
      · intro rid' ssoRid hp
        obtain ⟨hne, hp⟩ := slot_clear hp
        exact ⟨hp, Function.update_of_ne hne _ _⟩
      · intro rid' browser' state' transaction' t htask
        rcases slot_set htask with ⟨-, hold⟩ | ⟨-, he⟩
        · exact Or.inl hold
        · cases he
  | missed _ _ _ _ _ hread =>
      refine h.move ht h.challenges (List.Subset.refl _) ?_ ?_ fun _ hm => Or.inl hm
      · intro rid' ssoRid hp
        obtain ⟨hne, hp⟩ := slot_clear hp
        exact ⟨hp, Function.update_of_ne hne _ _⟩
      · exact fun rid' _ _ _ _ htask => Or.inl (slot_clear htask).2

/-- A session is created. -/
theorem Realm.Linked.create (h : x.Linked cfg env encode) (henv : Function.Injective env.sha256)
    (rid : ℕ) (sessionId csrfToken : String) (now : Time) :
    (x.step cfg env encode (.bff (.create rid sessionId csrfToken now))).Linked cfg env
      encode := by
  have ht : Traced env (Bff.step cfg env x.bff (.create rid sessionId csrfToken now)) :=
    traced_step henv x.bff _ h.bff trivial
  show Realm.Linked cfg env encode
    { x with
      bff := Bff.step cfg env x.bff (.create rid sessionId csrfToken now)
      made := (x.bff.makes cfg (.create rid sessionId csrfToken now)).toList ++ x.made }
  cases htask : x.bff.tasks rid with
  | none =>
      simp only [Bff.step, Server.makes, htask]
      exact h
  | some task =>
      cases task with
      | exchanging browser state code transaction =>
          simp only [Bff.step, Server.makes, htask]
          exact h
      | creating browser state transaction tokens =>
          obtain ⟨g, hg, hstate, htransaction⟩ := h.bff.tasks rid _ htask
          have hback := h.creating rid browser state transaction tokens htask
          simp only [Bff.step, htask] at ht
          simp only [Bff.step, Server.makes, htask]
          refine h.move ht h.challenges (List.Subset.refl _) ?_ ?_ ?_
          · intro rid' ssoRid hp
            refine ⟨hp, Function.update_of_ne ?_ _ _⟩
            -- a callback that creates its session waits for nothing
            rintro rfl
            obtain ⟨_, _, _, _, hwait, -⟩ := h.posted _ _ hp
            rw [htask] at hwait
            cases hwait
          · exact fun rid' _ _ _ _ htask => Or.inl (slot_clear htask).2
          · intro m hm
            rcases List.mem_cons.mp hm with rfl | hm
            · refine Or.inr ⟨g, hg, hstate, tokens, csrfToken, ?_, rfl⟩
              rw [htransaction]
              exact hback
            · exact Or.inl hm

/-- A callback posts its token request. -/
theorem Realm.Linked.post (h : x.Linked cfg env encode) (henv : Function.Injective env.sha256)
    (rid ssoRid : ℕ) (now : Time) : (x.step cfg env encode (.post rid ssoRid now)).Linked cfg env
      encode := by
  simp only [Realm.step]
  split
  · next browser state code transaction htask hnone =>
      have hfresh : OAuth.Fresh x.sso
          (.token ssoRid (OAuth.formOf (tokenBody cfg code transaction.verifier)) now) := trivial
      have hserves := serves_token env x.sso ssoRid (tokenBody cfg code transaction.verifier) now
      refine h.serve henv hfresh ?_
      intro rid' ssoRid' hp
      rcases slot_set hp with ⟨-, hp⟩ | ⟨hrid, hsso⟩
      · exact h.waits rfl hp
      · rw [hrid, hsso]
        refine ⟨browser, state, code, transaction, htask, ?_⟩
        dsimp only
        exact hserves
  · exact h

/-- The answer to its request reaches a callback. -/
theorem Realm.Linked.respond (h : x.Linked cfg env encode) (henv : Function.Injective env.sha256)
    (rid : ℕ) : (x.step cfg env encode (.respond rid)).Linked cfg env encode := by
  simp only [Realm.step]
  split
  · next a ha =>
      refine h.hears henv rid _ ?_
      intro browser state code transaction t htask hcheck
      obtain ⟨ssoRid, hp, hanswer⟩ := Option.bind_eq_some_iff.mp ha
      obtain ⟨b, rfl, rfl⟩ := checkTokens_exchangedOf hcheck
      obtain ⟨_, _, _, _, hwait, hserves⟩ := h.posted rid ssoRid hp
      rw [htask] at hwait
      cases hwait
      rw [hanswer] at hserves
      have hgiven : ∃ r, OAuth.requestOf (tokenBody cfg code transaction.verifier) = some r ∧
          ⟨r, b⟩ ∈ x.sso.redeemed := hserves b rfl
      obtain ⟨r, hr, hmem⟩ := hgiven
      obtain ⟨hclient, hredirect, -, hverifier⟩ := requestOf_tokenBody_eq_some hr
      exact ⟨⟨r, b⟩, hmem, hclient, hredirect, hverifier, rfl⟩
  · exact h

theorem linked_step (henv : Function.Injective env.sha256) (x : Realm) (l : RealmStep)
    (h : x.Linked cfg env encode) (hl : NewTokens env x l) :
    (x.step cfg env encode l).Linked cfg env encode := by
  cases l with
  | sso l => exact h.serve henv hl fun rid ssoRid hp => h.waits rfl hp
  | bff l =>
      cases l with
      | login browser returnTo state verifier now =>
          exact h.login henv browser returnTo state verifier now hl
      | callback rid browser state code now => exact h.callback henv rid browser state code now
      | exchanged rid outcome => exact h
      | create rid sessionId csrfToken now => exact h.create henv rid sessionId csrfToken now
  | post rid ssoRid now => exact h.post henv rid ssoRid now
  | respond rid => exact h.respond henv rid
  | fail rid =>
      refine h.hears henv rid _ ?_
      intro browser state code transaction t htask hcheck
      cases hcheck

theorem linked_run (henv : Function.Injective env.sha256) (db : Db) {ls : List RealmStep}
    (hl : Along (Realm.step cfg env encode) (NewTokens env) (.start db) ls) :
    (run (Realm.step cfg env encode) (.start db) ls).Linked cfg env encode :=
  run_invariant (Realm.step cfg env encode) (Realm.Linked cfg env encode) (linked_step henv)
    (linked_start db) hl

/-! ## Where a session comes from -/

/-- The login `g` that a session goes back to, the bundle `r` it holds, and the code, the
    authorization request and the account that the SSO gave this bundle for. -/
structure Attested (cfg : Config) (env : Env) (encode : AccessToken → String) (x : Realm) (m : Made)
    (g : Begun) (r : OAuth.Redeemed) (c : OAuth.Coded) (q : OAuth.AuthorizeQuery)
    (a : OAuth.Approval) : Prop where
  begun : g ∈ x.bff.begun
  state : g.state = m.state
  redeemed : r ∈ x.sso.redeemed
  lineage : OAuth.Lineage env x.sso r c q a
  client : q.clientId = cfg.clientId ∧ q.redirectUri = cfg.redirectUri
  challenge : q.codeChallenge = OAuth.pkceChallenge env g.transaction.verifier
  /-- The challenge of no other login. -/
  unique : ∀ g' ∈ x.bff.begun,
    q.codeChallenge = OAuth.pkceChallenge env g'.transaction.verifier → g' = g
  user : m.session.userId = c.login.userId
  access : m.session.accessToken = encode r.bundle.accessToken
  refresh : m.session.refreshToken = r.bundle.refreshToken

/-- Whoever sends what to the BFF and the SSO in whatever order: each session that a callback
    creates is for the account that approved, at the provider, the authorization request with the
    challenge of the login the callback completes, and it holds the tokens the SSO issued for the
    code of that request. -/
theorem session_attested (cfg : Config) (env : Env) (encode : AccessToken → String)
    (henv : Function.Injective env.sha256) (db : Db) (ls : List RealmStep)
    (hl : Along (Realm.step cfg env encode) (NewTokens env) (.start db) ls) :
    let x := run (Realm.step cfg env encode) (.start db) ls
    ∀ m ∈ x.made, ∃ g r c q a, Attested cfg env encode x m g r c q a := by
  intro x m hm
  have hx : x.Linked cfg env encode := linked_run henv db hl
  obtain ⟨g, hg, hstate, t, csrfToken, ⟨r, hr, hclient, hredirect, hverifier, rfl⟩, hsession⟩ :=
    hx.made m hm
  obtain ⟨c, q, a, hlineage⟩ := hx.sso.lineage hr
  have hchallenge : q.codeChallenge = OAuth.pkceChallenge env g.transaction.verifier := by
    rw [← hlineage.pkce, hverifier]
  refine ⟨g, r, c, q, a, ?_⟩
  exact
    { begun := hg
      state := hstate
      redeemed := hr
      lineage := hlineage
      client := ⟨hlineage.client.symm.trans hclient, hlineage.redirect.symm.trans hredirect⟩
      challenge := hchallenge
      unique := by
        intro g' hg' he
        exact List.inj_on_of_nodup_map hx.challenges hg' hg (he.symm.trans hchallenge)
      user := by rw [hsession]; exact hlineage.user
      access := by rw [hsession]; rfl
      refresh := by rw [hsession]; rfl }

/-! ## A sample run -/

/-- A login of browser 1 up to its code. -/
def approvedLogin : List RealmStep :=
  [.bff (.login 1 "/" "client-state-value" OAuth.sampleVerifier 0),
    .sso (.authorize 0 OAuth.sampleQuery "state" 0),
    .sso (.fakeAuthorize 1 "state" "learner" "provider-code" 1),
    .sso (.callback 2 "state" "provider-code" 2), .sso (.exchange 2 2), .sso (.login 2 "u1"),
    .sso (.issueCode 2 "code" 3)]

/-- Its callback, the token request and the session. -/
def redeemedLogin : List RealmStep :=
  approvedLogin ++
    [.bff (.callback 7 1 "client-state-value" "code" 4), .post 7 3 4,
      .sso (.bundle 3 "refresh" (some "kid") 5), .respond 7, .bff (.create 7 "session" "csrf" 6)]

/-- The learner's session, and where it comes from. -/
theorem learner_attested :
    let x := run (Realm.step labConfig plainEnv AccessToken.kid) (.start .empty) redeemedLogin
    ∃ m ∈ x.made, m.session.userId = "u1" ∧
      ∃ g r c q a, Attested labConfig plainEnv AccessToken.kid x m g r c q a := by
  intro x
  have hmade : ∃ m ∈ x.made, m.session.userId = "u1" := by decide +kernel
  obtain ⟨m, hm, huser⟩ := hmade
  exact ⟨m, hm, huser, session_attested labConfig plainEnv AccessToken.kid Function.injective_id
    .empty redeemedLogin (by decide +kernel) m hm⟩

/-- The same code in the callback of another login is refused. -/
example :
    (run (Realm.step labConfig plainEnv AccessToken.kid) (.start .empty)
      (approvedLogin ++ [.bff (.login 2 "/" "another-state-value"
          "fedcba9876543210fedcba9876543210fedcba9876543210fedcba9876543210" 3),
        .bff (.callback 8 2 "another-state-value" "code" 4), .post 8 4 4, .respond 8,
        .bff (.create 8 "session" "csrf" 5)])).made = [] := by
  decide +kernel

end TemisLab.Bff
