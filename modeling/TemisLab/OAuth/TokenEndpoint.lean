/-
  `POST /oauth/token` from the octets of its body to its answer. The body is decoded and parsed
  before the `try`, so what these raise is not turned into the 400 of an invalid request.

  A call is its first step (`token`, as far as `state_store.take`), what other requests do, and
  its second step (`issue_bundle`).

  * `Granted`: under the key of an authorization code stands what `provider_callback` puts there,
    in every run, so neither the look-ups in the grant nor `client_by_id` fail.
  * `formOf_eq_none`: which bodies the two parsers refuse.
  * `token_answers_iff`: a call is answered 200, 400 or 401 exactly for the other bodies; a code
    is taken only for a body that is a `TokenRequest`, and it is the one the body names.
  * `token_lets_escape`: a body of ASCII letters that ends in an exception.
-/
import TemisLab.Lib.Percent
import TemisLab.Lib.Slots
import TemisLab.OAuth.Lineage

namespace TemisLab.OAuth

open TemisLab.Lib TemisLab.Sso

/-! ## The body -/

/-- `parse_qs((await request.body()).decode(), strict_parsing=True)`, with the values of a name
    in their order; `none` is a `ValueError`, which a `UnicodeDecodeError` is one of. -/
def formOf (body : List UInt8) : Option Form :=
  (Utf8.decodeStrict (body.map UInt8.toNat)).bind fun text =>
    (Percent.parseQsl false true text).map fun fields =>
      fields.map fun f => (String.ofList f.1, String.ofList f.2)

/-- `TokenRequest` from a body. -/
def requestOf (body : List UInt8) : Option TokenRequest := (formOf body).bind TokenRequest.ofForm

/-- Every piece of a text that is not empty has an equals sign. -/
def AllFields (text : List Char) : Prop := text = [] ∨ ∀ piece ∈ text.splitOn '&', '=' ∈ piece

instance (text : List Char) : Decidable (AllFields text) :=
  inferInstanceAs (Decidable (text = [] ∨ ∀ piece ∈ text.splitOn '&', '=' ∈ piece))

/-- The body is UTF-8, and each of its fields has an equals sign. -/
def Parses (body : List UInt8) : Prop :=
  ∃ text ∈ Utf8.decodeStrict (body.map UInt8.toNat), AllFields text

instance (body : List UInt8) : Decidable (Parses body) :=
  match h : Utf8.decodeStrict (body.map UInt8.toNat) with
  | none => .isFalse (by simp [Parses, h])
  | some text => decidable_of_iff (AllFields text) (by simp [Parses, h])

/-- Strict parsing raises for a piece without an equals sign. -/
theorem parseQsl_strict_eq_none {text : List Char} :
    Percent.parseQsl false true text = none ↔ ¬ AllFields text := by
  unfold Percent.parseQsl AllFields
  by_cases htext : text = []
  · simp [htext]
  · simp [htext]

theorem formOf_eq_none {body : List UInt8} : formOf body = none ↔ ¬ Parses body := by
  unfold formOf Parses
  cases hdecode : Utf8.decodeStrict (body.map UInt8.toNat) with
  | none => simp
  | some text =>
      rw [Option.bind_some, Option.map_eq_none_iff, parseQsl_strict_eq_none]
      simp

/-! ## What an authorization code stands for -/

/-- What `provider_callback` puts under an authorization code. -/
def IsGrant (v : Value) : Prop :=
  ∃ userId policy t, v = codeGrant userId policy t ∧
    clients.lookup policy.clientId = some policy

/-- The client of a callback in flight is registered; what a token request took is a grant. -/
def Task.Sound : Task → Prop
  | .login _ _ _ policy _ => clients.lookup policy.clientId = some policy
  | .issueCode _ _ _ policy _ => clients.lookup policy.clientId = some policy
  | .bundle _ grant _ => IsGrant grant
  | .exchange .. | .answered _ => True

structure Granted (env : Env) (s : Sys) : Prop where
  live : ∀ raw v d, s.redis.live (key env .authorizationCode raw) = some (v, d) → IsGrant v
  tasks : ∀ rid k, s.tasks rid = some k → k.Sound

variable {env : Env} {s t : Sys} {rid : ℕ}

theorem granted_start (db : Db) : Granted env (.start db) := by
  refine ⟨?_, ?_⟩
  · intro raw v d h
    cases h
  · intro rid k h
    cases h

/-- One request moved; what it put under an authorization code, if anything, is a grant. -/
theorem Granted.moved (h : Granted env s) {k : Task}
    (hlive : ∀ raw v d, t.redis.live (key env .authorizationCode raw) = some (v, d) →
      s.redis.live (key env .authorizationCode raw) = some (v, d) ∨ IsGrant v)
    (htasks : t.tasks = Function.update s.tasks rid (some k)) (hk : k.Sound) : Granted env t := by
  refine ⟨?_, ?_⟩
  · intro raw v d hl
    rcases hlive raw v d hl with hl | hv
    · exact h.live raw v d hl
    · exact hv
  · intro p k' hp
    rw [htasks] at hp
    rcases slot_set hp with ⟨-, hp⟩ | ⟨-, rfl⟩
    · exact h.tasks p k' hp
    · exact hk

/-- A value under another namespace is none of an authorization code. -/
theorem live_put_of_namespace {ns : Namespace} (hns : ns ≠ .authorizationCode)
    {redis : OneTime String Value Time ℕ} {raw raw' : String} {v v' : Value} {d d' : Time}
    (h : (redis.put (key env ns raw) v d).live (key env .authorizationCode raw') = some (v', d')) :
    redis.live (key env .authorizationCode raw') = some (v', d') := by
  rcases slot_set h with ⟨-, h⟩ | ⟨hk, -⟩
  · exact h
  · exact absurd (key_namespace hk).symm hns

theorem live_of_live_take {redis : OneTime String Value Time ℕ} {k k' : String} {now : Time}
    {v : Value} {d : Time} (h : (redis.take k rid now).2.live k' = some (v, d)) :
    redis.live k' = some (v, d) := (slot_clear h).2

/-- What a token request takes is a grant. -/
theorem Granted.taken (h : Granted env s) {code : String} {now : Time} {grant : Value}
    (htake : (s.redis.take (key env .authorizationCode code) rid now).1 = some grant) :
    IsGrant grant := by
  obtain ⟨d, hlive⟩ := OneTime.live_of_read htake
  exact h.live code grant d hlive

/-- The client of a valid request is registered. -/
theorem clientById_of_valid {r : TokenRequest} {grant : Value} (hgrant : IsGrant grant)
    (h : r.valid env grant = true) : ∃ policy, clientById r.clientId = .ok policy := by
  obtain ⟨userId, policy, tx, rfl, hpolicy⟩ := hgrant
  simp only [TokenRequest.valid, Bool.and_eq_true, decide_eq_true_eq] at h
  have hclient : policy.clientId = r.clientId := Option.some.inj h.1.1.2
  refine ⟨policy, ?_⟩
  unfold clientById
  rw [← hclient, hpolicy]

theorem lookup_of_requireClient {clientId redirectUri : String} {policy : ClientPolicy}
    (h : requireClient clientId redirectUri = .ok policy) :
    clients.lookup policy.clientId = some policy := by
  have hlookup := (requireClient_eq_ok h).1
  rw [clientId_of_lookup hlookup]
  exact hlookup

/-- A request is answered, and nothing is put. -/
theorem Granted.answer (h : Granted env s) {redis : OneTime String Value Time ℕ}
    (hredis : ∀ k v d, redis.live k = some (v, d) → s.redis.live k = some (v, d)) (a : Answer) :
    Granted env ({ s with redis }.answer rid a) :=
  h.moved (fun _ _ _ hl => .inl (hredis _ _ _ hl)) rfl trivial

theorem granted_callback (h : Granted env s) (state code : String) (now : Time) :
    Granted env (callback env s rid state code now) := by
  unfold callback
  dsimp only
  split
  · exact h.moved (fun _ _ _ hl => .inl (live_of_live_take hl)) rfl trivial
  · split
    · exact h.answer (fun _ _ _ hl => live_of_live_take hl) _
    · exact h.moved (fun _ _ _ hl => .inl (live_of_live_take hl)) rfl trivial

theorem granted_exchange (h : Granted env s) (state code : String)
    (transaction : Option OAuthTransaction) (now : Time) :
    Granted env (exchange env s rid state code transaction now) := by
  unfold exchange providerExchange
  dsimp only
  split
  · exact h.moved (fun _ _ _ hl => .inl (live_of_live_take hl)) rfl trivial
  · split
    · exact h.moved (fun _ _ _ hl => .inl (live_of_live_take hl)) rfl trivial
    · next policy hpolicy =>
        exact h.moved (fun _ _ _ hl => .inl (live_of_live_take hl)) rfl
          (lookup_of_requireClient hpolicy)

theorem granted_issueCode (h : Granted env s) {state code : String} {tx : OAuthTransaction}
    {policy : ClientPolicy} {l : Login}
    (htask : s.tasks rid = some (.issueCode state code tx policy l)) (raw : String) (now : Time) :
    Granted env (issueCode env s rid state code tx policy l raw now) := by
  refine h.moved (k := .answered _) ?_ rfl trivial
  intro raw' v d hl
  rcases slot_set hl with ⟨-, hl⟩ | ⟨-, he⟩
  · exact .inl hl
  · cases he
    exact .inr ⟨l.userId, policy, tx, rfl, h.tasks rid _ htask⟩

theorem granted_token (h : Granted env s) (form : Option Form) (now : Time) :
    Granted env (token env s rid form now) := by
  unfold token
  split
  · exact h.answer (fun _ _ _ hl => hl) _
  · split
    · exact h.answer (fun _ _ _ hl => hl) _
    · dsimp only
      split
      · exact h.answer (fun _ _ _ hl => live_of_live_take hl) _
      · next grant htake =>
          split
          · split
            · exact h.answer (fun _ _ _ hl => live_of_live_take hl) _
            · exact h.moved (fun _ _ _ hl => .inl (live_of_live_take hl)) rfl (h.taken htake)
          · exact h.answer (fun _ _ _ hl => live_of_live_take hl) _

theorem granted_bundle (h : Granted env s) (r : TokenRequest) (grant : Value)
    (policy : ClientPolicy) (fresh : String) (activeKid : Option String) (now : Time) :
    Granted env (bundle env s rid r grant policy fresh activeKid now) := by
  unfold bundle
  split
  · exact h.answer (fun _ _ _ hl => hl) _
  · split
    · exact h.answer (fun _ _ _ hl => hl) _
    · exact h.moved (fun _ _ _ hl => .inl hl) rfl trivial

theorem granted_step (s : Sys) (l : Label) (h : Granted env s) : Granted env (step env s l) := by
  cases l with
  | authorize rid query raw now =>
      simp only [step, authorize]
      split
      · exact h.answer (fun _ _ _ hl => hl) _
      · exact h.moved (fun _ _ _ hl => .inl (live_put_of_namespace (by decide) hl)) rfl trivial
  | fakeAuthorize rid state account raw now =>
      simp only [step, fakeAuthorize]
      split
      · exact h.answer (fun _ _ _ hl => hl) _
      · exact h.moved (fun _ _ _ hl => .inl (live_put_of_namespace (by decide) hl)) rfl trivial
  | callback rid state code now => exact granted_callback h state code now
  | exchange rid now =>
      simp only [step]
      split
      · exact granted_exchange h _ _ _ now
      · exact h
  | login rid uid =>
      simp only [step, login]
      split
      · next htask =>
          split
          · exact h.answer (fun _ _ _ hl => hl) _
          · have hsound := h.tasks rid _ htask
            exact h.moved (fun _ _ _ hl => .inl hl) rfl hsound
      · exact h
  | issueCode rid raw now =>
      simp only [step]
      split
      · next htask => exact granted_issueCode h htask raw now
      · exact h
  | token rid form now => exact granted_token h form now
  | bundle rid fresh activeKid now =>
      simp only [step]
      split
      · exact granted_bundle h _ _ _ fresh activeKid now
      · exact h
  | drop rid => exact ⟨h.live, fun p k hp => h.tasks p k (slot_clear hp).2⟩
  | other db => exact ⟨h.live, h.tasks⟩

theorem granted_run (db : Db) (ls : List Label) : Granted env (run (step env) (.start db) ls) :=
  run_always (step env) (Granted env) granted_step (granted_start db) ls

/-! ## One call -/

/-- The status of an answer; `none` is an exception that no handler catches. -/
def Answer.status : Answer → Option ℕ
  | .seeOther .. => some 303
  | .bundle _ => some 200
  | .refused status _ => some status
  | .unprocessable => some 422
  | .unissued .activeUserRequired => some 401
  | .raised _ | .unissued .integrity | .unissued .noActiveSigningKey => none

def Answer.Expected (a : Answer) : Prop := a.status ∈ [some 200, some 400, some 401]

instance (a : Answer) : Decidable a.Expected :=
  inferInstanceAs (Decidable (a.status ∈ [some 200, some 400, some 401]))

/-- The request a step is of. -/
def Label.owner : Label → Option ℕ
  | .authorize rid _ _ _ | .fakeAuthorize rid _ _ _ _ | .callback rid _ _ _ | .exchange rid _
  | .login rid _ | .issueCode rid _ _ | .token rid _ _ | .bundle rid _ _ _ | .drop rid => some rid
  | .other _ => none

/-- A request to the token endpoint: its body, what other requests do while it awaits Redis, and
    the refresh token, the active key and the clock of `issue_bundle`. -/
structure Call where
  rid : ℕ
  body : List UInt8
  now : Time
  meanwhile : List Label
  fresh : String
  kid : String
  later : Time

/-- The state after the first step of a call. -/
def Call.taken (c : Call) (env : Env) (s : Sys) : Sys :=
  step env s (.token c.rid (formOf c.body) c.now)

/-- The state its second step finds. -/
def Call.resumed (c : Call) (env : Env) (s : Sys) : Sys :=
  run (step env) (c.taken env s) c.meanwhile

/-- The state after it. -/
def Call.ended (c : Call) (env : Env) (s : Sys) : Sys :=
  step env (c.resumed env s) (.bundle c.rid c.fresh (some c.kid) c.later)

/-- No other request has the id of the call. -/
def Call.Alone (c : Call) : Prop := ∀ l ∈ c.meanwhile, l.owner ≠ some c.rid

/-- The refresh token that is drawn is not in use. -/
def Call.Draws (c : Call) (env : Env) (s : Sys) : Prop :=
  (c.resumed env s).db.refreshGrants.get (tokenDigest env c.fresh) = none

instance (c : Call) : Decidable c.Alone :=
  inferInstanceAs (Decidable (∀ l ∈ c.meanwhile, l.owner ≠ some c.rid))

instance (c : Call) (env : Env) (s : Sys) : Decidable (c.Draws env s) :=
  decidable_of_iff
    (((c.resumed env s).db.refreshGrants.get (tokenDigest env c.fresh)).isNone = true)
    Option.isNone_iff_eq_none

/-- The call is answered with one of the three statuses. -/
def Call.Answers (c : Call) (env : Env) (s : Sys) : Prop :=
  ∃ a, (c.ended env s).tasks c.rid = some (.answered a) ∧ a.Expected

/-- What a step of the call takes from Redis is the code of the request its body parses into. -/
def Call.TakesOwn (c : Call) (env : Env) (s : Sys) : Prop :=
  ∀ k, ((c.taken env s).redis.live k ≠ s.redis.live k ∨
      (c.ended env s).redis.live k ≠ (c.resumed env s).redis.live k) →
    ∃ r ∈ requestOf c.body, k = key env .authorizationCode r.code

theorem tasks_step_of_other {l : Label} (h : l.owner ≠ some rid) :
    (step env s l).tasks rid = s.tasks rid := by
  cases l with
  | other db => rfl
  | _ =>
      have hne : ∀ p, some p ≠ some rid → rid ≠ p := fun p hp he => hp (by rw [he])
      simp only [step, authorize, fakeAuthorize, callback, exchange, providerExchange, login,
        issueCode, token, bundle]
      repeat' split
      all_goals first | rfl | exact Function.update_of_ne (hne _ h) ..

theorem tasks_run_of_other {ls : List Label} (h : ∀ l ∈ ls, l.owner ≠ some rid) :
    (run (step env) s ls).tasks rid = s.tasks rid := by
  induction ls generalizing s with
  | nil => rfl
  | cons l ls ih =>
      have hrest := ih (s := step env s l) fun l' hl' => h l' (List.mem_cons_of_mem _ hl')
      exact hrest.trans (tasks_step_of_other (h l List.mem_cons_self))

/-- A form is answered, or waits for its bundle with a grant in hand. -/
theorem token_task (h : Granted env s) (rid : ℕ) (form : Form) (now : Time) :
    (∃ a, (token env s rid (some form) now).tasks rid = some (.answered a) ∧ a.Expected) ∨
      ∃ r grant policy, (token env s rid (some form) now).tasks rid =
        some (.bundle r grant policy) ∧ IsGrant grant := by
  have hanswer : ∀ (t : Sys) (a : Answer), a.Expected →
      ∃ a', (t.answer rid a).tasks rid = some (.answered a') ∧ a'.Expected :=
    fun t a ha => ⟨a, t.tasks_goOn_self rid _, ha⟩
  simp only [token]
  split
  · exact .inl (hanswer _ _ (by decide))
  · next r hr =>
      split
      · exact .inl (hanswer _ _ (by decide))
      · next grant htake =>
          split
          · next hvalid =>
              have hgrant := h.taken htake
              have hclient := clientById_of_valid hgrant hvalid
              split
              · next error herror =>
                  obtain ⟨policy, hpolicy⟩ := hclient
                  rw [hpolicy] at herror
                  cases herror
              · next policy hpolicy =>
                  exact .inr ⟨r, grant, policy, Sys.tasks_goOn_self .., hgrant⟩
          · exact .inl (hanswer _ _ (by decide))

/-- With a new refresh token and an active key, only the user can be refused. -/
theorem issueBundle_total {db : Db} {fresh : String}
    (hfresh : db.refreshGrants.get (tokenDigest env fresh) = none) (userId aud kid : String)
    (now : Time) : issueBundle env db userId aud none fresh (some kid) now =
        .error .activeUserRequired ∨
      ∃ b, issueBundle env db userId aud none fresh (some kid) now = .ok b := by
  unfold issueBundle
  cases hu : db.user userId with
  | none => exact .inl rfl
  | some user =>
      dsimp only
      by_cases hactive : user.status = .active
      · obtain ⟨grants, hgrants⟩ := db.refreshGrants.exists_insert
          { digest := tokenDigest env fresh, userId, audience := aud,
            expiresAt := now + 14 * 24 * 60 * 60 } hfresh
        have hbundle : bundleRefresh env db userId aud none fresh now =
            some (fresh, { db with refreshGrants := grants }) := by
          simp only [bundleRefresh, issueRefresh, hgrants, Option.map_some]
        rw [if_neg (not_not_intro hactive), hbundle]
        exact .inr ⟨_, rfl⟩
      · exact .inl (if_pos hactive)

/-- `issue_bundle` for a grant ends in an expected answer. -/
theorem bundle_task {grant : Value} (hgrant : IsGrant grant) {fresh : String}
    (hfresh : s.db.refreshGrants.get (tokenDigest env fresh) = none) (r : TokenRequest)
    (policy : ClientPolicy) (kid : String) (now : Time) :
    ∃ a, (bundle env s rid r grant policy fresh (some kid) now).tasks rid =
      some (.answered a) ∧ a.Expected := by
  obtain ⟨userId, policy', tx, rfl, -⟩ := hgrant
  have huser : (codeGrant userId policy' tx).lookup "user_id" = some userId := rfl
  simp only [bundle, huser]
  rcases issueBundle_total hfresh userId policy.audience kid now with herror | ⟨b, hok⟩
  · rw [herror]
    exact ⟨_, Sys.tasks_goOn_self .., by decide⟩
  · rw [hok]
    exact ⟨.bundle b.1, Sys.tasks_goOn_self .., List.mem_cons_self⟩

/-- The first step of a request takes nothing but the code it names. -/
theorem token_live {form : Option Form} {now : Time} {k : String}
    (h : (token env s rid form now).redis.live k ≠ s.redis.live k) :
    ∃ r ∈ form.bind TokenRequest.ofForm, k = key env .authorizationCode r.code := by
  have htake : ∀ (k' : String) (t : Sys), t.redis = (s.redis.take k' rid now).2 →
      t.redis.live k ≠ s.redis.live k → k = k' := by
    intro k' t ht hk
    by_contra hne
    rw [ht] at hk
    exact hk (Function.update_of_ne hne ..)
  unfold token at h
  cases form with
  | none => exact absurd rfl h
  | some form =>
      rw [Option.bind_some]
      dsimp only at h
      cases hr : TokenRequest.ofForm form with
      | none =>
          rw [hr] at h
          exact absurd rfl h
      | some r =>
          refine ⟨r, rfl, htake (key env .authorizationCode r.code) _ ?_ h⟩
          rw [hr]
          dsimp only
          repeat' split
          all_goals rfl

/-- The second step takes nothing. -/
theorem bundle_redis (r : TokenRequest) (grant : Value) (policy : ClientPolicy) (fresh : String)
    (activeKid : Option String) (now : Time) :
    (bundle env s rid r grant policy fresh activeKid now).redis = s.redis := by
  unfold bundle
  repeat' split
  all_goals rfl

theorem redis_step_bundle (fresh : String) (activeKid : Option String) (now : Time) :
    (step env s (.bundle rid fresh activeKid now)).redis = s.redis := by
  simp only [step]
  split
  · exact bundle_redis ..
  · rfl

theorem Call.takesOwn (c : Call) (s : Sys) : c.TakesOwn env s := by
  intro k hk
  rcases hk with hk | hk
  · exact token_live hk
  · rw [ended, redis_step_bundle] at hk
    exact absurd rfl hk

/-- What a call has to do after its first step it has to do when it goes on. -/
theorem Call.tasks_resumed {c : Call} (hc : c.Alone) (s : Sys) :
    (c.resumed env s).tasks c.rid = (c.taken env s).tasks c.rid := tasks_run_of_other hc

/-- A call that is answered stays so. -/
theorem Call.ended_of_answered {c : Call} {a : Answer}
    (h : (c.resumed env s).tasks c.rid = some (.answered a)) :
    (c.ended env s).tasks c.rid = some (.answered a) := by
  unfold ended
  simp only [step, h]

/-- A body that is not parsed ends in an exception. -/
theorem Call.raises {c : Call} (hc : c.Alone) (hbody : ¬ Parses c.body) (s : Sys) :
    (c.ended env s).tasks c.rid = some (.answered (.raised "ValueError")) := by
  refine ended_of_answered ?_
  rw [tasks_resumed hc, taken, formOf_eq_none.mpr hbody]
  exact Sys.tasks_goOn_self ..

/-- One that is parsed ends in an expected answer. -/
theorem Call.answers {c : Call} (hs : Granted env s) (hc : c.Alone) (hdraws : c.Draws env s)
    (hbody : Parses c.body) : c.Answers env s := by
  obtain ⟨form, hform⟩ : ∃ form, formOf c.body = some form := by
    rw [← Option.ne_none_iff_exists']
    exact fun hnone => formOf_eq_none.mp hnone hbody
  have hresumed : (c.resumed env s).tasks c.rid = (c.taken env s).tasks c.rid :=
    tasks_resumed hc s
  have htaken : c.taken env s = token env s c.rid (some form) c.now := by rw [taken, hform]; rfl
  rw [htaken] at hresumed
  rcases token_task hs c.rid form c.now with
    ⟨a, ha, hexpected⟩ | ⟨r, grant, policy, hk, hgrant⟩
  · exact ⟨a, ended_of_answered (hresumed.trans ha), hexpected⟩
  · have hended : c.ended env s =
        bundle env (c.resumed env s) c.rid r grant policy c.fresh (some c.kid) c.later := by
      unfold ended
      simp only [step, hresumed.trans hk]
    unfold Answers
    rw [hended]
    exact bundle_task hgrant hdraws r policy c.kid c.later

/-! ## The endpoint -/

/-- In every reachable state: a call is answered 200, 400 or 401, and takes no code but that of
    its `TokenRequest`, exactly if its body is parsed. -/
theorem token_answers_iff (env : Env) (db : Db) (ls : List Label) (c : Call) (hc : c.Alone)
    (hdraws : c.Draws env (run (step env) (.start db) ls)) :
    (c.Answers env (run (step env) (.start db) ls) ∧
      c.TakesOwn env (run (step env) (.start db) ls)) ↔ Parses c.body := by
  refine ⟨?_, fun h => ⟨c.answers (granted_run db ls) hc hdraws h, c.takesOwn _⟩⟩
  rintro ⟨⟨a, ha, hexpected⟩, -⟩
  by_contra hbody
  rw [c.raises hc hbody] at ha
  cases ha
  revert hexpected
  decide

/-- The octets of an ASCII text. -/
def ascii (text : String) : List UInt8 := text.toList.map fun c => UInt8.ofNat c.toNat

/-- A request of its own with an ASCII body. -/
def callOf (body : String) : Call where
  rid := 3
  body := ascii body
  now := 4
  meanwhile := [.token 4 (some sampleForm) 4]
  fresh := "refresh"
  kid := "kid"
  later := 5

/-- What the client of `sampleForm` sends. -/
def sampleBody : String :=
  "grant_type=authorization_code&client_id=temis-web&" ++
  "redirect_uri=http%3A%2F%2Flocalhost%3A3000%2Fauth%2Fcallback&code=code&" ++
  "code_verifier=" ++ sampleVerifier

/-- It is the one of `sampleForm`. -/
theorem formOf_sampleBody : formOf (callOf sampleBody).body = some sampleForm := by decide +kernel

theorem parses_sampleBody : Parses (callOf sampleBody).body := by
  by_contra hbody
  have hnone := formOf_eq_none.mpr hbody
  rw [formOf_sampleBody] at hnone
  cases hnone

theorem draws_sampleBody : (callOf sampleBody).Draws plainEnv
    (run (step plainEnv) (.start Db.empty) (sampleRun.take 6)) := by
  unfold Call.Draws Call.resumed Call.taken
  rw [formOf_sampleBody]
  decide +kernel

/-- The redemption of a sign-in, while another request sends the same code. -/
theorem token_answers_sample :
    (callOf sampleBody).Answers plainEnv
        (run (step plainEnv) (.start Db.empty) (sampleRun.take 6)) ∧
      (callOf sampleBody).TakesOwn plainEnv
        (run (step plainEnv) (.start Db.empty) (sampleRun.take 6)) :=
  (token_answers_iff plainEnv Db.empty (sampleRun.take 6) (callOf sampleBody) (by decide)
    draws_sampleBody).mpr parses_sampleBody

/-- A body that is a name without a value: the `ValueError` of `parse_qs` escapes. -/
theorem token_lets_escape : ¬ ∀ (env : Env) (db : Db) (ls : List Label) (c : Call), c.Alone →
    c.Draws env (run (step env) (.start db) ls) →
    c.Answers env (run (step env) (.start db) ls) ∧
      c.TakesOwn env (run (step env) (.start db) ls) := by
  intro h
  have hbody : ¬ Parses (callOf "grant_type").body := by decide +kernel
  obtain ⟨⟨a, ha, hexpected⟩, -⟩ :=
    h plainEnv Db.empty [] (callOf "grant_type") (by decide) (by decide +kernel)
  rw [Call.raises (by decide) hbody] at ha
  cases ha
  revert hexpected
  decide

end TemisLab.OAuth
