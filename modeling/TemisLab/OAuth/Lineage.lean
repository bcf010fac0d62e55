/-
  Where an authorization code and a bundle come from. `Advance` says once what a step does to
  the store, the history and the one request that moved; `Inv.advance` keeps the invariant
  over it and `step_advance` is the case analysis over the steps. What a request took it alone
  holds, so each ledger (the states coded, the provider codes exchanged, the codes redeemed)
  lists a token once, and what was put under a token leads back to the request that put it.
-/
import TemisLab.Lib.Slots
import TemisLab.OAuth.CodeFlow

namespace TemisLab.OAuth

open TemisLab.Lib TemisLab.Sso

variable {env : Env} {s t : Sys} {rid : ℕ}

/-! ## The history behind a value -/

/-- The request behind a value under a token. -/
def Sys.Produced (s : Sys) : Namespace → String → Value → Prop
  | .oauth, raw, v => ∃ q t, (raw, q) ∈ s.begun ∧ q.check = .ok t ∧ v = t.asdict
  | .providerCode, raw, v =>
      ∃ a ∈ s.approved, a.code = raw ∧
        ∃ identity, accounts.lookup a.account = some identity ∧ v = identity.result a.state
  | .authorizationCode, raw, v =>
      ∃ c ∈ s.coded, c.code = raw ∧ v = codeGrant c.login.userId c.policy c.transaction

/-- The callback for `state` and `code` has found a transaction of an accepted query, and a
    provider code an account was given for that very state. -/
structure Sys.Checked (s : Sys) (state code : String) (t : OAuthTransaction)
    (policy : ClientPolicy) (subject : String) : Prop where
  began : ∃ q, (state, q) ∈ s.begun ∧ q.check = .ok t
  approved : ∃ a ∈ s.approved, a.code = code ∧ a.state = state ∧
    accounts.lookup a.account = some ⟨t.provider, subject⟩
  client : requireClient t.clientId t.redirectUri = .ok policy

/-- The user of a login is the one `_oauth_user` returned. -/
def Login.Ran (env : Env) (l : Login) : Prop :=
  ∃ db, oauthUser env l.db l.subject l.role l.uid = .ok (l.userId, db)

/-- A code is in the store or was, and came of a checked callback and its login. -/
structure Coded.Traced (env : Env) (s : Sys) (c : Coded) : Prop where
  issued : s.redis.issued (key env .authorizationCode c.code) =
    some (codeGrant c.login.userId c.policy c.transaction)
  checked : s.Checked c.state c.providerCode c.transaction c.policy c.login.subject
  role : c.login.role = c.policy.defaultRole
  ran : c.login.Ran env

/-- What a request that got a bundle presented fits the code it named. -/
structure Redeemed.Fits (env : Env) (s : Sys) (r : Redeemed) (c : Coded) : Prop where
  coded : c ∈ s.coded
  code : c.code = r.request.code
  grantType : r.request.grantType = "authorization_code"
  client : r.request.clientId = c.policy.clientId
  redirect : r.request.redirectUri = c.transaction.redirectUri
  pkce : pkceChallenge env r.request.codeVerifier = c.transaction.codeChallenge
  user : r.bundle.userId = c.login.userId
  sub : r.bundle.accessToken.claims.sub = c.login.userId
  aud : r.bundle.accessToken.claims.aud = c.policy.audience

/-! ## The invariant -/

/-- The store's keys of the transactions that have a code. -/
def Sys.codedKeys (env : Env) (s : Sys) : List String :=
  s.coded.map fun c => key env .oauth c.state

def Sys.exchangedKeys (env : Env) (s : Sys) : List String :=
  s.exchanged.map (key env .providerCode)

def Sys.redeemedKeys (env : Env) (s : Sys) : List String :=
  s.redeemed.map fun r => key env .authorizationCode r.request.code

/-- A request holds the transaction it took, and no code has come of it. -/
def Sys.Owns (env : Env) (s : Sys) (rid : ℕ) (state : String) (t : OAuthTransaction) : Prop :=
  s.redis.Holds rid (key env .oauth state) t.asdict ∧ key env .oauth state ∉ s.codedKeys env

/-- What a request in flight has taken and checked. -/
def Sys.Holding (env : Env) (s : Sys) (rid : ℕ) : Task → Prop
  | .exchange _ _ none => True
  | .exchange state _ (some t) => s.Owns env rid state t
  | .login state code t policy subject =>
      s.Owns env rid state t ∧ s.Checked state code t policy subject
  | .issueCode state code t policy l =>
      s.Owns env rid state t ∧ s.Checked state code t policy l.subject ∧
        l.role = policy.defaultRole ∧ l.Ran env
  | .bundle r grant policy =>
      s.redis.Holds rid (key env .authorizationCode r.code) grant ∧
        key env .authorizationCode r.code ∉ s.redeemedKeys env ∧
        r.valid env grant = true ∧ clientById r.clientId = .ok policy
  | .answered _ => True

/-- What a request holds does not depend on the tables. -/
theorem Sys.Holding.withDb {k : Task} (h : s.Holding env rid k) (db : Db) :
    Sys.Holding env { s with db } rid k := by
  match k with
  | .exchange _ _ none => trivial
  | .exchange _ _ (some _) => exact h
  | .login .. => exact ⟨h.1, ⟨h.2.began, h.2.approved, h.2.client⟩⟩
  | .issueCode .. => exact ⟨h.1, ⟨h.2.1.began, h.2.1.approved, h.2.1.client⟩, h.2.2⟩
  | .bundle .. => exact h
  | .answered _ => trivial

structure Sys.Inv (env : Env) (s : Sys) : Prop where
  produced : ∀ ns raw v, s.redis.issued (key env ns raw) = some v → s.Produced ns raw v
  holding : ∀ p k, s.tasks p = some k → s.Holding env p k
  coded : s.redis.Ledger (s.codedKeys env)
  exchanged : s.redis.Ledger (s.exchangedKeys env)
  redeemed : s.redis.Ledger (s.redeemedKeys env)
  traced : ∀ c ∈ s.coded, c.Traced env s
  fits : ∀ r ∈ s.redeemed, ∃ c, r.Fits env s c

/-- What a step in which the request `rid` moves does. -/
structure Advance (env : Env) (rid : ℕ) (s t : Sys) : Prop where
  redis : s.redis.Later t.redis
  begun : s.begun ⊆ t.begun
  approved : s.approved ⊆ t.approved
  kept : s.coded ⊆ t.coded
  others : ∀ p, p ≠ rid → t.tasks p = s.tasks p
  produced : ∀ ns raw v, t.redis.issued (key env ns raw) = some v →
    s.redis.issued (key env ns raw) = some v ∨ t.Produced ns raw v
  holding : ∀ k, t.tasks rid = some k → t.Holding env rid k
  coded : t.redis.Enters rid (s.codedKeys env) (t.codedKeys env)
  exchanged : t.redis.Enters rid (s.exchangedKeys env) (t.exchangedKeys env)
  redeemed : t.redis.Enters rid (s.redeemedKeys env) (t.redeemedKeys env)
  traced : ∀ c ∈ t.coded, c ∈ s.coded ∨ c.Traced env t
  fits : ∀ r ∈ t.redeemed, r ∈ s.redeemed ∨ ∃ c, r.Fits env t c

namespace Advance

theorem produced_mono (h : Advance env rid s t) {ns : Namespace} {raw : String} {v : Value}
    (hv : s.Produced ns raw v) : t.Produced ns raw v := by
  cases ns with
  | oauth =>
      obtain ⟨q, tx, hq, hv⟩ := hv
      exact ⟨q, tx, h.begun hq, hv⟩
  | providerCode =>
      obtain ⟨a, ha, hv⟩ := hv
      exact ⟨a, h.approved ha, hv⟩
  | authorizationCode =>
      obtain ⟨c, hc, hv⟩ := hv
      exact ⟨c, h.kept hc, hv⟩

theorem checked_mono (h : Advance env rid s t) {state code subject : String}
    {tx : OAuthTransaction} {policy : ClientPolicy} (hc : s.Checked state code tx policy subject) :
    t.Checked state code tx policy subject := by
  obtain ⟨q, hq, hcheck⟩ := hc.began
  obtain ⟨a, ha, hrest⟩ := hc.approved
  exact ⟨⟨q, h.begun hq, hcheck⟩, ⟨a, h.approved ha, hrest⟩, hc.client⟩

/-- The code that comes of a transaction is its owner's. -/
theorem owns_mono (h : Advance env rid s t) {p : ℕ} (hp : p ≠ rid) {state : String}
    {tx : OAuthTransaction} (ho : s.Owns env p state tx) : t.Owns env p state tx :=
  have hold := ho.1.later h.redis
  ⟨hold, h.coded.not_mem ho.2 hold.taken hp⟩

/-- The requests that did not move hold what they held. -/
theorem holding_mono (h : Advance env rid s t) {p : ℕ} (hp : p ≠ rid) {k : Task}
    (hk : s.Holding env p k) : t.Holding env p k := by
  match k with
  | .exchange _ _ none => trivial
  | .exchange state _ (some tx) => exact h.owns_mono hp hk
  | .login state code tx policy subject => exact ⟨h.owns_mono hp hk.1, h.checked_mono hk.2⟩
  | .issueCode state code tx policy l =>
      exact ⟨h.owns_mono hp hk.1, h.checked_mono hk.2.1, hk.2.2⟩
  | .bundle r grant policy =>
      have hold := hk.1.later h.redis
      exact ⟨hold, h.redeemed.not_mem hk.2.1 hold.taken hp, hk.2.2⟩
  | .answered _ => trivial

end Advance

theorem Sys.Inv.advance (h : s.Inv env) (ha : Advance env rid s t) : t.Inv env where
  produced ns raw v hv := by
    rcases ha.produced ns raw v hv with hs | ht
    · exact ha.produced_mono (h.produced ns raw v hs)
    · exact ht
  holding p k hk := by
    by_cases hp : p = rid
    · rw [hp] at hk ⊢
      exact ha.holding k hk
    · rw [ha.others p hp] at hk
      exact ha.holding_mono hp (h.holding p k hk)
  coded := h.coded.advance ha.redis ha.coded
  exchanged := h.exchanged.advance ha.redis ha.exchanged
  redeemed := h.redeemed.advance ha.redis ha.redeemed
  traced c hc := by
    rcases ha.traced c hc with hs | ht
    · have hc := h.traced c hs
      exact ⟨ha.redis.issued _ _ hc.issued, ha.checked_mono hc.checked, hc.role, hc.ran⟩
    · exact ht
  fits r hr := by
    rcases ha.fits r hr with hs | ht
    · obtain ⟨c, hc⟩ := h.fits r hs
      exact ⟨c, { hc with coded := ha.kept hc.coded }⟩
    · exact ht

/-! ## The steps -/

theorem Advance.refl (h : s.Inv env) (rid : ℕ) : Advance env rid s s where
  redis := .refl s.redis
  begun := fun _ hx => hx
  approved := fun _ hx => hx
  kept := fun _ hx => hx
  others _ _ := rfl
  produced _ _ _ hv := Or.inl hv
  holding k hk := h.holding rid k hk
  coded := .same
  exchanged := .same
  redeemed := .same
  traced _ hc := Or.inl hc
  fits _ hr := Or.inl hr

/-- A step that puts nothing and enters nothing: a request takes, goes on or ends. -/
theorem Advance.turn {redis : OneTime String Value Time ℕ} (hlater : s.redis.Later redis)
    (hissued : redis.issued = s.redis.issued) (db : Db) {tasks : ℕ → Option Task}
    (hothers : ∀ p, p ≠ rid → tasks p = s.tasks p)
    (hk : ∀ k, tasks rid = some k → Sys.Holding env { s with db, redis, tasks } rid k) :
    Advance env rid s { s with db, redis, tasks } where
  redis := hlater
  begun := fun _ hx => hx
  approved := fun _ hx => hx
  kept := fun _ hx => hx
  others := hothers
  produced ns raw v hv := Or.inl (by rw [← hissued]; exact hv)
  holding := hk
  coded := .same
  exchanged := .same
  redeemed := .same
  traced _ hc := Or.inl hc
  fits _ hr := Or.inl hr

/-- A request goes on as `k`, perhaps after a take or a commit. -/
theorem Advance.goOn {redis : OneTime String Value Time ℕ} (hlater : s.redis.Later redis)
    (hissued : redis.issued = s.redis.issued) (db : Db) {k : Task}
    (hk : Sys.Holding env (Sys.goOn { s with db, redis } rid k) rid k) :
    Advance env rid s (Sys.goOn { s with db, redis } rid k) := by
  refine .turn hlater hissued db (fun p hp => Function.update_of_ne hp _ _) ?_
  intro k' hk'
  rw [Function.update_self] at hk'
  cases hk'
  exact hk

theorem Advance.answer {redis : OneTime String Value Time ℕ} (hlater : s.redis.Later redis)
    (hissued : redis.issued = s.redis.issued) (db : Db) (a : Answer) :
    Advance env rid s (Sys.answer { s with db, redis } rid a) :=
  .goOn hlater hissued db trivial

/-- A fresh token has no value in any namespace. -/
theorem Sys.Inv.issued_eq_none (h : s.Inv env) {raw : String} (hraw : raw ∉ s.drawn)
    (ns : Namespace) : s.redis.issued (key env ns raw) = none := by
  cases hv : s.redis.issued (key env ns raw) with
  | none => rfl
  | some v =>
      refine absurd ?_ hraw
      have := h.produced ns raw v hv
      unfold Sys.drawn
      rw [List.mem_append, List.mem_append]
      cases ns with
      | oauth =>
          obtain ⟨q, -, hq, -⟩ := this
          exact Or.inl (Or.inl (List.mem_map_of_mem hq))
      | providerCode =>
          obtain ⟨a, ha, rfl, -⟩ := this
          exact Or.inl (Or.inr (List.mem_map_of_mem ha))
      | authorizationCode =>
          obtain ⟨c, hc, rfl, -⟩ := this
          exact Or.inr (List.mem_map_of_mem hc)

/-- After a put, a value under a token is the one put or an old one. -/
theorem issued_put_key (henv : Function.Injective env.sha256)
    (redis : OneTime String Value Time ℕ) {ns ns' : Namespace}
    {raw raw' : String} {v v' : Value} {d : Time}
    (hv : (redis.put (key env ns raw) v d).issued (key env ns' raw') = some v') :
    redis.issued (key env ns' raw') = some v' ∨ ns' = ns ∧ raw' = raw ∧ v' = v := by
  rw [OneTime.issued_put] at hv
  rcases slot_set hv with ⟨-, hv⟩ | ⟨hk, hv⟩
  · exact Or.inl hv
  · obtain ⟨hns, hraw⟩ := (key_inj henv).mp hk
    exact Or.inr ⟨hns, hraw, hv⟩

/-- A request that has answered holds nothing. -/
theorem Sys.holding_answer {a : Answer} {k : Task} (hk : (s.answer rid a).tasks rid = some k)
    (t : Sys) : t.Holding env rid k := by
  unfold Sys.answer at hk
  rw [Sys.tasks_goOn_self] at hk
  cases hk
  trivial

/-- A request puts a value under a fresh token, with the history that explains it, and answers. -/
theorem Advance.draw (henv : Function.Injective env.sha256) (h : s.Inv env) {ns : Namespace}
    {raw : String} (hraw : raw ∉ s.drawn) (v : Value) (d : Time) (a : Answer)
    {begun : List (String × AuthorizeQuery)} {approved : List Approval}
    (hbegun : s.begun ⊆ begun) (happroved : s.approved ⊆ approved)
    (hv : Sys.Produced { s with begun, approved } ns raw v) :
    Advance env rid s
      { s.answer rid a with redis := s.redis.put (key env ns raw) v d, begun, approved } where
  redis := OneTime.later_put (h.issued_eq_none hraw ns) v d
  begun := hbegun
  approved := happroved
  kept := fun _ hx => hx
  others := s.tasks_goOn_of_ne rid _
  produced := by
    intro ns' raw' v' hv'
    rcases issued_put_key henv _ hv' with hv' | ⟨rfl, rfl, rfl⟩
    · exact Or.inl hv'
    · right
      cases ns' with
      | _ => exact hv
  holding := fun k hk => Sys.holding_answer hk _
  coded := .same
  exchanged := .same
  redeemed := .same
  traced := fun _ hc => Or.inl hc
  fits := fun _ hr => Or.inl hr

theorem advance_authorize (henv : Function.Injective env.sha256) (h : s.Inv env)
    (rid : ℕ) (query : AuthorizeQuery) {raw : String} (hraw : raw ∉ s.drawn) (now : Time) :
    Advance env rid s (authorize env s rid query raw now) := by
  unfold authorize
  split
  · exact .answer (.refl _) rfl s.db _
  · next tx hq =>
      refine .draw henv h hraw tx.asdict (now + 300) _ (List.subset_cons_self _ _)
        (fun _ hx => hx) ?_
      exact ⟨query, tx, List.mem_cons_self, hq, rfl⟩

theorem advance_fakeAuthorize (henv : Function.Injective env.sha256) (h : s.Inv env)
    (rid : ℕ) (state account : String) {raw : String} (hraw : raw ∉ s.drawn) (now : Time) :
    Advance env rid s (fakeAuthorize env s rid state account raw now) := by
  unfold fakeAuthorize
  split
  · exact .answer (.refl _) rfl s.db _
  · next identity hi =>
      refine .draw henv h hraw (identity.result state) (now + 60) _ (fun _ hx => hx)
        (List.subset_cons_self _ _) ?_
      exact ⟨_, List.mem_cons_self, rfl, identity, hi, rfl⟩

/-- A transaction taken under a state was begun with that state. -/
theorem Sys.Inv.began (h : s.Inv env) {state : String} {v : Value} {tx : OAuthTransaction}
    (hv : s.redis.issued (key env .oauth state) = some v)
    (htx : OAuthTransaction.ofDict v = some tx) :
    v = tx.asdict ∧ ∃ q, (state, q) ∈ s.begun ∧ q.check = .ok tx := by
  obtain ⟨q, tx', hq, hcheck, rfl⟩ := h.produced .oauth state v hv
  rw [OAuthTransaction.ofDict_asdict] at htx
  cases htx
  exact ⟨rfl, q, hq, hcheck⟩

theorem advance_callback (h : s.Inv env) (rid : ℕ) (state code : String) (now : Time) :
    Advance env rid s (callback env s rid state code now) := by
  have hlater := OneTime.later_take s.redis (key env .oauth state) rid now
  unfold callback
  simp only
  split
  · exact .goOn hlater rfl s.db trivial
  · next v hv =>
      split
      · exact .answer hlater rfl s.db _
      · next tx htx =>
          have hold := OneTime.holds_take hv
          have htx := (h.began hold.issued htx).1
          rw [htx] at hold
          exact .goOn hlater rfl s.db ⟨hold, h.coded.not_mem_of_take hv⟩

/-- What `callbackResult` has compared. -/
theorem callbackResult_eq_some {state subject : String} {transaction : Option OAuthTransaction}
    {providerResult : Option Value} {tx : OAuthTransaction}
    (h : callbackResult state transaction providerResult = some (tx, subject)) :
    transaction = some tx ∧ ∃ result, providerResult = some result ∧
      result.lookup "state" = some state ∧ result.lookup "provider" = some tx.provider ∧
      result.lookup "provider_subject" = some subject := by
  unfold callbackResult at h
  split at h
  · next tx' result =>
      split at h
      · cases h
      · next hne =>
          obtain ⟨subject', hs, he⟩ := Option.map_eq_some_iff.mp h
          cases he
          push Not at hne
          exact ⟨rfl, result, rfl, hne.1, hne.2, hs⟩
  · cases h

theorem advance_providerExchange (h : s.Inv env) (rid : ℕ) (code : String) (now : Time) {k : Task}
    (hk : ((providerExchange env s rid code now).2.goOn rid k).Holding env rid k) :
    Advance env rid s ((providerExchange env s rid code now).2.goOn rid k) where
  redis := OneTime.later_take s.redis (key env .providerCode code) rid now
  begun := fun _ hx => hx
  approved := fun _ hx => hx
  kept := fun _ hx => hx
  others := s.tasks_goOn_of_ne rid k
  produced _ _ _ hv := Or.inl hv
  holding := by
    intro k' hk'
    rw [Sys.tasks_goOn_self] at hk'
    cases hk'
    exact hk
  coded := .same
  exchanged := by
    show OneTime.Enters (s.redis.take (key env .providerCode code) rid now).2 rid _
      (List.map _ (if (s.redis.take (key env .providerCode code) rid now).1.isSome then
        code :: s.exchanged else s.exchanged))
    split
    · next hv =>
        obtain ⟨v, hv⟩ := Option.isSome_iff_exists.mp hv
        exact .enter _ (h.exchanged.not_mem_of_take hv) (OneTime.holds_take hv).taken
    · exact .same
  redeemed := .same
  traced _ hc := Or.inl hc
  fits _ hr := Or.inl hr

theorem advance_exchange (h : s.Inv env) (rid : ℕ) (state code : String)
    (transaction : Option OAuthTransaction) (now : Time)
    (hrid : s.tasks rid = some (.exchange state code transaction)) :
    Advance env rid s (exchange env s rid state code transaction now) := by
  have hlater := OneTime.later_take s.redis (key env .providerCode code) rid now
  have hholding := h.holding rid _ hrid
  unfold exchange
  simp only
  split
  · exact advance_providerExchange h rid code now trivial
  · next tx subject hr =>
      split
      · exact advance_providerExchange h rid code now trivial
      · next policy hp =>
          obtain ⟨rfl, result, hv, hstate, hprovider, hsubject⟩ := callbackResult_eq_some hr
          have howns : s.Owns env rid state tx := hholding
          have hbegan := (h.began howns.1.issued (OAuthTransaction.ofDict_asdict tx)).2
          have hold : (s.redis.take (key env .providerCode code) rid now).2.Holds rid _ result :=
            OneTime.holds_take hv
          obtain ⟨a, ha, hcode, identity, hi, rfl⟩ :=
            h.produced .providerCode code result hold.issued
          obtain rfl : a.state = state := Option.some.inj hstate
          obtain rfl : identity.providerSubject = subject := Option.some.inj hsubject
          have hi : accounts.lookup a.account = some ⟨tx.provider, identity.providerSubject⟩ := by
            rw [hi, ← Option.some.inj hprovider]
          refine advance_providerExchange h rid code now ⟨⟨howns.1.later hlater, howns.2⟩, ?_⟩
          exact ⟨hbegan, ⟨a, ha, hcode, rfl, hi⟩, hp⟩

theorem advance_login (h : s.Inv env) (rid : ℕ) (state code : String) (tx : OAuthTransaction)
    (policy : ClientPolicy) (subject uid : String)
    (hrid : s.tasks rid = some (.login state code tx policy subject)) :
    Advance env rid s (login env s rid state code tx policy subject uid) := by
  obtain ⟨howns, hchecked⟩ := h.holding rid _ hrid
  unfold login
  split
  · exact .answer (.refl _) rfl s.db _
  · next userId db hlogin =>
      refine .goOn (.refl _) rfl db ⟨howns, ?_, rfl, db, hlogin⟩
      exact ⟨hchecked.began, hchecked.approved, hchecked.client⟩

theorem advance_issueCode (henv : Function.Injective env.sha256) (h : s.Inv env)
    (rid : ℕ) (state code : String) (tx : OAuthTransaction) (policy : ClientPolicy) (l : Login)
    (hrid : s.tasks rid = some (.issueCode state code tx policy l)) {raw : String}
    (hraw : raw ∉ s.drawn) (now : Time) :
    Advance env rid s (issueCode env s rid state code tx policy l raw now) := by
  obtain ⟨howns, hchecked, hrole, hran⟩ := h.holding rid _ hrid
  have hlater : s.redis.Later (s.redis.put (key env .authorizationCode raw) _ (now + 60)) :=
    OneTime.later_put (h.issued_eq_none hraw .authorizationCode) (codeGrant l.userId policy tx) _
  exact
    { redis := hlater
      begun := fun _ hx => hx
      approved := fun _ hx => hx
      kept := List.subset_cons_self _ _
      others := s.tasks_goOn_of_ne rid _
      produced := by
        intro ns raw' v hv
        rcases issued_put_key henv _ hv with hv | ⟨rfl, rfl, rfl⟩
        · exact Or.inl hv
        · exact Or.inr ⟨_, List.mem_cons_self, rfl, rfl⟩
      holding := fun k hk => Sys.holding_answer hk _
      coded := .enter _ howns.2 (howns.1.later hlater).taken
      exchanged := .same
      redeemed := .same
      traced := by
        intro c hc
        rcases List.mem_cons.mp hc with rfl | hc
        · exact Or.inr ⟨Function.update_self .., ⟨hchecked.began, hchecked.approved,
            hchecked.client⟩, hrole, hran⟩
        · exact Or.inl hc
      fits := fun _ hr => Or.inl hr }

theorem advance_token (h : s.Inv env) (rid : ℕ) (form : Option Form) (now : Time) :
    Advance env rid s (token env s rid form now) := by
  unfold token
  split
  · exact .answer (.refl _) rfl s.db _
  · next form =>
      split
      · exact .answer (.refl _) rfl s.db _
      · next r hr =>
          have hlater := OneTime.later_take s.redis (key env .authorizationCode r.code) rid now
          simp only
          split
          · exact .answer hlater rfl s.db _
          · next grant hv =>
              split
              · next hvalid =>
                  split
                  · exact .answer hlater rfl s.db _
                  · next policy hp =>
                      exact .goOn hlater rfl s.db
                        ⟨OneTime.holds_take hv, h.redeemed.not_mem_of_take hv, hvalid, hp⟩
              · exact .answer hlater rfl s.db _

/-- What `valid` has compared, on the grant of a code. -/
theorem TokenRequest.valid_codeGrant {r : TokenRequest} {userId : String} {policy : ClientPolicy}
    {tx : OAuthTransaction} (h : r.valid env (codeGrant userId policy tx) = true) :
    r.grantType = "authorization_code" ∧ r.clientId = policy.clientId ∧
      r.redirectUri = tx.redirectUri ∧ pkceChallenge env r.codeVerifier = tx.codeChallenge := by
  simp only [TokenRequest.valid, Bool.and_eq_true, decide_eq_true_eq] at h
  obtain ⟨⟨⟨hgrant, hclient⟩, hredirect⟩, hpkce⟩ := h
  exact ⟨hgrant, (Option.some.inj hclient).symm, (Option.some.inj hredirect).symm,
    (Option.some.inj hpkce).symm⟩

/-- A bundle for a valid grant fits the code the grant is under. -/
theorem fits_of_valid (h : s.Inv env) {c : Coded} (hc : c ∈ s.coded) {r : TokenRequest}
    {policy : ClientPolicy} {b : TokenBundle} {db : Db} {fresh : String}
    {activeKid : Option String} {now : Time} (hcode : c.code = r.code)
    (hvalid : r.valid env (codeGrant c.login.userId c.policy c.transaction) = true)
    (hpolicy : clientById r.clientId = .ok policy)
    (hb : issueBundle env s.db c.login.userId policy.audience none fresh activeKid now =
      .ok (b, db)) : Redeemed.Fits env s ⟨r, b⟩ c := by
  obtain ⟨hgrant, hclient, hredirect, hpkce⟩ := TokenRequest.valid_codeGrant hvalid
  obtain ⟨user, kid, -, -, -, huser, haccess, -⟩ := issueBundle_eq_ok hb
  have hlookup := (requireClient_eq_ok (h.traced c hc).checked.client).1
  have hsame : policy = c.policy := by
    have hp := clientById_eq_ok hpolicy
    rw [hclient, clientId_of_lookup hlookup, hlookup] at hp
    exact (Option.some.inj hp).symm
  exact
    { coded := hc
      code := hcode
      grantType := hgrant
      client := hclient
      redirect := hredirect
      pkce := hpkce
      user := huser
      sub := by rw [haccess]; rfl
      aud := by rw [haccess, ← hsame]; rfl }

theorem advance_bundle (h : s.Inv env) (rid : ℕ) (r : TokenRequest) (grant : Value)
    (policy : ClientPolicy) (hrid : s.tasks rid = some (.bundle r grant policy)) (fresh : String)
    (activeKid : Option String) (now : Time) :
    Advance env rid s (bundle env s rid r grant policy fresh activeKid now) := by
  obtain ⟨hold, hnew, hvalid, hpolicy⟩ := h.holding rid _ hrid
  obtain ⟨c, hc, hcode, rfl⟩ := h.produced .authorizationCode r.code grant hold.issued
  unfold bundle
  split
  · exact .answer (.refl _) rfl s.db _
  · next userId hu =>
      cases hu
      split
      · exact .answer (.refl _) rfl s.db _
      · next b db hb =>
          have hfits := fits_of_valid h hc hcode hvalid hpolicy hb
          exact
            { redis := .refl s.redis
              begun := fun _ hx => hx
              approved := fun _ hx => hx
              kept := fun _ hx => hx
              others := s.tasks_goOn_of_ne rid _
              produced := fun _ _ _ hv => Or.inl hv
              holding := fun k hk => Sys.holding_answer hk _
              coded := .same
              exchanged := .same
              redeemed := .enter _ hnew hold.taken
              traced := fun _ hx => Or.inl hx
              fits := by
                intro r' hr'
                rcases List.mem_cons.mp hr' with rfl | hr'
                · exact Or.inr ⟨c, { hfits with }⟩
                · exact Or.inl hr' }

/-- Every step is one request's. -/
theorem step_advance (henv : Function.Injective env.sha256) (h : s.Inv env) {l : Label}
    (hl : Fresh s l) : ∃ rid, Advance env rid s (step env s l) := by
  cases l with
  | authorize rid query raw now => exact ⟨rid, advance_authorize henv h rid query hl now⟩
  | fakeAuthorize rid state account raw now =>
      exact ⟨rid, advance_fakeAuthorize henv h rid state account hl now⟩
  | callback rid state code now => exact ⟨rid, advance_callback h rid state code now⟩
  | exchange rid now =>
      refine ⟨rid, ?_⟩
      simp only [step]
      split
      · next state code tx hrid => exact advance_exchange h rid state code tx now hrid
      · exact .refl h rid
  | login rid uid =>
      refine ⟨rid, ?_⟩
      simp only [step]
      split
      · next state code tx policy subject hrid =>
          exact advance_login h rid state code tx policy subject uid hrid
      · exact .refl h rid
  | issueCode rid raw now =>
      refine ⟨rid, ?_⟩
      simp only [step]
      split
      · next state code tx policy l hrid =>
          exact advance_issueCode henv h rid state code tx policy l hrid hl now
      · exact .refl h rid
  | token rid form now => exact ⟨rid, advance_token h rid form now⟩
  | bundle rid fresh activeKid now =>
      refine ⟨rid, ?_⟩
      simp only [step]
      split
      · next r grant policy hrid =>
          exact advance_bundle h rid r grant policy hrid fresh activeKid now
      · exact .refl h rid
  | drop rid =>
      refine ⟨rid, .turn (.refl _) rfl s.db (fun p hp => Function.update_of_ne hp _ _) ?_⟩
      intro k hk
      rw [Function.update_self] at hk
      cases hk
  | other db =>
      refine ⟨0, .turn (.refl _) rfl db (fun _ _ => rfl) ?_⟩
      intro k hk
      exact (h.holding 0 k hk).withDb db

/-! ## Runs -/

theorem inv_start (db : Db) : (Sys.start db).Inv env where
  produced := nofun
  holding := nofun
  coded := ⟨List.nodup_nil, nofun⟩
  exchanged := ⟨List.nodup_nil, nofun⟩
  redeemed := ⟨List.nodup_nil, nofun⟩
  traced := nofun
  fits := nofun

/-- The invariant of a run, and what its store keeps of the one it began with. -/
theorem run_inv (henv : Function.Injective env.sha256) (h : s.Inv env) {ls : List Label}
    (hfresh : Along (step env) Fresh s ls) :
    (run (step env) s ls).Inv env ∧ s.redis.Later (run (step env) s ls).redis := by
  refine run_invariant (step env) (fun t => t.Inv env ∧ s.redis.Later t.redis) ?_
    ⟨h, .refl s.redis⟩ hfresh
  rintro t l ⟨ht, hlater⟩ hl
  obtain ⟨rid, ha⟩ := step_advance henv ht hl
  exact ⟨ht.advance ha, hlater.trans ha.redis⟩

/-- Every request that names the code is refused. -/
def Sys.Unusable (env : Env) (s : Sys) (code : String) : Prop :=
  ∀ rid form r now, TokenRequest.ofForm form = some r → r.code = code →
    (step env s (.token rid (some form) now)).tasks rid =
      some (.answered (.refused 401 "invalid authorization code"))

theorem unusable_of_spent {code : String}
    (h : s.redis.Spent (key env .authorizationCode code)) : s.Unusable env code := by
  rintro rid form r now hr rfl
  show (token env s rid (some form) now).tasks rid = _
  unfold token
  simp only [hr, h.take_eq_none rid now]
  exact Sys.tasks_goOn_self ..

/-- A token request that parses spends the code it names, whatever else it says. -/
theorem spent_token {form : Form} {r : TokenRequest} (hr : TokenRequest.ofForm form = some r)
    (hcode : s.redis.issued (key env .authorizationCode r.code) ≠ none) (rid : ℕ) (now : Time) :
    (step env s (.token rid (some form) now)).redis.Spent (key env .authorizationCode r.code) := by
  have hspent := OneTime.spent_take hcode rid now
  show (token env s rid (some form) now).redis.Spent _
  unfold token
  simp only [hr]
  split
  · exact hspent
  · split
    · split <;> exact hspent
    · exact hspent

/-- Everything a bundle goes back to: the code its request named, the query whose transaction
    the code came of, and the account the provider code for that transaction's state was given
    to, whose subject `_oauth_user` resolved. -/
structure Lineage (env : Env) (s : Sys) (r : Redeemed) (c : Coded) (q : AuthorizeQuery)
    (a : Approval) : Prop where
  coded : c ∈ s.coded
  code : c.code = r.request.code
  grantType : r.request.grantType = "authorization_code"
  begun : (c.state, q) ∈ s.begun
  client : r.request.clientId = q.clientId
  redirect : r.request.redirectUri = q.redirectUri
  allowed : requireClient q.clientId q.redirectUri = .ok c.policy
  pkce : pkceChallenge env r.request.codeVerifier = q.codeChallenge
  approved : a ∈ s.approved
  providerCode : a.code = c.providerCode
  state : a.state = c.state
  account : accounts.lookup a.account = some ⟨"lab-provider", c.login.subject⟩
  role : c.login.role = c.policy.defaultRole
  ran : c.login.Ran env
  user : r.bundle.userId = c.login.userId
  sub : r.bundle.accessToken.claims.sub = c.login.userId
  aud : r.bundle.accessToken.claims.aud = c.policy.audience

theorem Sys.Inv.lineage (h : s.Inv env) {r : Redeemed} (hr : r ∈ s.redeemed) :
    ∃ c q a, Lineage env s r c q a := by
  obtain ⟨c, hfits⟩ := h.fits r hr
  have htraced := h.traced c hfits.coded
  obtain ⟨q, hq, hcheck⟩ := htraced.checked.began
  obtain ⟨a, ha, hacode, hastate, haccount⟩ := htraced.checked.approved
  have htx := (AuthorizeQuery.check_eq_ok hcheck).2
  have hallowed := htraced.checked.client
  have hclient := clientId_of_lookup (requireClient_eq_ok hallowed).1
  rw [htx] at haccount hallowed hclient
  refine ⟨c, q, a, ?_⟩
  exact
    { coded := hfits.coded
      code := hfits.code
      grantType := hfits.grantType
      begun := hq
      client := hfits.client.trans hclient
      redirect := by rw [hfits.redirect, htx]
      allowed := hallowed
      pkce := by rw [hfits.pkce, htx]
      approved := ha
      providerCode := hacode
      state := hastate
      account := haccount
      role := htraced.role
      ran := htraced.ran
      user := hfits.user
      sub := hfits.sub
      aud := hfits.aud }

/-- What the flow owes its clients after the labels `ls`. -/
structure Safe (env : Env) (db : Db) (ls : List Label) : Prop where
  /-- One authorization code for a transaction at most. -/
  coded : ((run (step env) (Sys.start db) ls).coded.map Coded.state).Nodup
  /-- A provider code is exchanged once at most. -/
  exchanged : (run (step env) (Sys.start db) ls).exchanged.Nodup
  /-- One bundle for an authorization code at most. -/
  redeemed : ((run (step env) (Sys.start db) ls).redeemed.map fun r => r.request.code).Nodup
  /-- A token request that parses makes the code it names unusable. -/
  burnt : ∀ pre rid form r now post, ls = pre ++ .token rid (some form) now :: post →
    TokenRequest.ofForm form = some r →
    r.code ∈ (run (step env) (Sys.start db) pre).coded.map Coded.code →
    (run (step env) (Sys.start db) ls).Unusable env r.code
  /-- A bundle goes back to one transaction and one login. -/
  lineage : ∀ r ∈ (run (step env) (Sys.start db) ls).redeemed,
    ∃ c q a, Lineage env (run (step env) (Sys.start db) ls) r c q a

/-- Whatever states, codes, clients, addresses and verifiers anybody presents in whatever
    order, as long as drawn tokens are new and digests do not collide. -/
theorem code_flow_safe (env : Env) (henv : Function.Injective env.sha256) (db : Db)
    (ls : List Label) (hfresh : Along (step env) Fresh (Sys.start db) ls) : Safe env db ls := by
  have h := (run_inv henv (inv_start db) hfresh).1
  exact
    { coded := List.Nodup.of_map (key env .oauth) (by rw [List.map_map]; exact h.coded.nodup)
      exchanged := List.Nodup.of_map (key env .providerCode) h.exchanged.nodup
      redeemed := List.Nodup.of_map (key env .authorizationCode)
        (by rw [List.map_map]; exact h.redeemed.nodup)
      burnt := by
        rintro pre rid form r now post rfl hr hcode
        obtain ⟨hpre, htoken, hpost⟩ := (along_append (step env) _ pre _).mp hfresh
        have hinv := (run_inv henv (inv_start db) hpre).1
        obtain ⟨c, hc, hcode⟩ := List.mem_map.mp hcode
        have hissued := (hinv.traced c hc).issued
        rw [hcode] at hissued
        have hspent := spent_token hr (by rw [hissued]; exact Option.some_ne_none _) rid now
        obtain ⟨rid', ha⟩ := step_advance henv hinv htoken
        rw [run_append, run_cons]
        exact unusable_of_spent (hspent.later (run_inv henv (hinv.advance ha) hpost).2)
      lineage := fun r hr => h.lineage hr }

/-! ## An honest client -/

def sampleVerifier : String := "0123456789abcdef0123456789abcdef0123456789abcdef0123456789abcdef"

def sampleQuery : AuthorizeQuery where
  clientId := "temis-web"
  redirectUri := "http://localhost:3000/auth/callback"
  state := "client-state-value"
  codeChallenge := pkceChallenge plainEnv sampleVerifier

def sampleForm : Form :=
  [("grant_type", "authorization_code"), ("client_id", "temis-web"),
    ("redirect_uri", "http://localhost:3000/auth/callback"), ("code", "code"),
    ("code_verifier", sampleVerifier)]

/-- One sign-in, and its token request sent once more. -/
def sampleRun : List Label :=
  [.authorize 0 sampleQuery "state" 0, .fakeAuthorize 1 "state" "learner" "provider-code" 1,
    .callback 2 "state" "provider-code" 2, .exchange 2 2, .login 2 "u1", .issueCode 2 "code" 3,
    .token 3 (some sampleForm) 4, .token 4 (some sampleForm) 4, .bundle 3 "refresh" (some "kid") 5]

/-- The client gets its bundle, for the user of its account. -/
theorem sign_in_safe :
    ((run (step plainEnv) (Sys.start Db.empty) sampleRun).redeemed.map fun r =>
      (r.bundle.userId, r.bundle.refreshToken)) = [("u1", "refresh")] ∧
    Safe plainEnv Db.empty sampleRun :=
  ⟨by decide +kernel, code_flow_safe plainEnv Function.injective_id Db.empty sampleRun
    (by decide +kernel)⟩

end TemisLab.OAuth
