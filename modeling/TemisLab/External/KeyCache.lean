/-
  `JwksCache` of `external_idp/callback.py` under any interleaving of its calls: a call is suspended
  while it awaits `_refresh`, and others run and replace the entry meanwhile.

  `fetched` keeps the responses that were taken over, `requests` who sent a GET, and a call the
  responses there were when it began.

  * `Inv`: an entry is what one response gave, and each call has sent as many GETs as the place
    where it waits tells.
  * `inv_call`, `inv_answer`: the two steps.
  * `Call.opened_eq`, `Call.lookedAgain_eq`: a call begins and ends as `Adapters` has it in one
    step.
  * `jwks_cache_freshness`: where a returned key comes from, when a kid is unknown, one GET a call,
    and what a failing one leaves.
-/
import TemisLab.Lib.Slots
import TemisLab.Lib.Trace
import TemisLab.External.Adapters

namespace TemisLab.External.KeyCache

open TemisLab.Lib TemisLab.External

/-! ## `_refresh` -/

/-- A refresh that returns has set the entry to what the response gave. -/
theorem refresh_ok {jwksUri : String} {now : ℤ} {http : Http} {cache cache' : JwksCache}
    {keys : List Dict} (h : (JwksCache.refresh jwksUri now http).on cache = (.ok keys, cache')) :
    keysOf http = .ok keys ∧ ∃ ttl, lifetime http = .ok ttl ∧
      cache' = Function.update cache jwksUri (some (now + ttl, keys)) := by
  rw [JwksCache.on_refresh] at h
  split at h
  · cases h
  · cases h
  · next keys' ttl hkeys httl =>
      cases h
      exact ⟨hkeys, ttl, httl, rfl⟩

/-- One that raises leaves the entries. -/
theorem refresh_error {jwksUri : String} {now : ℤ} {http : Http} {cache cache' : JwksCache}
    {failure : Failure}
    (h : (JwksCache.refresh jwksUri now http).on cache = (.error failure, cache')) :
    cache' = cache := by
  rw [JwksCache.on_refresh] at h
  split at h
  · cases h
    rfl
  · cases h
    rfl
  · cases h

/-! ## Calls -/

/-- A response that was taken over, and the call that fetched it. -/
structure Fetch where
  id : ℕ
  jwksUri : String
  now : ℤ
  http : Http

/-- A call of `key`; `before` are the responses taken over when it began. -/
structure Call where
  jwksUri : String
  kid : String
  now : ℤ
  cacheIsFresh : Bool
  before : List Fetch

/-- Where a call awaits `_refresh`: for want of a fresh entry, or of the kid in a fresh one. -/
inductive Await where
  | stale
  | missing
  deriving DecidableEq, Repr

/-- How a call ends. `unknown` is `raise ValueError("ID token signing key is unknown")`. -/
inductive Verdict where
  | returned (key : Dict)
  | unknown
  | raised (failure : Failure)

structure World where
  cache : JwksCache
  started : List ℕ
  running : ℕ → Option (Call × Await)
  requests : List ℕ
  fetched : List Fetch
  done : List (ℕ × Call × Verdict)

def World.init : World := ⟨fun _ => none, [], fun _ => none, [], [], []⟩

/-- The first `next(...)` of `key` and what follows it. -/
def Call.looked (c : Call) (keys : List Dict) : Verdict ⊕ Await :=
  match findKey keys c.kid with
  | some key => .inl (.returned key)
  | none => if c.cacheIsFresh then .inr .missing else .inl .unknown

/-- The second `next(...)` and what follows it. -/
def Call.lookedAgain (c : Call) (keys : List Dict) : Verdict :=
  match findKey keys c.kid with
  | some key => .returned key
  | none => .unknown

/-- A call up to its first `await`, or its end. -/
def Call.opened (c : Call) (entry : Option (ℤ × List Dict)) : Verdict ⊕ Await :=
  match entry with
  | some (_, keys) => if c.cacheIsFresh then c.looked keys else .inr .stale
  | none => .inr .stale

/-- `entry is not None and now < entry[0]`. -/
def isFresh (entry : Option (ℤ × List Dict)) (now : ℤ) : Bool := entry.any fun e => now < e.1

/-- A call ends at once exactly with the key that the callbacks find in the cache. -/
theorem Call.opened_eq (c : Call) (cache : JwksCache)
    (hfresh : c.cacheIsFresh = isFresh (cache c.jwksUri) c.now) :
    c.opened (cache c.jwksUri) =
      match cache.key c.jwksUri c.kid c.now with
      | some key => .inl (.returned key)
      | none => .inr (if c.cacheIsFresh then .missing else .stale) := by
  unfold Call.opened Call.looked JwksCache.key
  rw [hfresh]
  cases cache c.jwksUri with
  | none => rfl
  | some entry =>
      obtain ⟨freshUntil, keys⟩ := entry
      by_cases hnow : c.now < freshUntil
      · cases hkey : findKey keys c.kid <;> simp [isFresh, hnow, hkey]
      · simp [isFresh, hnow]

/-- After a refresh it ends as the callbacks do. -/
theorem Call.lookedAgain_eq (c : Call) (keys : List Dict) :
    c.lookedAgain keys =
      match refreshedKey keys c.kid with
      | .ok key => .returned key
      | .error _ => .unknown := by
  unfold Call.lookedAgain refreshedKey
  cases findKey keys c.kid <;> rfl

/-- The call ends, or sends a GET. -/
def World.proceed (w : World) (id : ℕ) (c : Call) : Verdict ⊕ Await → World
  | .inl verdict =>
      { w with
        running := Function.update w.running id none
        done := (id, c, verdict) :: w.done }
  | .inr await =>
      { w with
        running := Function.update w.running id (some (c, await))
        requests := id :: w.requests }

/-- A call begins, or the response to the one that is suspended arrives. -/
inductive Label where
  | call (id : ℕ) (jwksUri kid : String) (now : ℤ)
  | answer (id : ℕ) (http : Http)

def callStep (w : World) (id : ℕ) (jwksUri kid : String) (now : ℤ) : World :=
  if id ∈ w.started then w
  else
    let entry := w.cache jwksUri
    let c : Call := ⟨jwksUri, kid, now, isFresh entry now, w.fetched⟩
    { w with started := id :: w.started }.proceed id c (c.opened entry)

def answerStep (w : World) (id : ℕ) (http : Http) : World :=
  match w.running id with
  | none => w
  | some (c, await) =>
      match (JwksCache.refresh c.jwksUri c.now http).on w.cache with
      | (.error failure, cache) => { w with cache }.proceed id c (.inl (.raised failure))
      | (.ok keys, cache) =>
          { w with cache, fetched := ⟨id, c.jwksUri, c.now, http⟩ :: w.fetched }.proceed id c
            (match await with
              | .stale => c.looked keys
              | .missing => .inl (c.lookedAgain keys))

def step (w : World) : Label → World
  | .call id jwksUri kid now => callStep w id jwksUri kid now
  | .answer id http => answerStep w id http

/-! ## What the calls keep -/

/-- The key is in the response, which is for the call's document. -/
def Fetch.Gave (f : Fetch) (c : Call) (key : Dict) : Prop :=
  f.jwksUri = c.jwksUri ∧ ∃ keys, keysOf f.http = .ok keys ∧ key ∈ keys

/-- The response was there when the call began, and its `max-age` has not passed. -/
def Fetch.FreshFor (f : Fetch) (c : Call) : Prop :=
  f ∈ c.before ∧ ∃ maxAge, lifetime f.http = .ok maxAge ∧ c.now < f.now + maxAge

/-- The response is for the call's document and has no key with the kid. -/
def Fetch.Lacks (f : Fetch) (c : Call) : Prop :=
  f.jwksUri = c.jwksUri ∧ ∃ keys, keysOf f.http = .ok keys ∧
    ∀ key ∈ keys, Dict.str key "kid" ≠ some c.kid

/-- What a verdict is given for, among the responses `fetched`. -/
def Verdict.Right (fetched : List Fetch) (id : ℕ) (c : Call) : Verdict → Prop
  | .returned key =>
      Dict.str key "kid" = some c.kid ∧
        ∃ f ∈ fetched, f.Gave c key ∧ (f.id = id ∨ f.FreshFor c)
  | .unknown => ∃ f ∈ fetched, f.id = id ∧ f.Lacks c
  | .raised _ => True

theorem Verdict.Right.mono {fetched fetched' : List Fetch} {id : ℕ} {c : Call} {v : Verdict}
    (h : v.Right fetched id c) (hsub : fetched ⊆ fetched') : v.Right fetched' id c := by
  cases v with
  | returned key =>
      obtain ⟨hkid, f, hf, hgave, hwhen⟩ := h
      exact ⟨hkid, f, hsub hf, hgave, hwhen⟩
  | unknown =>
      obtain ⟨f, hf, hid, hlacks⟩ := h
      exact ⟨f, hsub hf, hid, hlacks⟩
  | raised failure => trivial

/-- An entry is what one of the responses gave. -/
def Backed (fetched : List Fetch) (cache : JwksCache) : Prop :=
  ∀ jwksUri freshUntil keys, cache jwksUri = some (freshUntil, keys) →
    ∃ f ∈ fetched, f.jwksUri = jwksUri ∧ keysOf f.http = .ok keys ∧
      ∃ maxAge : ℕ, lifetime f.http = .ok maxAge ∧ freshUntil = f.now + maxAge

structure Inv (w : World) : Prop where
  backed : Backed w.fetched w.cache
  running : ∀ id c await, w.running id = some (c, await) →
    id ∈ w.started ∧ (c.cacheIsFresh = true ↔ await = .missing)
  requests : ∀ id, w.requests.count id ≤ 1 ∧ (id ∈ w.requests → id ∈ w.started)
  done : ∀ id c v, (id, c, v) ∈ w.done → v.Right w.fetched id c

theorem inv_init : Inv .init where
  backed _ _ _ h := by cases h
  running _ _ _ h := by cases h
  requests _ := ⟨Nat.zero_le _, fun h => by cases h⟩
  done _ _ _ h := by cases h

theorem findKey_some {keys : List Dict} {kid : String} {key : Dict}
    (h : findKey keys kid = some key) : key ∈ keys ∧ Dict.str key "kid" = some kid := by
  unfold findKey at h
  have hkid := List.find?_some h
  exact ⟨List.mem_of_find?_eq_some h, of_decide_eq_true hkid⟩

theorem findKey_none {keys : List Dict} {kid : String} (h : findKey keys kid = none) :
    ∀ key ∈ keys, Dict.str key "kid" ≠ some kid := by
  unfold findKey at h
  intro key hkey
  have hno := List.find?_eq_none.mp h key hkey
  exact fun he => hno (decide_eq_true he)

/-- The end of a call, where the verdict is right. -/
theorem Inv.ended {w : World} (h : Inv w) {id : ℕ} {c : Call} {v : Verdict}
    (hv : v.Right w.fetched id c) : Inv (w.proceed id c (.inl v)) := by
  refine ⟨h.backed, ?_, h.requests, ?_⟩
  · intro id' c' await hr
    obtain ⟨-, hr⟩ := slot_clear hr
    exact h.running id' c' await hr
  · intro id' c' v' hmem
    rcases List.mem_cons.mp hmem with he | hmem
    · cases he
      exact hv
    · exact h.done id' c' v' hmem

/-- The first GET of a call. -/
theorem Inv.requested {w : World} (h : Inv w) {id : ℕ} {c : Call} {await : Await}
    (hstarted : id ∈ w.started) (hnone : id ∉ w.requests)
    (hawait : c.cacheIsFresh = true ↔ await = .missing) :
    Inv (w.proceed id c (.inr await)) := by
  refine ⟨h.backed, ?_, ?_, h.done⟩
  · intro id' c' await' hr
    rcases slot_set hr with ⟨-, hr⟩ | ⟨rfl, he⟩
    · exact h.running id' c' await' hr
    · cases he
      exact ⟨hstarted, hawait⟩
  · intro id'
    obtain ⟨hcount, hsub⟩ := h.requests id'
    by_cases hid : id' = id
    · subst hid
      refine ⟨?_, fun _ => hstarted⟩
      change (id' :: w.requests).count id' ≤ 1
      rw [List.count_cons_self, List.count_eq_zero.mpr hnone]
    · refine ⟨?_, ?_⟩
      · change (id :: w.requests).count id' ≤ 1
        rw [List.count_cons_of_ne (Ne.symm hid)]
        exact hcount
      · intro hmem
        rcases List.mem_cons.mp hmem with he | hmem
        · exact absurd he hid
        · exact hsub hmem

theorem inv_call {w : World} (h : Inv w) (id : ℕ) (jwksUri kid : String) (now : ℤ) :
    Inv (callStep w id jwksUri kid now) := by
  unfold callStep
  split
  · exact h
  · next hnew =>
      have hnone : id ∉ w.requests := fun hmem => hnew ((h.requests id).2 hmem)
      have hw : Inv { w with started := id :: w.started } := by
        refine ⟨h.backed, ?_, ?_, h.done⟩
        · intro id' c' await hr
          obtain ⟨hs, hfresh⟩ := h.running id' c' await hr
          exact ⟨List.mem_cons_of_mem _ hs, hfresh⟩
        · intro id'
          obtain ⟨hcount, hsub⟩ := h.requests id'
          exact ⟨hcount, fun hmem => List.mem_cons_of_mem _ (hsub hmem)⟩
      dsimp only
      unfold Call.opened
      cases hentry : w.cache jwksUri with
      | none => exact hw.requested List.mem_cons_self hnone (by simp [isFresh])
      | some entry =>
          obtain ⟨freshUntil, keys⟩ := entry
          by_cases hfresh : now < freshUntil
          · have hisFresh : isFresh (some (freshUntil, keys)) now = true := by
              simp [isFresh, hfresh]
            rw [hisFresh]
            simp only [if_true]
            unfold Call.looked
            dsimp only
            cases hkey : findKey keys kid with
            | some key =>
                -- a key of the entry: of the response behind it, which is still fresh
                obtain ⟨hmem, hkid⟩ := findKey_some hkey
                obtain ⟨f, hf, huri, hkeys, maxAge, hlife, huntil⟩ := h.backed _ _ _ hentry
                refine hw.ended ⟨hkid, f, hf, ⟨huri, keys, hkeys, hmem⟩, Or.inr ⟨hf, maxAge,
                  hlife, ?_⟩⟩
                rw [← huntil]
                exact hfresh
            | none => exact hw.requested List.mem_cons_self hnone (by simp)
          · have hstale : isFresh (some (freshUntil, keys)) now = false := by
              simp [isFresh, hfresh]
            rw [hstale]
            exact hw.requested List.mem_cons_self hnone (by simp)

theorem inv_answer {w : World} (h : Inv w) (id : ℕ) (http : Http) : Inv (answerStep w id http) := by
  unfold answerStep
  split
  · exact h
  · next c await hrunning =>
      obtain ⟨-, hfresh⟩ := h.running id c await hrunning
      cases hr : (JwksCache.refresh c.jwksUri c.now http).on w.cache with
      | mk answer cache =>
          cases answer with
          | error failure =>
              have hcache := refresh_error hr
              subst hcache
              exact h.ended trivial
          | ok keys =>
              obtain ⟨hkeys, maxAge, hlife, rfl⟩ := refresh_ok hr
              have hself : (⟨id, c.jwksUri, c.now, http⟩ : Fetch) ∈
                  (⟨id, c.jwksUri, c.now, http⟩ : Fetch) :: w.fetched := List.mem_cons_self
              have hw : Inv
                  { w with
                    cache := Function.update w.cache c.jwksUri (some (c.now + maxAge, keys))
                    fetched := ⟨id, c.jwksUri, c.now, http⟩ :: w.fetched } := by
                refine ⟨?_, h.running, h.requests, ?_⟩
                · intro jwksUri freshUntil keys' hentry
                  rcases slot_set hentry with ⟨-, hentry⟩ | ⟨rfl, he⟩
                  · obtain ⟨f, hf, hrest⟩ := h.backed _ _ _ hentry
                    exact ⟨f, List.mem_cons_of_mem _ hf, hrest⟩
                  · cases he
                    exact ⟨_, hself, rfl, hkeys, maxAge, hlife, rfl⟩
                · intro id' c' v hmem
                  exact (h.done id' c' v hmem).mono (List.subset_cons_self _ _)
              -- with the response at hand the call ends: it refreshes again nowhere
              have hend : Inv (World.proceed
                  { w with
                    cache := Function.update w.cache c.jwksUri (some (c.now + maxAge, keys))
                    fetched := ⟨id, c.jwksUri, c.now, http⟩ :: w.fetched } id c
                  (.inl (c.lookedAgain keys))) := by
                refine hw.ended ?_
                unfold Call.lookedAgain
                cases hkey : findKey keys c.kid with
                | some key =>
                    obtain ⟨hmem, hkid⟩ := findKey_some hkey
                    exact ⟨hkid, _, hself, ⟨rfl, keys, hkeys, hmem⟩, Or.inl rfl⟩
                | none => exact ⟨_, hself, rfl, rfl, keys, hkeys, findKey_none hkey⟩
              cases await with
              | missing => exact hend
              | stale =>
                  have hno : c.cacheIsFresh = false := by
                    by_contra hyes
                    have hmissing := hfresh.mp (Bool.of_not_eq_false hyes)
                    cases hmissing
                  have hsame : c.looked keys = .inl (c.lookedAgain keys) := by
                    unfold Call.looked Call.lookedAgain
                    rw [hno]
                    cases findKey keys c.kid <;> rfl
                  dsimp only
                  rw [hsame]
                  exact hend

theorem inv_step (w : World) (l : Label) (h : Inv w) : Inv (step w l) := by
  cases l with
  | call id jwksUri kid now => exact inv_call h id jwksUri kid now
  | answer id http => exact inv_answer h id http

theorem inv_run (ls : List Label) : Inv (run step .init ls) :=
  run_always step Inv inv_step inv_init ls

/-! ## The result -/

/-- A fetch that fails: the GET, its status, its body, or the number in its header. -/
def Fails (http : Http) : Prop :=
  (∃ failure, keysOf http = .error failure) ∨ ∃ failure, lifetime http = .error failure

theorem answer_fails (w : World) (id : ℕ) {http : Http} (hfails : Fails http) :
    (step w (.answer id http)).cache = w.cache := by
  change (answerStep w id http).cache = w.cache
  unfold answerStep
  split
  · rfl
  · next c await hrunning =>
      cases hr : (JwksCache.refresh c.jwksUri c.now http).on w.cache with
      | mk answer cache =>
          cases answer with
          | error failure => exact refresh_error hr
          | ok keys =>
              obtain ⟨hkeys, maxAge, hlife, -⟩ := refresh_ok hr
              rcases hfails with ⟨failure, hno⟩ | ⟨failure, hno⟩
              · rw [hkeys] at hno
                cases hno
              · rw [hlife] at hno
                cases hno

/-- Whatever calls of `key` interleave: a returned key has the kid and is in a response for this
    document that the call fetched, or that was taken over before the call and is fresh for it; a
    kid is unknown only if the response fetched in the call lacks it; a call sends one GET at most;
    and a fetch that fails leaves the entries. -/
theorem jwks_cache_freshness (ls : List Label) :
    let w := run step .init ls
    (∀ id c key, (id, c, .returned key) ∈ w.done →
      Dict.str key "kid" = some c.kid ∧
        ∃ f ∈ w.fetched, f.Gave c key ∧ (f.id = id ∨ f.FreshFor c)) ∧
      (∀ id c, (id, c, .unknown) ∈ w.done → ∃ f ∈ w.fetched, f.id = id ∧ f.Lacks c) ∧
      (∀ id, w.requests.count id ≤ 1) ∧
      ∀ id http, Fails http → (step w (.answer id http)).cache = w.cache := by
  intro w
  have h := inv_run ls
  refine ⟨?_, ?_, fun id => (h.requests id).1, fun id http => answer_fails w id⟩
  · intro id c key hmem
    exact h.done id c (.returned key) hmem
  · intro id c hmem
    exact h.done id c .unknown hmem

end TemisLab.External.KeyCache
