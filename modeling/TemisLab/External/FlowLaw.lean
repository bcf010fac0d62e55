/-
  The law of `FlowStore`: over every sequence of `issue` and `consume` calls on one store, a consume
  returns a flow exactly when that flow was issued under its state to this browser, is in time and
  was not returned before.

  `issueMethod` and `consumeMethod` are the two methods statement by statement, with the store
  threaded past a `raise`: what a refused call leaves is read off them, not assumed
  (`issueMethod_on`, `consumeMethod_on` tie them to `issue` and `consume`).

  * `History.Kept`: the log of the store is the history of its calls, and `live` is what the log
    has issued and not redeemed.
  * `kept_serve`, `kept_run`: one call, and every sequence of calls under fresh states.
  * `consume_law`: the law.
-/
import TemisLab.External.Flows
import TemisLab.Lib.Raising
import TemisLab.Lib.Trace

namespace TemisLab.External

open TemisLab.Lib TemisLab.Sso

namespace FlowStore

/-! ## The methods with the store they leave -/

abbrev Method := Raising String FlowStore

def issueMethod (env : Env) (redirectUri : String) (now : ℤ)
    (browserBinding verifier state nonce : String) : Method ExternalFlow := do
  if !bindingFormat browserBinding then
    throw "browser binding format is invalid"
  let flow : ExternalFlow :=
    { state
      nonce
      codeVerifier := verifier
      codeChallenge := OAuth.pkceChallenge env verifier
      redirectUri
      createdAt := now
      browserBinding }
  modify fun s => { s with flows := s.flows.issue flow.state flow }
  return flow

def consumeMethod (state : String) (p : Presented) : Method ExternalFlow := do
  if !bindingFormat p.browserBinding then
    throw "browser binding format is invalid"
  let s ← get
  let some flow := s.flows.live state
    | throw "unknown or already used state"
  if s.ttlSeconds < p.now - flow.createdAt then
    throw "expired state"
  if flow.browserBinding ≠ p.browserBinding then
    throw "state browser binding mismatch"
  modify fun s => { s with flows := s.flows.redeem state flow p }
  return flow

/-- A call that returned has the store it gave back, one that raised has the store it found. -/
def outcome (s : FlowStore) :
    Except String (ExternalFlow × FlowStore) → Except String ExternalFlow × FlowStore
  | .ok (flow, s') => (.ok flow, s')
  | .error e => (.error e, s)

theorem issueMethod_on (env : Env) (s : FlowStore) (redirectUri : String) (now : ℤ)
    (browserBinding verifier state nonce : String) :
    (issueMethod env redirectUri now browserBinding verifier state nonce).on s =
      outcome s (s.issue env redirectUri now browserBinding verifier state nonce) := by
  unfold issueMethod issue
  cases bindingFormat browserBinding with
  | true => rfl
  | false => rfl

theorem consumeMethod_on (s : FlowStore) (state : String) (p : Presented) :
    (consumeMethod state p).on s = outcome s (s.consume state p) := by
  unfold consumeMethod consume
  cases bindingFormat p.browserBinding with
  | false => rfl
  | true =>
      simp only [Bool.not_true, Bool.false_eq_true, if_false, if_true, Raising.on_bind,
        Raising.on_get]
      cases s.flows.live state with
      | none => rfl
      | some flow =>
          by_cases httl : s.ttlSeconds < p.now - flow.createdAt
          · simp [httl, outcome]
          · by_cases hbinding : flow.browserBinding = p.browserBinding
            · simp only [httl, hbinding, ne_eq, not_true, if_false]
              rfl
            · simp [httl, hbinding, outcome]

/-! ## Sequences of calls -/

/-- A call, with the values `_token` draws in it. -/
inductive Call where
  | issue (redirectUri : String) (now : ℤ) (browserBinding verifier state nonce : String)
  | consume (state : String) (presented : Presented)
  deriving DecidableEq, Repr

/-- The state that a call draws; a refused `issue` draws none. -/
def Call.drawn : Call → Option String
  | .issue _ _ browserBinding _ state _ => if bindingFormat browserBinding then some state else none
  | .consume _ _ => none

/-- A store and its calls with their answers, newest first. -/
structure History where
  store : FlowStore
  calls : List (Call × Except String ExternalFlow)

namespace History

def start (ttlSeconds : ℤ) : History := ⟨init ttlSeconds, []⟩

def method (env : Env) : Call → Method ExternalFlow
  | .issue redirectUri now browserBinding verifier state nonce =>
      issueMethod env redirectUri now browserBinding verifier state nonce
  | .consume state presented => consumeMethod state presented

def serve (env : Env) (h : History) (call : Call) : History :=
  let (answer, store) := (method env call).on h.store
  ⟨store, (call, answer) :: h.calls⟩

/-- An `issue` returned the flow. -/
def Issued (h : History) (flow : ExternalFlow) : Prop :=
  ∃ redirectUri now browserBinding verifier state nonce,
    (.issue redirectUri now browserBinding verifier state nonce, .ok flow) ∈ h.calls

/-- A `consume` returned the flow. -/
def Returned (h : History) (flow : ExternalFlow) : Prop :=
  ∃ state presented, (.consume state presented, .ok flow) ∈ h.calls

/-- What a call put in the log of the store. -/
def punch : Call × Except String ExternalFlow → Option (Punch String ExternalFlow Presented)
  | (.issue .., .ok flow) => some (.issued flow.state flow)
  | (.consume _ presented, .ok flow) => some (.redeemed flow.state flow presented)
  | (_, .error _) => none

structure Kept (ttlSeconds : ℤ) (h : History) : Prop where
  ttl : h.store.ttlSeconds = ttlSeconds
  log : h.store.flows.log = h.calls.filterMap punch
  sound : h.store.Sound
  exact : h.store.flows.Exact

theorem kept_start (ttlSeconds : ℤ) : (start ttlSeconds).Kept ttlSeconds :=
  ⟨rfl, rfl, sound_init ttlSeconds, Tickets.exact_empty⟩

variable {ttlSeconds : ℤ} {h : History}

theorem issued_iff (hk : h.Kept ttlSeconds) (flow : ExternalFlow) :
    h.Issued flow ↔ .issued flow.state flow ∈ h.store.flows.log := by
  rw [hk.log, List.mem_filterMap]
  constructor
  · rintro ⟨redirectUri, now, browserBinding, verifier, state, nonce, hmem⟩
    exact ⟨_, hmem, rfl⟩
  · rintro ⟨⟨call, answer⟩, hmem, hpunch⟩
    cases call with
    | issue redirectUri now browserBinding verifier state nonce =>
        cases answer with
        | ok flow' =>
            obtain ⟨-, rfl⟩ := Punch.issued.inj (Option.some.inj hpunch)
            exact ⟨_, _, _, _, _, _, hmem⟩
        | error e => cases hpunch
    | consume state presented => cases answer <;> cases hpunch

/-- The log has a flow under its own state. -/
theorem key_of_issued (hk : h.Kept ttlSeconds) {state : String} {flow : ExternalFlow}
    (hmem : .issued state flow ∈ h.store.flows.log) : flow.state = state := by
  rw [hk.log, List.mem_filterMap] at hmem
  obtain ⟨⟨call, answer⟩, -, hpunch⟩ := hmem
  cases call with
  | issue redirectUri now browserBinding verifier state nonce =>
      cases answer with
      | ok flow' =>
          cases hpunch
          rfl
      | error e => cases hpunch
  | consume state presented => cases answer <;> cases hpunch

/-- A flow that is pending, or was, was not returned exactly when its state is unspent. -/
theorem returned_iff (hk : h.Kept ttlSeconds) (hkeys : h.store.flows.keys.Nodup)
    {flow : ExternalFlow} (hissued : h.Issued flow) :
    h.Returned flow ↔ flow.state ∈ h.store.flows.spent := by
  rw [Tickets.mem_spent]
  constructor
  · rintro ⟨state, presented, hmem⟩
    refine ⟨flow, presented, ?_⟩
    rw [hk.log, List.mem_filterMap]
    exact ⟨_, hmem, rfl⟩
  · rintro ⟨flow', presented, hredeemed⟩
    -- what was redeemed under this state is the flow issued under it
    have hsub := (hk.sound.redeemed _ _ _ hredeemed).2
    have hissued' := hsub.subset (List.mem_cons_of_mem _ List.mem_cons_self)
    have he := Tickets.issued_unique hkeys ((issued_iff hk flow).mp hissued) hissued'
    subst he
    rw [hk.log, List.mem_filterMap] at hredeemed
    obtain ⟨⟨call, answer⟩, hmem, hpunch⟩ := hredeemed
    cases answer with
    | error e => cases call <;> cases hpunch
    | ok flow' =>
        cases call with
        | issue redirectUri now browserBinding verifier state nonce => cases hpunch
        | consume state presented' =>
            obtain ⟨-, rfl, -⟩ := Punch.redeemed.inj (Option.some.inj hpunch)
            exact ⟨_, _, hmem⟩

/-- A call that raised adds itself to the history and nothing else. -/
theorem kept_raised (hk : h.Kept ttlSeconds) (call : Call) (e : String) :
    Kept ttlSeconds ⟨h.store, (call, .error e) :: h.calls⟩ := by
  refine ⟨hk.ttl, ?_, hk.sound, hk.exact⟩
  have hpunch : punch (call, .error e) = none := by cases call <;> rfl
  rw [hk.log, List.filterMap_cons_none hpunch]

/-- A call keeps the history told right, and issues under no state but the one it draws. -/
theorem kept_serve (env : Env) (hk : h.Kept ttlSeconds) (hkeys : h.store.flows.keys.Nodup)
    (call : Call) (hfresh : ∀ state ∈ call.drawn, state ∉ h.store.flows.keys) :
    (serve env h call).Kept ttlSeconds ∧ (serve env h call).store.flows.keys.Nodup ∧
      ∀ key ∈ (serve env h call).store.flows.keys,
        key ∈ h.store.flows.keys ∨ key ∈ call.drawn := by
  have hsub := hk.sound.spent_subset
  cases call with
  | issue redirectUri now browserBinding verifier state nonce =>
      unfold serve method
      rw [issueMethod_on]
      cases hi : h.store.issue env redirectUri now browserBinding verifier state nonce with
      | error e => exact ⟨kept_raised hk _ e, hkeys, fun key hkey => Or.inl hkey⟩
      | ok r =>
          obtain ⟨flow, s'⟩ := r
          have hformat : bindingFormat browserBinding = true := by
            by_contra hno
            unfold FlowStore.issue at hi
            rw [if_neg hno] at hi
            cases hi
          have hdrawn : state ∈ Call.drawn
              (.issue redirectUri now browserBinding verifier state nonce) := by
            simp only [Call.drawn, if_pos hformat]
            exact Option.mem_some_self state
          have hnew := hfresh state hdrawn
          have hsound := hk.sound.issue hnew hi
          obtain ⟨rfl, -, -, -, rfl⟩ := issue_eq_ok hi
          refine ⟨⟨hk.ttl, ?_, hsound, Tickets.exact_issue hk.exact hsub hnew flow⟩,
            List.nodup_cons.mpr ⟨hnew, hkeys⟩, ?_⟩
          · change Punch.issued flow.state flow :: h.store.flows.log = _
            rw [hk.log]
            rfl
          · intro key hkey
            rcases List.mem_cons.mp hkey with rfl | hkey
            · exact Or.inr hdrawn
            · exact Or.inl hkey
  | consume state presented =>
      unfold serve method
      rw [consumeMethod_on]
      cases hc : h.store.consume state presented with
      | error e => exact ⟨kept_raised hk _ e, hkeys, fun key hkey => Or.inl hkey⟩
      | ok r =>
          obtain ⟨flow, s'⟩ := r
          have hsound := hk.sound.consume hc
          obtain ⟨hlive, -, rfl⟩ := consume_eq_ok hc
          have hkey := key_of_issued hk (hk.sound.live state flow hlive).1
          refine ⟨⟨hk.ttl, ?_, hsound, Tickets.exact_redeem hk.exact state flow presented⟩, hkeys,
            fun key hkey => Or.inl hkey⟩
          change Punch.redeemed state flow presented :: h.store.flows.log = _
          rw [hk.log, ← hkey]
          rfl

/-- Every sequence of calls that draws fresh states. -/
theorem kept_run (env : Env) {calls : List Call} (hk : h.Kept ttlSeconds)
    (hkeys : h.store.flows.keys.Nodup) (hdrawn : (calls.filterMap Call.drawn).Nodup)
    (hfresh : ∀ state ∈ calls.filterMap Call.drawn, state ∉ h.store.flows.keys) :
    (run (serve env) h calls).Kept ttlSeconds ∧
      (run (serve env) h calls).store.flows.keys.Nodup := by
  induction calls generalizing h with
  | nil => exact ⟨hk, hkeys⟩
  | cons call calls ih =>
      rw [run_cons]
      have hhead : ∀ state ∈ call.drawn, state ∉ h.store.flows.keys := fun state hstate =>
        hfresh state (List.mem_filterMap.mpr ⟨call, List.mem_cons_self, hstate⟩)
      obtain ⟨hk', hkeys', hgrow⟩ := kept_serve env hk hkeys call hhead
      cases hd : call.drawn with
      | none =>
          rw [List.filterMap_cons_none hd] at hdrawn hfresh
          refine ih hk' hkeys' hdrawn fun state hstate hkey => ?_
          rcases hgrow state hkey with hold | hold
          · exact hfresh state hstate hold
          · rw [hd] at hold
            cases hold
      | some drawn =>
          rw [List.filterMap_cons_some hd] at hdrawn hfresh
          obtain ⟨hout, hdrawn⟩ := List.nodup_cons.mp hdrawn
          refine ih hk' hkeys' hdrawn fun state hstate hkey => ?_
          rcases hgrow state hkey with hold | hold
          · exact hfresh state (List.mem_cons_of_mem _ hstate) hold
          · rw [hd] at hold
            cases hold
            exact hout hstate

/-! ## The law -/

/-- When a consume on a store returns a flow. -/
theorem consume_eq_ok_iff (s : FlowStore) (state : String) (p : Presented) (flow : ExternalFlow) :
    ((consumeMethod state p).on s).1 = .ok flow ↔
      bindingFormat p.browserBinding = true ∧ s.flows.live state = some flow ∧
        Accepts s.ttlSeconds flow p := by
  rw [consumeMethod_on]
  unfold consume Accepts
  cases bindingFormat p.browserBinding with
  | false => simp [outcome]
  | true =>
      cases s.flows.live state with
      | none => simp [outcome]
      | some flow' =>
          simp only [if_true]
          split
          · next httl =>
              simp only [outcome, reduceCtorEq, false_iff, true_and, Option.some.injEq]
              rintro ⟨rfl, hle, -⟩
              exact absurd httl (not_lt.mpr hle)
          · next httl =>
              split
              · next hbinding =>
                  simp only [outcome, reduceCtorEq, false_iff, true_and, Option.some.injEq]
                  rintro ⟨rfl, -, he⟩
                  exact hbinding he
              · next hbinding =>
                  simp only [outcome, Except.ok.injEq, true_and, Option.some.injEq]
                  constructor
                  · rintro rfl
                    exact ⟨rfl, not_lt.mp httl, not_not.mp hbinding⟩
                  · rintro ⟨rfl, -, -⟩
                    rfl

/-- A consume that raised left the store as it was. -/
theorem consume_raised (s : FlowStore) (state : String) (p : Presented) (e : String)
    (h : ((consumeMethod state p).on s).1 = .error e) : ((consumeMethod state p).on s).2 = s := by
  rw [consumeMethod_on] at h ⊢
  cases hc : s.consume state p with
  | error e' => rfl
  | ok r =>
      rw [hc] at h
      cases h

end History

open History in
/-- Whatever calls a store served, the next `consume` returns a flow exactly when an `issue`
    returned it under this state and to this browser, it is in time and no `consume` returned it;
    and a `consume` that raises leaves the store. -/
theorem consume_law (env : Env) (ttlSeconds : ℤ) (calls : List Call)
    (hfresh : (calls.filterMap Call.drawn).Nodup) (state : String) (p : Presented) :
    let h := run (serve env) (start ttlSeconds) calls
    let consumed := (consumeMethod state p).on h.store
    (∀ flow, consumed.1 = .ok flow ↔
      h.Issued flow ∧ flow.state = state ∧
        (bindingFormat p.browserBinding = true ∧ flow.browserBinding = p.browserBinding) ∧
        p.now - flow.createdAt ≤ ttlSeconds ∧ ¬ h.Returned flow) ∧
      ∀ e, consumed.1 = .error e → consumed.2 = h.store := by
  obtain ⟨hk, hkeys⟩ := kept_run env (kept_start ttlSeconds) List.nodup_nil hfresh
    (fun state _ hkey => by cases hkey)
  intro h consumed
  refine ⟨fun flow => ?_, consume_raised _ state p⟩
  have hret := consume_eq_ok_iff h.store state p flow
  rw [hk.exact state flow] at hret
  unfold Accepts at hret
  rw [hk.ttl] at hret
  rw [hret]
  constructor
  · rintro ⟨hformat, ⟨hissued, hunspent⟩, httl, hbinding⟩
    have hkey := key_of_issued hk hissued
    subst hkey
    have hissued' := (issued_iff hk flow).mpr hissued
    refine ⟨hissued', rfl, ⟨hformat, hbinding⟩, httl, ?_⟩
    rw [returned_iff hk hkeys hissued']
    exact hunspent
  · rintro ⟨hissued, rfl, ⟨hformat, hbinding⟩, httl, hnot⟩
    rw [returned_iff hk hkeys hissued] at hnot
    exact ⟨hformat, ⟨(issued_iff hk flow).mp hissued, hnot⟩, httl, hbinding⟩

open History in
/-- Another browser tries the state first; the browser it belongs to still gets the flow. -/
theorem consume_law_after_stranger :
    let calls : List Call :=
      [.issue "https://sso/cb" 100 "browser-one-00001" "v" "s" "n",
        .consume "s" ⟨1, 110, "browser-two-00002"⟩]
    let p : Presented := ⟨2, 400, "browser-one-00001"⟩
    let h := run (serve plainEnv) (start 300) calls
    let consumed := (consumeMethod "s" p).on h.store
    (∀ flow, consumed.1 = .ok flow ↔
      h.Issued flow ∧ flow.state = "s" ∧
        (bindingFormat p.browserBinding = true ∧ flow.browserBinding = p.browserBinding) ∧
        p.now - flow.createdAt ≤ 300 ∧ ¬ h.Returned flow) ∧
      ∀ e, consumed.1 = .error e → consumed.2 = h.store := by
  intro calls p
  exact consume_law plainEnv 300 calls (by decide) "s" p

end FlowStore

end TemisLab.External
