/-
  `FlowStore` (`external_idp/security.py`): the logins that an identity provider has not sent back
  yet. The store is `Tickets` under the states; its log keeps who consumed a flow, when and with
  which binding. The values `_token` draws are arguments.

  A consume that raises leaves the store (`consume` gives none back), and one that returns redeems
  the flow of its state (`consume_eq_ok`).
-/
import TemisLab.Lib.Ticket
import TemisLab.OAuth.CodeFlow

namespace TemisLab.External

open TemisLab.Lib TemisLab.Sso

/-- `ExternalFlow`. -/
structure ExternalFlow where
  state : String
  nonce : String
  codeVerifier : String
  codeChallenge : String
  redirectUri : String
  createdAt : ℤ
  browserBinding : String
  deriving DecidableEq, Repr

/-- The arguments of a `consume`, and the callback that made it. -/
structure Presented where
  rid : ℕ
  now : ℤ
  browserBinding : String
  deriving DecidableEq, Repr

structure FlowStore where
  ttlSeconds : ℤ
  flows : Tickets String ExternalFlow Presented

/-- `re.fullmatch(r"[A-Za-z0-9_-]{16,128}", browser_binding)`. -/
def bindingFormat (browserBinding : String) : Bool :=
  let cs := browserBinding.toList
  16 ≤ cs.length && cs.length ≤ 128 &&
    cs.all fun c => c.isAlpha || c.isDigit || c = '_' || c = '-'

namespace FlowStore

def init (ttlSeconds : ℤ) : FlowStore := ⟨ttlSeconds, .empty⟩

/-- `issue`; the error is the text of its `ValueError`. -/
def issue (env : Env) (s : FlowStore) (redirectUri : String) (now : ℤ) (browserBinding : String)
    (verifier state nonce : String) : Except String (ExternalFlow × FlowStore) :=
  if bindingFormat browserBinding then
    let flow : ExternalFlow :=
      { state
        nonce
        codeVerifier := verifier
        codeChallenge := OAuth.pkceChallenge env verifier
        redirectUri
        createdAt := now
        browserBinding }
    .ok (flow, { s with flows := s.flows.issue state flow })
  else .error "browser binding format is invalid"

/-- `consume`; the error is the text of its `ValueError`. -/
def consume (s : FlowStore) (state : String) (p : Presented) :
    Except String (ExternalFlow × FlowStore) :=
  if bindingFormat p.browserBinding then
    match s.flows.live state with
    | none => .error "unknown or already used state"
    | some flow =>
        if s.ttlSeconds < p.now - flow.createdAt then .error "expired state"
        else if flow.browserBinding ≠ p.browserBinding then .error "state browser binding mismatch"
        else .ok (flow, { s with flows := s.flows.redeem state flow p })
  else .error "browser binding format is invalid"

/-- What a consume checks of the flow it returns. -/
def Accepts (ttlSeconds : ℤ) (flow : ExternalFlow) (p : Presented) : Prop :=
  p.now - flow.createdAt ≤ ttlSeconds ∧ flow.browserBinding = p.browserBinding

/-- What the history of a store tells. -/
def Sound (s : FlowStore) : Prop := s.flows.Sound (Accepts s.ttlSeconds)

theorem sound_init (ttlSeconds : ℤ) : (init ttlSeconds).Sound := Tickets.sound_empty

theorem issue_eq_ok {env : Env} {s s' : FlowStore} {redirectUri browserBinding : String} {now : ℤ}
    {verifier state nonce : String} {flow : ExternalFlow}
    (h : s.issue env redirectUri now browserBinding verifier state nonce = .ok (flow, s')) :
    flow.state = state ∧ flow.nonce = nonce ∧ flow.createdAt = now ∧
      flow.browserBinding = browserBinding ∧
      s' = { s with flows := s.flows.issue state flow } := by
  unfold issue at h
  split at h
  · cases h
    exact ⟨rfl, rfl, rfl, rfl, rfl⟩
  · cases h

/-- The challenge of a flow is that of its verifier. -/
theorem issue_pkce {env : Env} {s s' : FlowStore} {redirectUri browserBinding : String} {now : ℤ}
    {verifier state nonce : String} {flow : ExternalFlow}
    (h : s.issue env redirectUri now browserBinding verifier state nonce = .ok (flow, s')) :
    flow.codeChallenge = OAuth.pkceChallenge env flow.codeVerifier := by
  unfold issue at h
  split at h
  · cases h
    rfl
  · cases h

theorem consume_eq_ok {s s' : FlowStore} {state : String} {p : Presented} {flow : ExternalFlow}
    (h : s.consume state p = .ok (flow, s')) :
    s.flows.live state = some flow ∧ Accepts s.ttlSeconds flow p ∧
      s' = { s with flows := s.flows.redeem state flow p } := by
  unfold consume at h
  split at h
  · split at h
    · cases h
    · next flow' hlive =>
        split at h
        · cases h
        · next httl =>
            split at h
            · cases h
            · next hbinding =>
                cases h
                exact ⟨hlive, ⟨not_lt.mp httl, not_not.mp hbinding⟩, rfl⟩
  · cases h

theorem Sound.issue {env : Env} {s s' : FlowStore} {redirectUri browserBinding : String} {now : ℤ}
    {verifier state nonce : String} {flow : ExternalFlow} (hs : s.Sound)
    (hnew : state ∉ s.flows.keys)
    (h : s.issue env redirectUri now browserBinding verifier state nonce = .ok (flow, s')) :
    s'.Sound := by
  obtain ⟨-, -, -, -, rfl⟩ := issue_eq_ok h
  exact Tickets.sound_issue hs hnew flow

theorem Sound.consume {s s' : FlowStore} {state : String} {p : Presented} {flow : ExternalFlow}
    (hs : s.Sound) (h : s.consume state p = .ok (flow, s')) : s'.Sound := by
  obtain ⟨hlive, haccepts, rfl⟩ := consume_eq_ok h
  exact Tickets.sound_redeem hs hlive haccepts

/-- A flow is returned to one consume at most. -/
theorem Sound.consume_new {s s' : FlowStore} {state : String} {p : Presented}
    {flow : ExternalFlow} (hs : s.Sound) (h : s.consume state p = .ok (flow, s')) :
    state ∉ s.flows.spent :=
  (Tickets.Sound.live hs state flow (consume_eq_ok h).1).2

end FlowStore

end TemisLab.External
