/-
  When `/api/reports` answers 503. The events are those of `Verifier`, in any order.

  * `unavailable_only_in_outage`: a 503 is answered in a step in which a dependency fails, or less
    than `refresh_cooldown` after one in which the key set could not be fetched or read; and no
    request ends with an exception that the endpoint does not catch.

  A refresh is an outage exactly if `fetch_jwks` raises, or answers with no object, or with an RS256
  key that PyJWT raises on (`Unreadable`, `safeRefresh_unavailable`); an object without a list of
  keys, or without a key to use, is none.

  The deadline `_refresh_error_until` is 0, or was set by such a step (`cooling_origin`). The
  `KeyError` of claims without a scope does not come up, as `jwt.decode` requires one. PyJWT raises
  nothing but `PyJWTError`s on a token here: a header so deeply nested that `json.loads` gives up on
  it with a `RecursionError` is left out.
-/
import TemisLab.Resource.Fetches
import TemisLab.Resource.Reports

namespace TemisLab.Resource.Outages

open TemisLab.Lib TemisLab.Sso TemisLab.Keyring

variable {Token : Type}

/-- The key set cannot be fetched or read. -/
def FetchFails (J : Jwt Token) (i : Input) : Task Token → Prop
  | .fetchStale .. => Unreadable J i.fetched
  | .fetchUnknown .. => Unreadable J i.fetched
  | _ => False

/-- `status_check` raises. -/
def StatusFails (i : Input) : Task Token → Prop
  | .statusCheck .. => i.active = none
  | _ => False

/-- A dependency fails in the step of a call. -/
def Fails (J : Jwt Token) (h : Host ℕ (Service Token) (Task Token)) : Signal ℕ Token Input → Prop
  | .go p i => FetchFails J i (h.task p) ∨ StatusFails i (h.task p)
  | _ => False

/-- A call ends between the two states, and its request with it. -/
def Answered (before after : Service Token) (e : Ended Token) (reply : Reply) : Prop :=
  after.ended = e :: before.ended ∧ e.outcome.reply = reply

/-- The reasons that are not about a dependency. -/
def Plain (reason : Refusal) : Prop :=
  reason ≠ .jwksUnavailable ∧ reason ≠ .statusUnavailable ∧ reason ≠ .missingScope

variable {cfg : Settings} {J : Jwt Token} {s u : Service Token} {R : Refusal → Prop}

variable {i : Input} {t : Task Token} {r : Service Token × Task Token}

end TemisLab.Resource.Outages
