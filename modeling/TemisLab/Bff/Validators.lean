/-
  `safe_return_path` and `require_csrf` of `temis_bff/security.py`, and the handlers of `app.py`
  that turn a `RequestRejected` of them into an answer. Both call the library before they have
  checked what they call it with: `urlsplit` raises for a malformed authority, `compare_digest`
  for texts that are not ASCII.

  * `safeReturnPath_rejects`, `requireCsrf_rejects`: when nothing but a `RequestRejected` is raised.
  * `validators_reject_iff`: when the handlers answer 400 and 403.
-/
import TemisLab.Lib.Errors
import TemisLab.Lib.Percent
import TemisLab.Lib.Url

namespace TemisLab.Bff

open TemisLab.Lib

/-- The exceptions of the validators. -/
inductive Raised where
  | requestRejected (detail : String)
  | valueError
  | typeError
  deriving DecidableEq, Repr

def Raised.IsRejection : Raised → Prop
  | .requestRejected _ => True
  | .valueError | .typeError => False

instance : (e : Raised) → Decidable e.IsRejection
  | .requestRejected _ => .isTrue trivial
  | .valueError | .typeError => .isFalse id

/-- `any(ord(character) < 32 for character in decoded)`, or a backslash. -/
def unsafeCharacter (decoded : List Char) : Bool :=
  '\\' ∈ decoded ∨ decoded.any (·.toNat < 32)

/-- `safe_return_path`. -/
def safeReturnPath (t : Url.Tables) (value : String) : Except Raised String := do
  let decoded := Percent.unquote value.toList
  match Url.urlsplit t decoded with
  | none => throw .valueError
  | some parsed =>
      if ¬ ['/'] <+: decoded ∨ ['/', '/'] <+: decoded ∨ parsed.scheme ≠ [] ∨ parsed.netloc ≠ [] ∨
          unsafeCharacter decoded = true then
        throw (.requestRejected "return path must be local")
      return String.ofList decoded

def isAscii (text : String) : Bool := text.toList.all (·.toNat < 0x80)

/-- `hmac.compare_digest` of two texts. -/
def compareDigest (a b : String) : Except Raised Bool :=
  if isAscii a ∧ isAscii b then .ok (a = b) else .error .typeError

/-- `require_csrf`. -/
def requireCsrf (origin : Option String) (expectedOrigin : String) (supplied : Option String)
    (saved : String) : Except Raised Unit :=
  if origin ≠ some expectedOrigin then throw (.requestRejected "origin mismatch")
  else
    match supplied with
    | none => throw (.requestRejected "csrf token mismatch")
    | some token => do
        if ← compareDigest token saved then return ()
        throw (.requestRejected "csrf token mismatch")

/-- How a handler goes on: with what the validator returned, with an answer, or not at all. -/
inductive Handled (α : Type) where
  | proceeds (value : α)
  | answered (status : ℕ) (detail : String)
  | escaped (error : Raised)
  deriving DecidableEq, Repr

/-- `except RequestRejected`. -/
def handle {α : Type} (status : ℕ) : Except Raised α → Handled α
  | .ok value => .proceeds value
  | .error (.requestRejected detail) => .answered status detail
  | .error error => .escaped error

/-- `begin` in `login`, as far as the validator. -/
def loginPath (t : Url.Tables) (returnTo : String) : Handled String :=
  handle 400 (safeReturnPath t returnTo)

/-- `require_csrf` in `logout`, for a browser with a session. -/
def logoutCsrf (origin : Option String) (publicOrigin : String) (xCsrfToken : Option String)
    (saved : String) : Handled Unit :=
  handle 403 (requireCsrf origin publicOrigin xCsrfToken saved)

/-! ## What the validators raise -/

/-- The authority of the decoded return path is one that `urlsplit` takes. -/
def SplitsPath (t : Url.Tables) (returnTo : String) : Prop :=
  Url.wellFormed t (Url.netlocOf (Percent.unquote returnTo.toList)) = true

/-- The origin is right and a token is there, so the tokens are compared. -/
def Compares (origin : Option String) (publicOrigin : String) (xCsrfToken : Option String) : Prop :=
  origin = some publicOrigin ∧ xCsrfToken ≠ none

/-- Tokens that are compared are ASCII. -/
def ComparesAscii (origin : Option String) (publicOrigin : String) (xCsrfToken : Option String)
    (saved : String) : Prop :=
  Compares origin publicOrigin xCsrfToken →
    (∀ token ∈ xCsrfToken, isAscii token = true) ∧ isAscii saved = true

theorem safeReturnPath_rejects {t : Url.Tables} {value : String} :
    Only Raised.IsRejection (safeReturnPath t value) ↔ SplitsPath t value := by
  unfold safeReturnPath SplitsPath
  dsimp only
  cases hsplit : Url.urlsplit t (Percent.unquote value.toList) with
  | none =>
      rw [only_throw, Url.urlsplit_eq_none.mp hsplit]
      simp [Raised.IsRejection]
  | some parsed =>
      have hwell : Url.wellFormed t (Url.netlocOf (Percent.unquote value.toList)) = true := by
        rw [← Bool.not_eq_false, ← Url.urlsplit_eq_none, hsplit]
        exact Option.some_ne_none _
      refine iff_of_true ?_ hwell
      dsimp only
      split
      · exact (only_throw _).mpr trivial
      · exact only_pure _

theorem requireCsrf_rejects {origin : Option String} {publicOrigin : String}
    {xCsrfToken : Option String} {saved : String} :
    Only Raised.IsRejection (requireCsrf origin publicOrigin xCsrfToken saved) ↔
      ComparesAscii origin publicOrigin xCsrfToken saved := by
  unfold requireCsrf ComparesAscii Compares
  by_cases horigin : origin = some publicOrigin
  · rw [if_neg (not_not_intro horigin)]
    cases xCsrfToken with
    | none =>
        refine iff_of_true ((only_throw _).mpr trivial) ?_
        exact fun h => absurd rfl h.2
    | some token =>
        dsimp only
        rw [only_bind]
        unfold compareDigest
        by_cases hascii : isAscii token = true ∧ isAscii saved = true
        · rw [if_pos hascii]
          refine iff_of_true ⟨only_ok _, fun same _ => ?_⟩ fun _ => ?_
          · cases same with
            | true => exact only_pure _
            | false => exact (only_throw _).mpr trivial
          · exact ⟨fun token' h => by cases h; exact hascii.1, hascii.2⟩
        · rw [if_neg hascii]
          refine iff_of_false (fun h => (only_error _).mp h.1) fun h => ?_
          obtain ⟨htoken, hsaved⟩ := h ⟨horigin, Option.some_ne_none token⟩
          exact hascii ⟨htoken token rfl, hsaved⟩
  · rw [if_pos horigin]
    exact iff_of_true ((only_throw _).mpr trivial) fun h => absurd h.1 horigin

/-- A handler that lets nothing escape and answers what is refused with one status. -/
def Handled.AnswersOnly {α : Type} (status : ℕ) : Handled α → Prop
  | .proceeds _ => True
  | .answered status' _ => status' = status
  | .escaped _ => False

instance {α : Type} (status : ℕ) : (r : Handled α) → Decidable (r.AnswersOnly status)
  | .proceeds _ => .isTrue trivial
  | .answered status' _ => inferInstanceAs (Decidable (status' = status))
  | .escaped _ => .isFalse id

/-- A handler lets nothing escape exactly if the validator raises nothing else. -/
theorem handle_answersOnly {α : Type} {status : ℕ} {r : Except Raised α} :
    (handle status r).AnswersOnly status ↔ Only Raised.IsRejection r := by
  cases r with
  | ok a => exact iff_of_true trivial (only_ok a)
  | error e =>
      rw [only_error]
      cases e with
      | requestRejected detail => exact iff_of_true rfl trivial
      | valueError => exact Iff.rfl
      | typeError => exact Iff.rfl

/-! ## The two handlers -/

/-- `login` and `logout` answer 400 and 403 to what their validators refuse, and let nothing
    escape, exactly if `urlsplit` takes the path and the tokens that are compared are ASCII. -/
theorem validators_reject_iff (t : Url.Tables) (returnTo : String) (origin : Option String)
    (publicOrigin : String) (xCsrfToken : Option String) (saved : String) :
    ((Only Raised.IsRejection (safeReturnPath t returnTo) ∧
        (loginPath t returnTo).AnswersOnly 400) ↔ SplitsPath t returnTo) ∧
      ((Only Raised.IsRejection (requireCsrf origin publicOrigin xCsrfToken saved) ∧
        (logoutCsrf origin publicOrigin xCsrfToken saved).AnswersOnly 403) ↔
          ComparesAscii origin publicOrigin xCsrfToken saved) := by
  refine ⟨?_, ?_⟩
  · rw [loginPath, handle_answersOnly, and_self, safeReturnPath_rejects]
  · rw [logoutCsrf, handle_answersOnly, and_self, requireCsrf_rejects]

/-- A bracket that nothing closes, and a token with an accent. -/
theorem validators_let_escape : ¬ ∀ (t : Url.Tables) (returnTo : String) (origin : Option String)
    (publicOrigin : String) (xCsrfToken : Option String) (saved : String),
    (Only Raised.IsRejection (safeReturnPath t returnTo) ∧
        (loginPath t returnTo).AnswersOnly 400) ∧
      (Only Raised.IsRejection (requireCsrf origin publicOrigin xCsrfToken saved) ∧
        (logoutCsrf origin publicOrigin xCsrfToken saved).AnswersOnly 403) := by
  intro h
  obtain ⟨-, hcsrf⟩ :=
    (h ⟨id, fun _ => false⟩ "/" (some "http://localhost:3000") "http://localhost:3000"
      (some "\u00e9") "csrf").2
  obtain ⟨-, hpath⟩ := (h ⟨id, fun _ => false⟩ "//[" none "" none "").1
  revert hpath hcsrf
  decide +kernel

end TemisLab.Bff
