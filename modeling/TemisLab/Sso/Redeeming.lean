/-
  `verify_email` and `reset_password` statement by statement (`application/auth.py`). Any number
  of calls run at once, and tokens are issued meanwhile. A call selects its token FOR UPDATE,
  which waits while another call holds the row and reads it afresh; it checks the row against
  the clock, writes `consumed_at` and commits, which releases the row. Its second transaction
  reads the user and writes the row of the user.

  * `alone`: a first transaction that nobody disturbs is `consume_one_time`.
  * `redeemed_once`: over every run a token is accepted by at most one call, of its purpose,
    before it expires and for its user; a call that is refused writes nothing.
-/
import TemisLab.Lib.Trace
import TemisLab.Lib.Slots
import TemisLab.Sso.Accounts

namespace TemisLab.Sso.Redeeming

open TemisLab.Lib

/-- The committed users and tokens. A token names a user that exists (the foreign key). -/
structure Accounts where
  users : Table User
  tokens : Table OneTimeToken
  owned : ∀ t ∈ tokens.rows, users.get t.userId ≠ none

inductive Call where
  | verifyEmail (raw : String)
  | resetPassword (raw passwordHash : String)
  deriving DecidableEq, Repr

def Call.raw : Call → String
  | .verifyEmail raw => raw
  | .resetPassword raw _ => raw

def Call.purpose : Call → Purpose
  | .verifyEmail _ => .verify
  | .resetPassword _ _ => .reset

/-- What the second transaction of a call makes of its user's row. -/
def Call.after : Call → User → User
  | .verifyEmail _ => User.withStatus .active
  | .resetPassword _ passwordHash => User.withPassword passwordHash

theorem Call.after_id (call : Call) (u : User) : (call.after u).id = u.id := by
  cases call <;> rfl

/-- What a call does next. It holds the row of its token in `checking` and `marking`. -/
inductive Phase where
  | idle
  | selecting (call : Call)
  | checking (call : Call) (token : OneTimeToken)
  | marking (call : Call) (token : OneTimeToken) (checkedAt : Time)
  | consumed (call : Call) (userId : String)
  | loaded (call : Call) (userId : String) (found : Bool)
  | returned (call : Call)
  | refused (call : Call)
  deriving DecidableEq, Repr

/-- History: a call whose `consume_one_time` returned, the row it read, and when it checked it. -/
structure Accepted where
  caller : ℕ
  call : Call
  token : OneTimeToken
  checkedAt : Time
  deriving DecidableEq, Repr

structure State where
  db : Accounts
  locks : String → Option ℕ
  phase : ℕ → Phase
  log : List Accepted

def State.start (db : Accounts) : State := ⟨db, fun _ => none, fun _ => .idle, []⟩

inductive Event where
  | issue (userId : String) (purpose : Purpose) (raw : String) (now : Time)
  | begin (caller : ℕ) (call : Call)
  | stmt (caller : ℕ) (now : Time)
  deriving DecidableEq, Repr

/-! ## The statements -/

namespace Accounts

/-- `INSERT INTO one_time_tokens`: refused when the digest is taken or the user is missing. -/
def insertToken (db : Accounts) (token : OneTimeToken) : Accounts :=
  match hi : db.tokens.insert token with
  | none => db
  | some tokens =>
      if hu : db.users.get token.userId = none then db
      else
        { db with
          tokens
          owned := by
            intro t ht
            rw [(Table.insert_eq_some hi).2, List.mem_append, List.mem_singleton] at ht
            rcases ht with ht | rfl
            · exact db.owned t ht
            · exact hu }

/-- `UPDATE one_time_tokens SET consumed_at`. -/
def consume (db : Accounts) (digest : String) (now : Time) : Accounts where
  users := db.users
  tokens := db.tokens.modify (fun t => t.digest = digest) (OneTimeToken.consume now)
    (OneTimeToken.consume_digest now)
  owned := by
    intro t' ht'
    obtain ⟨t, ht, rfl⟩ := List.mem_map.mp ht'
    have howned := db.owned t ht
    split
    · exact howned
    · exact howned

/-- `UPDATE users` on the row of one user. -/
def writeUser (db : Accounts) (userId : String) (call : Call) : Accounts where
  users := db.users.modify (fun u => u.id = userId) call.after call.after_id
  tokens := db.tokens
  owned := by
    intro t ht
    rw [Table.get_modify, ne_eq, Option.map_eq_none_iff]
    exact db.owned t ht

/-- `select(OneTimeToken).where(digest, purpose)`. -/
def select (db : Accounts) (digest : String) (purpose : Purpose) : Option OneTimeToken :=
  (db.tokens.get digest).filter fun t => t.purpose = purpose

end Accounts

def State.goTo (s : State) (c : ℕ) (phase : Phase) : State :=
  { s with phase := Function.update s.phase c phase }

/-- The end of a transaction releases its rows. -/
def State.release (s : State) (c : ℕ) : State :=
  { s with locks := fun k => if s.locks k = some c then none else s.locks k }

/-- The next statement of a call; the clock is read by the check and for `consumed_at`. -/
def stmt (env : Env) (s : State) (c : ℕ) (now : Time) : State :=
  match s.phase c with
  | .selecting call =>
      match s.db.select (env.sha256 call.raw) call.purpose with
      | none => s.goTo c (.refused call)
      | some token =>
          if s.locks token.digest = none then
            { s with locks := Function.update s.locks token.digest (some c) }.goTo c
              (.checking call token)
          else s
  | .checking call token =>
      if token.consumedAt ≠ none ∨ token.expiresAt ≤ now then
        (s.release c).goTo c (.refused call)
      else s.goTo c (.marking call token now)
  | .marking call token checkedAt =>
      { (s.release c).goTo c (.consumed call token.userId) with
        db := s.db.consume token.digest now
        log := ⟨c, call, token, checkedAt⟩ :: s.log }
  | .consumed call userId => s.goTo c (.loaded call userId (s.db.users.get userId).isSome)
  | .loaded call userId found =>
      if found then { s.goTo c (.returned call) with db := s.db.writeUser userId call }
      else s.goTo c (.refused call)
  | _ => s

def step (env : Env) (s : State) : Event → State
  | .issue userId purpose raw now =>
      { s with db := s.db.insertToken ⟨env.sha256 raw, userId, purpose, now + 15 * 60, none⟩ }
  | .begin c call =>
      match s.phase c with
      | .idle => s.goTo c (.selecting call)
      | _ => s
  | .stmt c now => stmt env s c now

/-! ## What a statement can do -/

/-- The inversion of `stmt`. -/
inductive StmtSpec (env : Env) (s : State) (c : ℕ) (now : Time) : State → Prop where
  | waits : StmtSpec env s c now s
  | missing (call : Call) (phase : s.phase c = .selecting call) :
      StmtSpec env s c now (s.goTo c (.refused call))
  | locked (call : Call) (token : OneTimeToken) (phase : s.phase c = .selecting call)
      (row : s.db.select (env.sha256 call.raw) call.purpose = some token)
      (free : s.locks token.digest = none) :
      StmtSpec env s c now
        ({ s with locks := Function.update s.locks token.digest (some c) }.goTo c
          (.checking call token))
  | late (call : Call) (token : OneTimeToken) (phase : s.phase c = .checking call token) :
      StmtSpec env s c now ((s.release c).goTo c (.refused call))
  | passed (call : Call) (token : OneTimeToken) (phase : s.phase c = .checking call token)
      (unused : token.consumedAt = none) (intime : now < token.expiresAt) :
      StmtSpec env s c now (s.goTo c (.marking call token now))
  | marked (call : Call) (token : OneTimeToken) (checkedAt : Time)
      (phase : s.phase c = .marking call token checkedAt) :
      StmtSpec env s c now
        { (s.release c).goTo c (.consumed call token.userId) with
          db := s.db.consume token.digest now
          log := ⟨c, call, token, checkedAt⟩ :: s.log }
  | read (call : Call) (userId : String) (phase : s.phase c = .consumed call userId) :
      StmtSpec env s c now (s.goTo c (.loaded call userId (s.db.users.get userId).isSome))
  | wrote (call : Call) (userId : String) (phase : s.phase c = .loaded call userId true) :
      StmtSpec env s c now { s.goTo c (.returned call) with db := s.db.writeUser userId call }
  | lost (call : Call) (userId : String) (phase : s.phase c = .loaded call userId false) :
      StmtSpec env s c now (s.goTo c (.refused call))

theorem stmt_cases (env : Env) (s : State) (c : ℕ) (now : Time) :
    StmtSpec env s c now (stmt env s c now) := by
  unfold stmt
  cases hphase : s.phase c with
  | selecting call =>
      dsimp only
      split
      · exact .missing call hphase
      · next token hrow =>
          split
          · next hfree => exact .locked call token hphase hrow hfree
          · exact .waits
  | checking call token =>
      dsimp only
      split
      · exact .late call token hphase
      · next hlive =>
          push Not at hlive
          exact .passed call token hphase hlive.1 hlive.2
  | marking call token checkedAt => exact .marked call token checkedAt hphase
  | consumed call userId => exact .read call userId hphase
  | loaded call userId found =>
      cases found with
      | true => exact .wrote call userId hphase
      | false => exact .lost call userId hphase
  | _ => exact .waits

theorem phase_goTo (s : State) (c c' : ℕ) (phase : Phase) :
    (s.goTo c phase).phase c' = if c' = c then phase else s.phase c' := by
  by_cases h : c' = c <;> simp [State.goTo, h]

theorem locks_release {s : State} {c c' : ℕ} {k : String} (hne : c' ≠ c)
    (h : s.locks k = some c') : (s.release c).locks k = some c' := by
  show (if s.locks k = some c then none else s.locks k) = some c'
  rw [if_neg, h]
  rw [h]
  exact fun he => hne (Option.some.inj he)

theorem select_eq_some {db : Accounts} {digest : String} {purpose : Purpose}
    {token : OneTimeToken} (h : db.select digest purpose = some token) :
    db.tokens.get digest = some token ∧ token.purpose = purpose ∧ token.digest = digest := by
  obtain ⟨hget, hpurpose⟩ := Option.filter_eq_some_iff.mp h
  exact ⟨hget, by simpa using hpurpose, Table.key_of_get hget⟩

/-- A row stays when a token is inserted. -/
theorem get_insertToken {db : Accounts} {token t : OneTimeToken} {digest : String}
    (h : db.tokens.get digest = some t) : (db.insertToken token).tokens.get digest = some t := by
  unfold Accounts.insertToken
  split
  · exact h
  · next tokens hi =>
      split
      · exact h
      · show tokens.get digest = some t
        rw [Table.get_insert hi]
        have hne : Keyed.key token ≠ digest := by
          intro he
          have hnew := (Table.insert_eq_some hi).1
          rw [he, h] at hnew
          cases hnew
        rw [if_neg hne, h]

theorem get_consume (db : Accounts) (digest digest' : String) (now : Time) :
    (db.consume digest now).tokens.get digest' =
      (db.tokens.get digest').map fun t => if t.digest = digest then t.consume now else t := by
  unfold Accounts.consume
  rw [Table.get_modify]
  simp

/-- The first transaction of a call, with nobody in between. -/
def first (env : Env) (s : State) (c : ℕ) (now : Time) : State :=
  stmt env (stmt env (stmt env s c now) c now) c now

theorem first_missing {env : Env} {s : State} {c : ℕ} {call : Call} (now : Time)
    (hphase : s.phase c = .selecting call)
    (hrow : s.db.select (env.sha256 call.raw) call.purpose = none) :
    (first env s c now).phase c = .refused call ∧ (first env s c now).db = s.db := by
  have hselect : stmt env s c now = s.goTo c (.refused call) := by
    simp [stmt, hphase, hrow]
  have hover : ∀ s' : State, s'.phase c = .refused call → stmt env s' c now = s' := by
    intro s' h
    simp [stmt, h]
  have hphase' : (s.goTo c (.refused call)).phase c = .refused call := by
    rw [phase_goTo, if_pos rfl]
  unfold first
  rw [hselect, hover _ hphase', hover _ hphase']
  exact ⟨hphase', rfl⟩

theorem first_late {env : Env} {s : State} {c : ℕ} {call : Call} {token : OneTimeToken} (now : Time)
    (hphase : s.phase c = .selecting call)
    (hrow : s.db.select (env.sha256 call.raw) call.purpose = some token)
    (hfree : s.locks token.digest = none)
    (hlate : token.consumedAt ≠ none ∨ token.expiresAt ≤ now) :
    (first env s c now).phase c = .refused call ∧ (first env s c now).db = s.db := by
  let s₁ := { s with locks := Function.update s.locks token.digest (some c) }.goTo c
    (.checking call token)
  have hselect : stmt env s c now = s₁ := by
    simp [stmt, hphase, hrow, hfree, s₁]
  have hphase₁ : s₁.phase c = .checking call token := by
    rw [phase_goTo, if_pos rfl]
  have hcheck : stmt env s₁ c now = (s₁.release c).goTo c (.refused call) := by
    simp only [stmt, hphase₁, if_pos hlate]
  have hphase₂ : ((s₁.release c).goTo c (.refused call)).phase c = .refused call := by
    rw [phase_goTo, if_pos rfl]
  have hover : stmt env ((s₁.release c).goTo c (.refused call)) c now =
      (s₁.release c).goTo c (.refused call) := by
    simp [stmt, hphase₂]
  unfold first
  rw [hselect, hcheck, hover]
  exact ⟨hphase₂, rfl⟩

theorem first_live {env : Env} {s : State} {c : ℕ} {call : Call} {token : OneTimeToken} (now : Time)
    (hphase : s.phase c = .selecting call)
    (hrow : s.db.select (env.sha256 call.raw) call.purpose = some token)
    (hfree : s.locks token.digest = none) (hunused : token.consumedAt = none)
    (hintime : now < token.expiresAt) :
    (first env s c now).phase c = .consumed call token.userId ∧
      (first env s c now).db = s.db.consume token.digest now := by
  let s₁ := { s with locks := Function.update s.locks token.digest (some c) }.goTo c
    (.checking call token)
  have hselect : stmt env s c now = s₁ := by
    simp [stmt, hphase, hrow, hfree, s₁]
  have hphase₁ : s₁.phase c = .checking call token := by
    rw [phase_goTo, if_pos rfl]
  have hcheck : stmt env s₁ c now = s₁.goTo c (.marking call token now) := by
    simp [stmt, hphase₁, hunused, not_le.mpr hintime]
  have hphase₂ : (s₁.goTo c (.marking call token now)).phase c = .marking call token now := by
    rw [phase_goTo, if_pos rfl]
  unfold first
  rw [hselect, hcheck]
  simp only [stmt, hphase₂]
  refine ⟨?_, rfl⟩
  exact Function.update_self ..

/-- A first transaction that nobody disturbs does what `consume_one_time` does. -/
theorem alone {env : Env} {s : State} {db : Db} {c : ℕ} {call : Call}
    (hphase : s.phase c = .selecting call) (hfree : ∀ k, s.locks k = none)
    (htokens : db.oneTimeTokens = s.db.tokens) (now : Time) :
    match consumeOneTime env db call.raw call.purpose now with
    | .ok (userId, db') => (first env s c now).phase c = .consumed call userId ∧
        (first env s c now).db.tokens = db'.oneTimeTokens
    | .error _ => (first env s c now).phase c = .refused call ∧ (first env s c now).db = s.db := by
  unfold consumeOneTime liveOneTime
  rw [htokens]
  cases hget : s.db.tokens.get (env.sha256 call.raw) with
  | none =>
      refine first_missing now hphase ?_
      unfold Accounts.select
      rw [hget, Option.filter_none]
  | some token =>
      by_cases hpurpose : token.purpose = call.purpose
      · have hrow : s.db.select (env.sha256 call.raw) call.purpose = some token := by
          unfold Accounts.select
          rw [hget, Option.filter_some, if_pos (by simpa using hpurpose)]
        by_cases hlate : token.consumedAt ≠ none ∨ token.expiresAt ≤ now
        · have hrefused : token.purpose ≠ call.purpose ∨ token.consumedAt ≠ none ∨
              token.expiresAt ≤ now := Or.inr hlate
          simp only [if_pos hrefused]
          exact first_late now hphase hrow (hfree _) hlate
        · have hpassed : ¬ (token.purpose ≠ call.purpose ∨ token.consumedAt ≠ none ∨
              token.expiresAt ≤ now) := by
            rintro (h | h)
            · exact h hpurpose
            · exact hlate h
          push Not at hlate
          simp only [if_neg hpassed]
          obtain ⟨hconsumed, hdb⟩ := first_live now hphase hrow (hfree _) hlate.1 hlate.2
          refine ⟨hconsumed, ?_⟩
          rw [hdb]
          rfl
      · have hrow : s.db.select (env.sha256 call.raw) call.purpose = none := by
          unfold Accounts.select
          rw [hget, Option.filter_some, if_neg (by simpa using hpurpose)]
        have hrefused : token.purpose ≠ call.purpose ∨ token.consumedAt ≠ none ∨
            token.expiresAt ≤ now := Or.inl hpurpose
        simp only [if_pos hrefused]
        exact first_missing now hphase hrow

/-! ## The invariant -/

/-- A call holds the row of its token, which is as it read it. -/
structure Holds (env : Env) (s : State) (c : ℕ) (call : Call) (token : OneTimeToken) : Prop where
  lock : s.locks token.digest = some c
  row : s.db.tokens.get token.digest = some token
  digest : token.digest = env.sha256 call.raw
  purpose : token.purpose = call.purpose

/-- The call was accepted, with a token of the user. -/
def Doing (s : State) (c : ℕ) (call : Call) (userId : String) : Prop :=
  ∃ a ∈ s.log, a.caller = c ∧ a.call = call ∧ a.token.userId = userId

/-- What is known of a call in a phase. -/
def Fits (env : Env) (s : State) (c : ℕ) : Phase → Prop
  | .checking call token => Holds env s c call token
  | .marking call token checkedAt =>
      Holds env s c call token ∧ token.consumedAt = none ∧ checkedAt < token.expiresAt
  | .consumed call userId => Doing s c call userId
  | .loaded call userId found => found = true ∧ Doing s c call userId
  | _ => True

/-- An accepted call has only its second transaction left. -/
def Accepted.Past (a : Accepted) : Phase → Prop
  | .consumed call userId => call = a.call ∧ userId = a.token.userId
  | .loaded call userId _ => call = a.call ∧ userId = a.token.userId
  | .returned call => call = a.call
  | _ => False

/-- The token was the caller's own, unused and unexpired. -/
structure Accepted.Valid (env : Env) (a : Accepted) : Prop where
  digest : a.token.digest = env.sha256 a.call.raw
  purpose : a.token.purpose = a.call.purpose
  unused : a.token.consumedAt = none
  intime : a.checkedAt < a.token.expiresAt

/-- The row of an accepted token is the one the call read, consumed. -/
def Spent (db : Accounts) (a : Accepted) : Prop :=
  ∃ consumedAt, db.tokens.get a.token.digest = some (a.token.consume consumedAt)

structure Inv (env : Env) (s : State) : Prop where
  fits : ∀ c, Fits env s c (s.phase c)
  valid : ∀ a ∈ s.log, a.Valid env
  spent : ∀ a ∈ s.log, Spent s.db a
  once : (s.log.map fun a => a.token.digest).Nodup
  past : ∀ a ∈ s.log, a.Past (s.phase a.caller)

theorem inv_start (env : Env) (db : Accounts) : Inv env (.start db) :=
  ⟨fun _ => trivial, by simp [State.start], by simp [State.start], List.nodup_nil,
    by simp [State.start]⟩

/-- What a step of others leaves a call: its locks, the rows it holds, the log. -/
structure Undisturbed (s s' : State) (c : ℕ) : Prop where
  locks : ∀ k, s.locks k = some c → s'.locks k = some c
  rows : ∀ k t, s.locks k = some c → s.db.tokens.get k = some t → s'.db.tokens.get k = some t
  log : ∀ a ∈ s.log, a ∈ s'.log

theorem Holds.undisturbed {env : Env} {s s' : State} {c : ℕ} {call : Call} {token : OneTimeToken}
    (h : Holds env s c call token) (hs : Undisturbed s s' c) : Holds env s' c call token :=
  ⟨hs.locks _ h.lock, hs.rows _ _ h.lock h.row, h.digest, h.purpose⟩

theorem Doing.undisturbed {s s' : State} {c : ℕ} {call : Call} {userId : String}
    (h : Doing s c call userId) (hs : Undisturbed s s' c) : Doing s' c call userId := by
  obtain ⟨a, ha, hfacts⟩ := h
  exact ⟨a, hs.log a ha, hfacts⟩

theorem Fits.undisturbed {env : Env} {s s' : State} {c : ℕ} {phase : Phase}
    (h : Fits env s c phase) (hs : Undisturbed s s' c) : Fits env s' c phase := by
  cases phase with
  | checking call token => exact Holds.undisturbed h hs
  | marking call token checkedAt => exact ⟨h.1.undisturbed hs, h.2⟩
  | consumed call userId => exact Doing.undisturbed h hs
  | loaded call userId found => exact ⟨h.1, h.2.undisturbed hs⟩
  | _ => trivial

/-- A call goes on, and nobody is accepted. -/
theorem Inv.move {env : Env} {s s' : State} {c : ℕ} {phase : Phase} (h : Inv env s)
    (hphase : ∀ c', s'.phase c' = if c' = c then phase else s.phase c') (hlog : s'.log = s.log)
    (hothers : ∀ c', c' ≠ c → Undisturbed s s' c') (hfits : Fits env s' c phase)
    (hspent : ∀ a ∈ s.log, Spent s.db a → Spent s'.db a)
    (hpast : ∀ a ∈ s.log, a.Past (s.phase c) → a.Past phase) : Inv env s' := by
  refine ⟨?_, ?_, ?_, ?_, ?_⟩
  · intro c'
    rw [hphase]
    by_cases hc : c' = c
    · rw [if_pos hc, hc]
      exact hfits
    · rw [if_neg hc]
      exact (h.fits c').undisturbed (hothers c' hc)
  · rw [hlog]
    exact h.valid
  · rw [hlog]
    exact fun a ha => hspent a ha (h.spent a ha)
  · rw [hlog]
    exact h.once
  · rw [hlog]
    intro a ha
    rw [hphase]
    by_cases hc : a.caller = c
    · rw [if_pos hc]
      exact hpast a ha (hc ▸ h.past a ha)
    · rw [if_neg hc]
      exact h.past a ha

/-- An accepted token has a row of another digest than one that is not used. -/
theorem Spent.ne {db : Accounts} {a : Accepted} {token : OneTimeToken} (h : Spent db a)
    (hrow : db.tokens.get token.digest = some token) (hunused : token.consumedAt = none) :
    a.token.digest ≠ token.digest := by
  obtain ⟨consumedAt, hget⟩ := h
  intro he
  rw [he, hrow] at hget
  have hsame : token = a.token.consume consumedAt := Option.some.inj hget
  rw [hsame] at hunused
  cases hunused

theorem Spent.consume {db : Accounts} {a : Accepted} {digest : String} (h : Spent db a)
    (hne : a.token.digest ≠ digest) (now : Time) : Spent (db.consume digest now) a := by
  obtain ⟨consumedAt, hget⟩ := h
  refine ⟨consumedAt, ?_⟩
  rw [get_consume, hget, Option.map_some, OneTimeToken.consume_digest, if_neg hne]

/-- The user of an accepted call exists. -/
theorem Inv.user_found {env : Env} {s : State} (h : Inv env s) {c : ℕ} {call : Call}
    {userId : String} (hdoing : Doing s c call userId) :
    (s.db.users.get userId).isSome = true := by
  obtain ⟨a, ha, -, -, rfl⟩ := hdoing
  obtain ⟨consumedAt, hget⟩ := h.spent a ha
  have howned := s.db.owned _ (Table.mem_of_get hget).1
  exact Option.isSome_iff_ne_none.mpr howned

theorem inv_marked {env : Env} {s : State} (h : Inv env s) {c : ℕ} {call : Call}
    {token : OneTimeToken} {checkedAt : Time} (hphase : s.phase c = .marking call token checkedAt)
    (now : Time) :
    Inv env
      { (s.release c).goTo c (.consumed call token.userId) with
        db := s.db.consume token.digest now
        log := ⟨c, call, token, checkedAt⟩ :: s.log } := by
  have hfits := h.fits c
  rw [hphase] at hfits
  obtain ⟨hholds, hunused, hintime⟩ := hfits
  have hnew : ∀ a ∈ s.log, a.token.digest ≠ token.digest :=
    fun a ha => (h.spent a ha).ne hholds.row hunused
  have hcaller : ∀ a ∈ s.log, a.caller ≠ c := by
    intro a ha hc
    have hpast := h.past a ha
    rw [hc, hphase] at hpast
    exact hpast
  refine ⟨?_, ?_, ?_, ?_, ?_⟩
  · intro c'
    show Fits env _ c' (((s.release c).goTo c (.consumed call token.userId)).phase c')
    rw [phase_goTo]
    by_cases hc : c' = c
    · rw [if_pos hc, hc]
      exact ⟨_, List.mem_cons_self, rfl, rfl, rfl⟩
    · rw [if_neg hc]
      refine (h.fits c').undisturbed ⟨?_, ?_, ?_⟩
      · exact fun k hk => locks_release hc hk
      · -- the row another call holds is not the one that is consumed
        intro k t hk hget
        have hne : k ≠ token.digest := by
          intro he
          rw [he, hholds.lock] at hk
          exact hc (Option.some.inj hk).symm
        have hdigest : t.digest = k := Table.key_of_get hget
        show (s.db.consume token.digest now).tokens.get k = some t
        rw [get_consume, hget, Option.map_some, hdigest, if_neg hne]
      · exact fun a ha => List.mem_cons_of_mem _ ha
  · intro a ha
    rcases List.mem_cons.mp ha with rfl | ha
    · exact ⟨hholds.digest, hholds.purpose, hunused, hintime⟩
    · exact h.valid a ha
  · intro a ha
    rcases List.mem_cons.mp ha with rfl | ha
    · refine ⟨now, ?_⟩
      show (s.db.consume token.digest now).tokens.get token.digest = some (token.consume now)
      rw [get_consume, hholds.row, Option.map_some, if_pos rfl]
    · exact (h.spent a ha).consume (hnew a ha) now
  · refine List.nodup_cons.mpr ⟨?_, h.once⟩
    intro hmem
    obtain ⟨a, ha, he⟩ := List.mem_map.mp hmem
    exact hnew a ha he
  · intro a ha
    show a.Past (((s.release c).goTo c (.consumed call token.userId)).phase a.caller)
    rw [phase_goTo]
    rcases List.mem_cons.mp ha with rfl | ha
    · rw [if_pos rfl]
      exact ⟨rfl, rfl⟩
    · rw [if_neg (hcaller a ha)]
      exact h.past a ha

theorem inv_stmt (env : Env) (s : State) (c : ℕ) (now : Time) (h : Inv env s) :
    Inv env (stmt env s c now) := by
  have hfits := h.fits c
  have hsame : ∀ c', c' ≠ c → ∀ phase, Undisturbed s (s.goTo c phase) c' :=
    fun c' _ phase => ⟨fun _ hk => hk, fun _ _ _ ht => ht, fun _ ha => ha⟩
  have hcases := stmt_cases env s c now
  generalize stmt env s c now = s' at hcases ⊢
  cases hcases with
  | waits => exact h
  | missing call phase =>
      refine h.move (phase_goTo s c · _) rfl (fun c' hc => hsame c' hc _) trivial
        (fun _ _ hs => hs) ?_
      rw [phase]
      exact fun _ _ hpast => hpast.elim
  | locked call token phase row free =>
      obtain ⟨hget, hpurpose, hdigest⟩ := select_eq_some row
      refine h.move (phase_goTo _ c · _) rfl ?_ ?_ (fun _ _ hs => hs) ?_
      · intro c' hc
        refine ⟨?_, fun _ _ _ ht => ht, fun _ ha => ha⟩
        intro k hk
        have hne : k ≠ token.digest := by
          intro he
          rw [he, free] at hk
          cases hk
        exact (Function.update_of_ne hne ..).trans hk
      · exact ⟨Function.update_self .., hdigest ▸ hget, hdigest, hpurpose⟩
      · rw [phase]
        exact fun _ _ hpast => hpast.elim
  | late call token phase =>
      refine h.move (phase_goTo _ c · _) rfl ?_ trivial (fun _ _ hs => hs) ?_
      · exact fun c' hc => ⟨fun k hk => locks_release hc hk, fun _ _ _ ht => ht, fun _ ha => ha⟩
      · rw [phase]
        exact fun _ _ hpast => hpast.elim
  | passed call token phase unused intime =>
      rw [phase] at hfits
      refine h.move (phase_goTo s c · _) rfl (fun c' hc => hsame c' hc _) ⟨?_, unused, intime⟩
        (fun _ _ hs => hs) ?_
      · exact ⟨hfits.lock, hfits.row, hfits.digest, hfits.purpose⟩
      · rw [phase]
        exact fun _ _ hpast => hpast.elim
  | marked call token checkedAt phase => exact inv_marked h phase now
  | read call userId phase =>
      rw [phase] at hfits
      refine h.move (phase_goTo s c · _) rfl (fun c' hc => hsame c' hc _)
        ⟨h.user_found hfits, hfits⟩ (fun _ _ hs => hs) ?_
      rw [phase]
      exact fun _ _ hpast => hpast
  | wrote call userId phase =>
      refine h.move (phase_goTo s c · _) rfl
        (fun c' _ => ⟨fun _ hk => hk, fun _ _ _ ht => ht, fun _ ha => ha⟩) trivial
        (fun _ _ hs => hs) ?_
      rw [phase]
      exact fun _ _ hpast => hpast.1
  | lost call userId phase =>
      rw [phase] at hfits
      exact absurd hfits.1 Bool.false_ne_true

theorem inv_step (env : Env) (s : State) (e : Event) (h : Inv env s) : Inv env (step env s e) := by
  cases e with
  | issue userId purpose raw now =>
      have hrows : ∀ (k : String) (t : OneTimeToken), s.db.tokens.get k = some t →
          (step env s (.issue userId purpose raw now)).db.tokens.get k = some t :=
        fun k t hk => get_insertToken hk
      refine ⟨?_, h.valid, ?_, h.once, h.past⟩
      · exact fun c => (h.fits c).undisturbed
          ⟨fun _ hk => hk, fun k t _ ht => hrows k t ht, fun _ ha => ha⟩
      · intro a ha
        obtain ⟨consumedAt, hget⟩ := h.spent a ha
        exact ⟨consumedAt, hrows _ _ hget⟩
  | begin c call =>
      simp only [step]
      split
      · next phase =>
          refine h.move (phase_goTo s c · _) rfl
            (fun c' _ => ⟨fun _ hk => hk, fun _ _ _ ht => ht, fun _ ha => ha⟩) trivial
            (fun _ _ hs => hs) ?_
          rw [phase]
          exact fun _ _ hpast => hpast.elim
      · exact h
  | stmt c now => exact inv_stmt env s c now h

theorem inv_run (env : Env) (db : Accounts) (es : List Event) :
    Inv env (run (step env) (.start db) es) :=
  run_always (step env) (Inv env) (inv_step env) (inv_start env db) es

/-! ## What a run writes -/

theorem log_step (env : Env) (s : State) (e : Event) : ∀ a ∈ s.log, a ∈ (step env s e).log := by
  cases e with
  | issue userId purpose raw now => exact fun a ha => ha
  | begin c call =>
      simp only [step]
      split <;> exact fun a ha => ha
  | stmt c now =>
      have hcases := stmt_cases env s c now
      simp only [step]
      generalize stmt env s c now = s' at hcases ⊢
      cases hcases with
      | marked call token checkedAt phase => exact fun a ha => List.mem_cons_of_mem _ ha
      | _ => exact fun a ha => ha

theorem log_run (env : Env) (s : State) (es : List Event) :
    ∀ a ∈ s.log, a ∈ (run (step env) s es).log :=
  run_rel (step env) (fun s t => ∀ a ∈ s.log, a ∈ t.log) (fun _ _ ha => ha)
    (fun _ _ _ h h' a ha => h' a (h a ha)) (log_step env) s es

/-- A statement of a call writes nothing, or an accepted call marks its token or writes the row
    of its user. -/
def Writes (db db' : Accounts) (log : List Accepted) (c : ℕ) (now : Time) : Prop :=
  db' = db ∨ ∃ a ∈ log, a.caller = c ∧
    (db' = db.consume a.token.digest now ∨ db' = db.writeUser a.token.userId a.call)

theorem writes_stmt {env : Env} {s : State} (h : Inv env s) (c : ℕ) (now : Time) :
    Writes s.db (stmt env s c now).db (stmt env s c now).log c now := by
  have hfits := h.fits c
  have hcases := stmt_cases env s c now
  generalize stmt env s c now = s' at hcases ⊢
  cases hcases with
  | marked call token checkedAt phase =>
      exact Or.inr ⟨_, List.mem_cons_self, rfl, Or.inl rfl⟩
  | wrote call userId phase =>
      rw [phase] at hfits
      obtain ⟨-, a, ha, hc, rfl, rfl⟩ := hfits
      exact Or.inr ⟨a, ha, hc, Or.inr rfl⟩
  | _ => exact Or.inl rfl

/-- The row `t` was there at the start as `t₀`, or was issued as `t₀`; only `consumed_at` may
    have changed since. -/
def IssuedAs (env : Env) (s : State) (es : List Event) (t t₀ : OneTimeToken) : Prop :=
  t = { t₀ with consumedAt := t.consumedAt } ∧
    (t₀ ∈ s.db.tokens.rows ∨ ∃ userId purpose raw now, .issue userId purpose raw now ∈ es ∧
      t₀ = ⟨env.sha256 raw, userId, purpose, now + 15 * 60, none⟩)

theorem mem_insertToken {db : Accounts} {token t : OneTimeToken}
    (h : t ∈ (db.insertToken token).tokens.rows) : t ∈ db.tokens.rows ∨ t = token := by
  unfold Accounts.insertToken at h
  split at h
  · exact Or.inl h
  · next tokens hi =>
      split at h
      · exact Or.inl h
      · change t ∈ tokens.rows at h
        rw [(Table.insert_eq_some hi).2, List.mem_append, List.mem_singleton] at h
        exact h

theorem issued_step (env : Env) (s : State) (e : Event) (t : OneTimeToken)
    (ht : t ∈ (step env s e).db.tokens.rows) : ∃ t₀, IssuedAs env s [e] t t₀ := by
  cases e with
  | issue userId purpose raw now =>
      rcases mem_insertToken ht with hold | hnew
      · exact ⟨t, rfl, Or.inl hold⟩
      · exact ⟨t, rfl, Or.inr ⟨userId, purpose, raw, now, List.mem_cons_self, hnew⟩⟩
  | begin c call =>
      simp only [step] at ht
      split at ht <;> exact ⟨t, rfl, Or.inl ht⟩
  | stmt c now =>
      have hcases := stmt_cases env s c now
      simp only [step] at ht
      generalize stmt env s c now = s' at hcases ht
      cases hcases with
      | marked call token checkedAt phase =>
          obtain ⟨t₀, ht₀, rfl⟩ := List.mem_map.mp ht
          refine ⟨t₀, ?_, Or.inl ht₀⟩
          split <;> rfl
      | _ => exact ⟨t, rfl, Or.inl ht⟩

theorem issued_run (env : Env) (s : State) (es : List Event) (t : OneTimeToken)
    (ht : t ∈ (run (step env) s es).db.tokens.rows) : ∃ t₀, IssuedAs env s es t t₀ := by
  induction es generalizing s with
  | nil => exact ⟨t, rfl, Or.inl ht⟩
  | cons e es ih =>
      obtain ⟨t₁, hsame, hfrom⟩ := ih (step env s e) ht
      rcases hfrom with hmem | ⟨userId, purpose, raw, now, hmem, hnew⟩
      · obtain ⟨t₀, hsame₀, hfrom₀⟩ := issued_step env s e t₁ hmem
        refine ⟨t₀, ?_, ?_⟩
        · rw [hsame, hsame₀]
        · rcases hfrom₀ with hold | ⟨userId, purpose, raw, now, hmem₀, hnew⟩
          · exact Or.inl hold
          · rw [List.mem_singleton] at hmem₀
            exact Or.inr ⟨userId, purpose, raw, now, hmem₀ ▸ List.mem_cons_self, hnew⟩
      · exact ⟨t₁, hsame, Or.inr ⟨userId, purpose, raw, now, List.mem_cons_of_mem _ hmem, hnew⟩⟩

/-- Over every run: no two acceptances of one token; each one of a token as it was issued, for
    its purpose and before it expires; the only writes of a call are those of its acceptance, on
    its token and its user; and a call that was refused has written nothing. -/
theorem redeemed_once (env : Env) (db : Accounts) (es : List Event) :
    ((run (step env) (.start db) es).log.map fun a => a.token.digest).Nodup ∧
    (∀ a ∈ (run (step env) (.start db) es).log, a.Valid env ∧
      ∃ t₀, IssuedAs env (.start db) es a.token t₀) ∧
    (∀ pre c now post, es = pre ++ .stmt c now :: post →
      Writes (run (step env) (.start db) pre).db
        (run (step env) (.start db) (pre ++ [.stmt c now])).db
        (run (step env) (.start db) es).log c now) ∧
    (∀ c call, (run (step env) (.start db) es).phase c = .refused call →
      ∀ pre now post, es = pre ++ .stmt c now :: post →
        (run (step env) (.start db) (pre ++ [.stmt c now])).db =
          (run (step env) (.start db) pre).db) := by
  have hinv := inv_run env db es
  have hwrites : ∀ pre c now post, es = pre ++ .stmt c now :: post →
      Writes (run (step env) (.start db) pre).db
        (run (step env) (.start db) (pre ++ [.stmt c now])).db
        (run (step env) (.start db) es).log c now := by
    intro pre c now post hes
    have hstep : run (step env) (.start db) (pre ++ [.stmt c now]) =
        stmt env (run (step env) (.start db) pre) c now := run_append _ _ _ _
    have hrest : run (step env) (.start db) es =
        run (step env) (stmt env (run (step env) (.start db) pre) c now) post := by
      rw [hes, run_append]
      rfl
    rw [hstep, hrest]
    rcases writes_stmt (inv_run env db pre) c now with hsame | ⟨a, ha, hfacts⟩
    · exact Or.inl hsame
    · exact Or.inr ⟨a, log_run env _ post a ha, hfacts⟩
  refine ⟨hinv.once, ?_, hwrites, ?_⟩
  · intro a ha
    refine ⟨hinv.valid a ha, ?_⟩
    obtain ⟨consumedAt, hget⟩ := hinv.spent a ha
    obtain ⟨t₀, hsame, hfrom⟩ := issued_run env (.start db) es _ (Table.mem_of_get hget).1
    refine ⟨t₀, ?_, hfrom⟩
    have htoken : a.token = { a.token.consume consumedAt with consumedAt := none } := by
      have hunused := (hinv.valid a ha).unused
      cases htok : a.token with
      | mk digest userId purpose expiresAt used =>
          rw [htok] at hunused
          change used = none at hunused
          rw [hunused]
          rfl
    rw [htoken, hsame]
  · intro c call hrefused pre now post hes
    rcases hwrites pre c now post hes with hsame | ⟨a, ha, hc, -⟩
    · exact hsame
    · have hpast := hinv.past a ha
      rw [hc, hrefused] at hpast
      exact hpast.elim

/-- A pending user with a token to verify the address. -/
def pendingUser : Accounts where
  users := ⟨[{ id := "u", email := "u", passwordHash := none }], by decide⟩
  tokens := ⟨[⟨"t", "u", .verify, 900, none⟩], by decide⟩
  owned := by decide

/-- Three calls race for the token; the third one for the other purpose. The second call selects
    while the first holds the row, and again after it. -/
example : (run (step plainEnv) (.start pendingUser)
    [.begin 0 (.verifyEmail "t"), .begin 1 (.verifyEmail "t"), .begin 2 (.resetPassword "t" "pw"),
     .stmt 0 1, .stmt 1 2, .stmt 2 2, .stmt 0 3, .stmt 1 4, .stmt 0 5, .stmt 1 6, .stmt 1 7,
     .stmt 0 8, .stmt 0 9]).phase 1 = .refused (.verifyEmail "t") := by
  decide +kernel

end TemisLab.Sso.Redeeming
