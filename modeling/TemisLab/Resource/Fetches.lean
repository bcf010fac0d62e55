/-
  How often a verifier calls `fetch_jwks`. The events are those of `Verifier`; `fetches` is the
  history of the calls of `fetch_jwks`, newest first, each with its cause: the key set had expired,
  or a kid was unknown.

  * `Bounded`: in any window shorter than `jwks_ttl`, `refresh_cooldown` and 30 seconds at most one
    fetch of each cause starts.
  * `rejected_documents`: it does not hold. A fetch for an expired key set that ends with a
    `TokenRejected` sets no deadline, and the next call fetches again.
  * `fetches_bounded`: it holds of every run in which a fetch for an expired key set that is
    rejected, or whose call is cancelled, has taken as long as the window (`Armed`).

  Forced fetches are spaced by `_unknown_refresh_after`, which is set before the fetch. Those for an
  expired key set are spaced by the deadline that their outcome sets (`Rested`).
-/
import TemisLab.Lib.Spacing
import TemisLab.Resource.Attestation

namespace TemisLab.Resource

open TemisLab.Lib TemisLab.Sso TemisLab.Keyring

variable {Token : Type}

/-- Why a call fetches the key set. -/
inductive Cause where
  | expiry | forced
  deriving DecidableEq, Repr

/-- A call of `fetch_jwks`. -/
structure Fetch where
  cause : Cause
  time : Time
  deriving DecidableEq, Repr

/-- The fetch a call awaits. -/
def Task.fetching : Task Token → Option Cause
  | .fetchStale .. => some .expiry
  | .fetchUnknown .. => some .forced
  | _ => none

/-- The calls of one verifier, and the fetches they have started. -/
structure Watch (Token : Type) where
  host : Host ℕ (Service Token) (Task Token)
  fetches : List Fetch

namespace Watch

def start (cfg : Settings) (J : Jwt Token) (clock : Time) : Watch Token :=
  ⟨(verifier cfg J).start (.start Token clock), []⟩

/-- A step that ends at the await of `fetch_jwks` has called it. -/
def started (host : Host ℕ (Service Token) (Task Token)) : Signal ℕ Token Input → Option Cause
  | .go p _ => (host.task p).fetching
  | _ => none

def step (cfg : Settings) (J : Jwt Token) (x : Watch Token) (e : Signal ℕ Token Input) :
    Watch Token :=
  let host := (verifier cfg J).signal x.host e
  ⟨host, ((started host e).map fun cause => ⟨cause, host.shared.clock⟩).toList ++ x.fetches⟩

/-- When the fetches of a cause started, newest first. -/
def times (x : Watch Token) (cause : Cause) : List Time :=
  (x.fetches.filter (·.cause = cause)).map Fetch.time

/-- The fetches that started in a window. -/
def within (x : Watch Token) (lo hi : Time) : List Fetch :=
  x.fetches.filter fun f => lo ≤ f.time ∧ f.time ≤ hi

end Watch

/-- `min(jwks_ttl, refresh_cooldown, 30.0)`. -/
def Settings.window (cfg : Settings) : Time := min cfg.jwksTtl (min cfg.refreshCooldown 30)

/-- In the run of `events`, short windows hold two fetches at most, one of each cause. -/
def Bounded (cfg : Settings) (J : Jwt Token) (clock : Time) (events : List (Signal ℕ Token Input)) :
    Prop :=
  let x := run (Watch.step cfg J) (.start cfg J clock) events
  ∀ lo hi, hi - lo < cfg.window →
    (x.within lo hi).length ≤ 2 ∧
      ∀ cause, ((x.within lo hi).filter (·.cause = cause)).length ≤ 1

/-- `_safe_refresh` ends with a `TokenRejected`. -/
def rejects (J : Jwt Token) (f : Fetched) : Bool :=
  match safeRefresh J f with
  | .ok _ => false
  | .error reason => reason ≠ .jwksUnavailable

/-- The last fetch for an expired key set started a window ago. -/
def Watch.Waited (cfg : Settings) (x : Watch Token) (now : Time) : Prop :=
  ∀ t ∈ (x.times .expiry).head?, t + cfg.window ≤ now

/-- A fetch for an expired key set is not rejected and its call not cancelled, or only late. -/
def Armed (cfg : Settings) (J : Jwt Token) (x : Watch Token) : Signal ℕ Token Input → Prop
  | .go p i => (x.host.task p).fetching = some .expiry → rejects J i.fetched = true →
      x.Waited cfg (max x.host.shared.clock i.now)
  | .kill p => (x.host.task p).fetching = some .expiry → x.Waited cfg x.host.shared.clock
  | .call _ _ => True

instance (cfg : Settings) (x : Watch Token) (now : Time) : Decidable (x.Waited cfg now) := by
  unfold Watch.Waited
  infer_instance

instance (cfg : Settings) (J : Jwt Token) (x : Watch Token) (e : Signal ℕ Token Input) :
    Decidable (Armed cfg J x e) := by
  unfold Armed
  split <;> infer_instance

/-- Three calls of one moment, while the endpoint answers with a document without keys. -/
def threeRejected : List (Signal ℕ PlainToken Input) :=
  let token := plainToken ⟨"k", bundleClaims "user-1" 7 ["user"] Sso.audience 1⟩
  let now := at_ 1 (.document (.dict [])) none
  [.call 0 token, .go 0 now, .go 0 now, .go 0 now, .call 0 token, .go 0 now, .go 0 now, .go 0 now,
    .call 0 token, .go 0 now, .go 0 now, .go 0 now]

/-- Each of them starts a fetch. -/
theorem rejected_documents : ¬ ∀ cfg clock (events : List (Signal ℕ PlainToken Input)),
    0 < cfg.jwksTtl → 0 < cfg.refreshCooldown → Bounded cfg plainJwt clock events := by
  intro h
  have hb := (h labSettings 0 threeRejected (by decide) (by decide) 1 1 (by decide +kernel)).1
  revert hb
  decide +kernel

/-! ## The deadlines after a step -/

variable {cfg : Settings} {J : Jwt Token} {s : Service Token}

/-- The three deadlines that a fetch waits for. -/
structure SameDeadlines (s s' : Service Token) : Prop where
  clock : s'.clock = s.clock
  until_ : s'.cache.jwksUntil = s.cache.jwksUntil
  error : s'.cache.refreshErrorUntil = s.cache.refreshErrorUntil
  unknown : s'.cache.unknownRefreshAfter = s.cache.unknownRefreshAfter

/-- A step goes on from the service `s` without a fetch. -/
def Onward (s : Service Token) (r : Service Token × Task Token) : Prop :=
  SameDeadlines s r.1 ∧ r.2.fetching = none

theorem SameDeadlines.refl (s : Service Token) : SameDeadlines s s := ⟨rfl, rfl, rfl, rfl⟩

theorem onward_refuse (a : Attempt Token) (reason : Refusal) : Onward s (s.refuse a reason) :=
  ⟨⟨rfl, rfl, rfl, rfl⟩, rfl⟩

theorem onward_conclude (a : Attempt Token) (v : Verified) : Onward s (s.conclude J a v) := by
  unfold Service.conclude
  split
  · exact onward_refuse a _
  · exact ⟨⟨rfl, rfl, rfl, rfl⟩, rfl⟩

theorem onward_verify (a : Attempt Token) (kid : String) (key : PublicKey) (wall : Time) :
    Onward s (s.verify cfg J a kid key wall) := by
  unfold Service.verify
  split
  · exact onward_refuse a _
  · split
    · exact onward_refuse a _
    · simp only
      split
      · exact onward_conclude a _
      · exact ⟨.refl s, rfl⟩

theorem onward_select (a : Attempt Token) (kid : String) (wall : Time) :
    Onward s (s.select cfg J a kid wall) := by
  unfold Service.select
  split
  · exact onward_verify a kid _ wall
  · split
    · exact onward_refuse a _
    · exact ⟨.refl s, rfl⟩

theorem onward_forget (a : Attempt Token) (kid : String) : Onward s (s.forget cfg a kid) :=
  ⟨⟨rfl, rfl, rfl, rfl⟩, rfl⟩

/-- What a step of a call does to the deadlines, and whether it starts a fetch or ends one. -/
inductive Paces (cfg : Settings) (J : Jwt Token) (i : Input) (s : Service Token) (t : Task Token) :
    Service Token × Task Token → Prop where
  | onward (r : Service Token × Task Token) (h : Onward s r) (ht : t.fetching ≠ some .expiry) :
      Paces cfg J i s t r
  | expires (a : Attempt Token) (kid : String) (ht : t = .lockStale a kid)
      (huntil : s.cache.jwksUntil ≤ s.clock) (herror : s.cache.refreshErrorUntil ≤ s.clock) :
      Paces cfg J i s t (s, .fetchStale a kid)
  | forces (a : Attempt Token) (kid : String) (n : ℕ) (ht : t = .lockUnknown a kid n)
      (hunknown : s.cache.unknownRefreshAfter ≤ s.clock) :
      Paces cfg J i s t ({ s with cache.unknownRefreshAfter := s.pause cfg }, .fetchUnknown a kid)
  | accepted (document : Json) (keys : KeySet) (r : Service Token × Task Token)
      (h : Onward (s.accept cfg document keys) r) : Paces cfg J i s t r
  | cooled (r : Service Token × Task Token) (h : Onward (s.coolDown cfg) r) : Paces cfg J i s t r
  | rejected (r : Service Token × Task Token) (h : Onward s r) (ht : t.fetching = some .expiry)
      (hi : rejects J i.fetched = true) : Paces cfg J i s t r

theorem rejects_of_error {f : Fetched} {reason : Refusal} (h : safeRefresh J f = .error reason)
    (hne : reason ≠ .jwksUnavailable) : rejects J f = true := by
  unfold rejects
  rw [h]
  exact decide_eq_true hne

/-- The inversion of a step. -/
theorem paces_advance (cfg : Settings) (J : Jwt Token) (i : Input) (s : Service Token)
    (t : Task Token) : Paces cfg J i s t (s.advance cfg J i t) := by
  have ha := advance_cases cfg J i s t
  generalize s.advance cfg J i t = r at ha ⊢
  cases ha with
  | idle | expired => exact .onward _ ⟨.refl s, rfl⟩ (by simp [Task.fetching])
  | malformed | cooling | negative | coolingUnknown | rejectedUnknown | denied =>
      exact .onward _ (onward_refuse _ _) (by simp [Task.fetching])
  | fresh | refreshed | bridged =>
      exact .onward _ (onward_select _ _ i.wall) (by simp [Task.fetching])
  | expires a kid huntil herror => exact .expires a kid rfl huntil herror
  | accepted a kid document keys hsafe =>
      exact .accepted document keys _ (onward_select a kid i.wall)
  | outlasted a kid hsafe hbridges => exact .cooled _ (onward_select a kid i.wall)
  | cooled | cooledUnknown => exact .cooled _ (onward_refuse _ _)
  | rejected a kid reason hsafe hreason =>
      exact .rejected _ (onward_refuse a _) rfl (rejects_of_error hsafe hreason)
  | appeared a kid missed key hkey =>
      exact .onward _ (onward_verify a kid key i.wall) (by simp [Task.fetching])
  | forces a kid missed hmissing hunknown => exact .forces a kid missed rfl hunknown
  | spared a kid missed hmissing =>
      exact .onward _ (onward_forget a kid) (by simp [Task.fetching])
  | loaded a kid document keys key hsafe hkey =>
      exact .accepted document keys _ (onward_verify a kid key i.wall)
  | missing a kid document keys hsafe hmissing =>
      exact .accepted document keys _ (onward_forget a kid)
  | confirmed a v hactive =>
      obtain ⟨h, hfetching⟩ := onward_conclude (J := J) (s := s.confirm cfg v) a v
      exact .onward _ ⟨⟨h.clock, h.until_, h.error, h.unknown⟩, hfetching⟩ (by simp [Task.fetching])

/-! ## The invariant -/

theorem Settings.window_le_ttl (cfg : Settings) : cfg.window ≤ cfg.jwksTtl := min_le_left _ _

theorem Settings.window_le_cooldown (cfg : Settings) : cfg.window ≤ cfg.refreshCooldown :=
  (min_le_right _ _).trans (min_le_left _ _)

theorem Settings.window_le_pause (cfg : Settings) : cfg.window ≤ min cfg.jwksTtl 30 :=
  le_min (min_le_left _ _) ((min_le_right _ _).trans (min_le_right _ _))

/-- A deadline keeps calls from fetching for a window from `t` on, or that time is over. -/
def Service.Rested (cfg : Settings) (s : Service Token) (t : Time) : Prop :=
  t + cfg.window ≤ s.cache.jwksUntil ∨ t + cfg.window ≤ s.cache.refreshErrorUntil ∨
    t + cfg.window ≤ s.clock

/-- A call awaits the key set because it had expired. -/
def Expiring (host : Host ℕ (Service Token) (Task Token)) : Prop :=
  ∃ p, (host.task p).fetching = some .expiry

/-- Fetches of one cause are spaced, and what spaces the next one from the last is in force. -/
structure Paced (cfg : Settings) (J : Jwt Token) (x : Watch Token) : Prop where
  lock : (verifier cfg J).Sound (fun _ => True) (fun _ _ _ => True) x.host
  spaced : ∀ cause, Spaced cfg.window (x.times cause)
  past : ∀ f ∈ x.fetches, f.time ≤ x.host.shared.clock
  rested : ∀ t ∈ (x.times .expiry).head?, Expiring x.host ∨ x.host.shared.Rested cfg t
  paused : ∀ t ∈ (x.times .forced).head?,
    t + cfg.window ≤ x.host.shared.cache.unknownRefreshAfter

theorem mem_times {x : Watch Token} {cause : Cause} {t : Time} (h : t ∈ x.times cause) :
    ∃ f ∈ x.fetches, f.time = t := by
  obtain ⟨f, hf, rfl⟩ := List.mem_map.mp h
  exact ⟨f, (List.mem_filter.mp hf).1, rfl⟩

theorem Paced.le_clock {x : Watch Token} (h : Paced cfg J x) {cause : Cause} {t : Time}
    (ht : t ∈ (x.times cause).head?) : t ≤ x.host.shared.clock := by
  obtain ⟨f, hf, rfl⟩ := mem_times (List.mem_of_mem_head? ht)
  exact h.past f hf

theorem paced_start (cfg : Settings) (J : Jwt Token) (clock : Time) :
    Paced cfg J (.start cfg J clock) := by
  refine ⟨?_, fun cause => ?_, ?_, ?_, ?_⟩
  · refine ⟨trivial, fun _ => trivial, ?_⟩
    intro p
    exact ⟨by simp [Watch.start, Program.start, verifier, Task.inside],
      by simp [Watch.start, Program.start]⟩
  · cases cause <;> exact spaced_nil _
  · intro f hf
    cases hf
  · intro t ht
    cases ht
  · intro t ht
    cases ht

/-- An event that starts no fetch. -/
theorem Paced.move {x : Watch Token} (h : Paced cfg J x)
    {host : Host ℕ (Service Token) (Task Token)}
    (hlock : (verifier cfg J).Sound (fun _ => True) (fun _ _ _ => True) host)
    (hclock : x.host.shared.clock ≤ host.shared.clock)
    (hunknown : host.shared.cache.unknownRefreshAfter = x.host.shared.cache.unknownRefreshAfter)
    (hrest : ∀ t ∈ (x.times .expiry).head?, Expiring x.host ∨ x.host.shared.Rested cfg t →
      Expiring host ∨ host.shared.Rested cfg t) : Paced cfg J ⟨host, x.fetches⟩ where
  lock := hlock
  spaced := h.spaced
  past f hf := le_trans (h.past f hf) hclock
  rested t ht := hrest t ht (h.rested t ht)
  paused t ht := le_of_le_of_eq (h.paused t ht) hunknown.symm

/-- An event that starts a fetch, a window after the last one of its cause. -/
theorem Paced.fetch {x : Watch Token} (h : Paced cfg J x) (hpos : 0 ≤ cfg.window)
    {host : Host ℕ (Service Token) (Task Token)} (cause : Cause)
    (hlock : (verifier cfg J).Sound (fun _ => True) (fun _ _ _ => True) host)
    (hclock : x.host.shared.clock ≤ host.shared.clock)
    (hlast : ∀ t ∈ (x.times cause).head?, t + cfg.window ≤ host.shared.clock)
    (hrest : ∀ t ∈ (Watch.times ⟨host, ⟨cause, host.shared.clock⟩ :: x.fetches⟩ .expiry).head?,
      Expiring host ∨ host.shared.Rested cfg t)
    (hpause : ∀ t ∈ (Watch.times ⟨host, ⟨cause, host.shared.clock⟩ :: x.fetches⟩ .forced).head?,
      t + cfg.window ≤ host.shared.cache.unknownRefreshAfter) :
    Paced cfg J ⟨host, ⟨cause, host.shared.clock⟩ :: x.fetches⟩ where
  lock := hlock
  spaced c := by
    by_cases hc : cause = c
    · subst hc
      have htimes : Watch.times ⟨host, ⟨cause, host.shared.clock⟩ :: x.fetches⟩ cause =
          host.shared.clock :: x.times cause := by
        simp [Watch.times]
      rw [htimes]
      exact spaced_cons hpos (h.spaced cause) hlast
    · have htimes : Watch.times ⟨host, ⟨cause, host.shared.clock⟩ :: x.fetches⟩ c =
          x.times c := by
        simp [Watch.times, hc]
      rw [htimes]
      exact h.spaced c
  past f hf := by
    rcases List.mem_cons.mp hf with rfl | hf
    · exact le_refl _
    · exact le_trans (h.past f hf) hclock
  rested := hrest
  paused := hpause

/-- The lock alone. -/
theorem lock_keeps (cfg : Settings) (J : Jwt Token) :
    (verifier cfg J).Keeps (fun _ => True) (fun _ _ _ => True) fun _ _ => True :=
  service_keeps cfg J (fun _ _ _ => trivial) fun _ _ _ _ => trivial

theorem inside_of_fetching {t : Task Token} {cause : Cause} (h : t.fetching = some cause) :
    t.inside = true := by
  cases t with
  | fetchStale a kid => rfl
  | fetchUnknown a kid => rfl
  | _ => cases h

/-- Another call keeps awaiting the key set. -/
theorem Expiring.update {host : Host ℕ (Service Token) (Task Token)} (h : Expiring host) {p : ℕ}
    (hp : (host.task p).fetching ≠ some .expiry) (s : Service Token) (lock : Option ℕ)
    (t : Task Token) : Expiring ⟨s, lock, Function.update host.task p t⟩ := by
  obtain ⟨q, hq⟩ := h
  have hne : q ≠ p := by
    intro he
    rw [he] at hq
    exact hp hq
  refine ⟨q, ?_⟩
  show (Function.update host.task p t q).fetching = some .expiry
  rw [Function.update_of_ne hne]
  exact hq

/-- Deadlines that have not moved still keep from fetching. -/
theorem Service.Rested.same {s' : Service Token} {t : Time} (h : s.Rested cfg t)
    (hclock : s.clock ≤ s'.clock) (huntil : s'.cache.jwksUntil = s.cache.jwksUntil)
    (herror : s'.cache.refreshErrorUntil = s.cache.refreshErrorUntil) : s'.Rested cfg t := by
  rcases h with h | h | h
  · exact Or.inl (le_of_le_of_eq h huntil.symm)
  · exact Or.inr (Or.inl (le_of_le_of_eq h herror.symm))
  · exact Or.inr (Or.inr (le_trans h hclock))

/-- A call begins. -/
theorem paced_call {x : Watch Token} (h : Paced cfg J x) (p : ℕ) (token : Token) :
    Paced cfg J (x.step cfg J (.call p token)) := by
  have hlock := (lock_keeps cfg J).signal x.host (.call p token) h.lock trivial
  refine h.move hlock ?_ ?_ ?_
  all_goals simp only [Program.signal]
  all_goals split
  · exact le_refl _
  · exact le_refl _
  · rfl
  · rfl
  · next hfree =>
      have hp : (x.host.task p).fetching ≠ some .expiry := by
        intro he
        have hin := (verifier_free cfg J).2 _ hfree
        rw [show (verifier cfg J).inside (x.host.task p) = true from inside_of_fetching he] at hin
        cases hin
      intro t _ hr
      rcases hr with hr | hr
      · exact Or.inl (hr.update hp _ _ _)
      · exact Or.inr hr
  · exact fun t _ hr => hr

/-- A call is cancelled. -/
theorem paced_kill {x : Watch Token} (h : Paced cfg J x) {p : ℕ} (hq : Armed cfg J x (.kill p)) :
    Paced cfg J (x.step cfg J (.kill p)) := by
  have hlock := (lock_keeps cfg J).signal x.host (.kill p) h.lock trivial
  refine h.move hlock (le_refl _) rfl ?_
  intro t ht hr
  by_cases hp : (x.host.task p).fetching = some .expiry
  · exact Or.inr (Or.inr (Or.inr (hq hp t ht)))
  · rcases hr with hr | hr
    · exact Or.inl (hr.update hp _ _ _)
    · exact Or.inr hr

theorem fetching_of_waits {t : Task Token} (h : t.waits = true) : t.fetching = none := by
  cases t with
  | lockStale a kid => rfl
  | lockUnknown a kid n => rfl
  | _ => cases h

/-- Nobody awaits the key set when a call takes the lock. -/
theorem Paced.not_expiring {x : Watch Token} (h : Paced cfg J x) (hfree : x.host.lock = none) :
    ¬ Expiring x.host := by
  rintro ⟨q, hq⟩
  have hin := (h.lock.exclusion q).mp (inside_of_fetching hq)
  rw [hfree] at hin
  cases hin

/-- The watch after a call has run to its next await. -/
def Watch.went (x : Watch Token) (p : ℕ) (r : Service Token × Task Token) : Watch Token where
  host :=
    { shared := r.1
      lock := if r.2.inside then some p else x.host.dropped p
      task := Function.update x.host.task p r.2 }
  fetches := (r.2.fetching.map fun cause => ⟨cause, r.1.clock⟩).toList ++ x.fetches

theorem Watch.step_blocked {x : Watch Token} {p : ℕ} {i : Input}
    (hblocked : ((x.host.task p).waits && x.host.lock.isSome) = true) :
    x.step cfg J (.go p i) = x := by
  have hwaits : (x.host.task p).waits = true := (Bool.and_eq_true_iff.mp hblocked).1
  have hblocked' : ((verifier cfg J).waits (x.host.task p) && x.host.lock.isSome) = true := hblocked
  simp only [Watch.step, Program.signal, if_pos hblocked', Watch.started,
    fetching_of_waits hwaits, Option.map_none, Option.toList_none, List.nil_append]

theorem Watch.step_go {x : Watch Token} {p : ℕ} {i : Input}
    (hrun : ¬ ((x.host.task p).waits && x.host.lock.isSome) = true) :
    x.step cfg J (.go p i) =
      x.went p ((x.host.shared.tick i.now).advance cfg J i (x.host.task p)) := by
  have hrun' : ¬ ((verifier cfg J).waits (x.host.task p) && x.host.lock.isSome) = true := hrun
  simp only [Watch.step, Program.signal, if_neg hrun', Watch.started, Function.update_self]
  rfl

/-- A call goes on without a new fetch. -/
theorem Paced.went {x : Watch Token} (h : Paced cfg J x) {p : ℕ} {s' : Service Token}
    {r : Service Token × Task Token} (hon : Onward s' r)
    (hlock : (verifier cfg J).Sound (fun _ => True) (fun _ _ _ => True) (x.went p r).host)
    (hclock : x.host.shared.clock ≤ s'.clock)
    (hunknown : s'.cache.unknownRefreshAfter = x.host.shared.cache.unknownRefreshAfter)
    (hrest : ∀ t ∈ (x.times .expiry).head?, Expiring x.host ∨ x.host.shared.Rested cfg t →
      (Expiring x.host ∧ (x.host.task p).fetching ≠ some .expiry) ∨ s'.Rested cfg t) :
    Paced cfg J (x.went p r) := by
  obtain ⟨hsame, hnone⟩ := hon
  have hwent : x.went p r = ⟨(x.went p r).host, x.fetches⟩ := by
    simp only [Watch.went, hnone, Option.map_none, Option.toList_none, List.nil_append]
  rw [hwent]
  refine h.move hlock (le_of_le_of_eq hclock hsame.clock.symm)
    (hsame.unknown.trans hunknown) ?_
  intro t ht hr
  rcases hrest t ht hr with ⟨hr, hp⟩ | hr
  · exact Or.inl (hr.update hp _ _ _)
  · exact Or.inr (hr.same (le_of_eq hsame.clock.symm) hsame.until_ hsame.error)

/-- A call goes on. -/
theorem paced_go (httl : 0 < cfg.jwksTtl) (hcooldown : 0 < cfg.refreshCooldown) {x : Watch Token}
    (h : Paced cfg J x) {p : ℕ} {i : Input} (hq : Armed cfg J x (.go p i)) :
    Paced cfg J (x.step cfg J (.go p i)) := by
  have hpos : 0 ≤ cfg.window := le_of_lt (lt_min httl (lt_min hcooldown (by norm_num)))
  have hlock : (verifier cfg J).Sound (fun _ => True) (fun _ _ _ => True)
      (x.step cfg J (.go p i)).host :=
    (lock_keeps cfg J).signal x.host (.go p i) h.lock trivial
  by_cases hblocked : ((x.host.task p).waits && x.host.lock.isSome) = true
  · rw [Watch.step_blocked hblocked]
    exact h
  · have hfree : (x.host.task p).waits = true → x.host.lock = none := by
      intro hwaits
      have hnone : x.host.lock.isSome ≠ true := fun hs =>
        hblocked (Bool.and_eq_true_iff.mpr ⟨hwaits, hs⟩)
      simpa using hnone
    have htick : x.host.shared.clock ≤ (x.host.shared.tick i.now).clock := le_max_left _ _
    have hold : ∀ t ∈ (x.times .expiry).head?, t ≤ (x.host.shared.tick i.now).clock :=
      fun t ht => le_trans (h.le_clock ht) htick
    have hpaces := paces_advance cfg J i (x.host.shared.tick i.now) (x.host.task p)
    rw [Watch.step_go hblocked] at hlock ⊢
    generalize (x.host.shared.tick i.now).advance cfg J i (x.host.task p) = r at hlock hpaces ⊢
    cases hpaces with
    | onward _ hon hp =>
        refine h.went hon hlock htick rfl ?_
        intro t _ hrest
        rcases hrest with hrest | hrest
        · exact Or.inl ⟨hrest, hp⟩
        · exact Or.inr (hrest.same htick rfl rfl)
    | expires a kid hp huntil herror =>
        have hidle := h.not_expiring (hfree (by rw [hp]; rfl))
        refine h.fetch hpos .expiry hlock htick ?_ ?_ ?_
        · intro t ht
          rcases h.rested t ht with hrest | hrest | hrest | hrest
          · exact absurd hrest hidle
          · exact le_trans hrest huntil
          · exact le_trans hrest herror
          · exact le_trans hrest htick
        · intro t _
          exact Or.inl ⟨p, by simp only [Function.update_self]; rfl⟩
        · intro t ht
          exact h.paused t (by simpa [Watch.times] using ht)
    | forces a kid n hp hunknown =>
        have hidle := h.not_expiring (hfree (by rw [hp]; rfl))
        refine h.fetch hpos .forced hlock htick ?_ ?_ ?_
        · intro t ht
          exact le_trans (h.paused t ht) hunknown
        · intro t ht
          rcases h.rested t (by simpa [Watch.times] using ht) with hrest | hrest
          · exact absurd hrest hidle
          · exact Or.inr (hrest.same htick rfl rfl)
        · intro t ht
          have ht : t = (x.host.shared.tick i.now).clock := by
            simpa [Watch.times, eq_comm] using ht
          rw [ht]
          exact add_le_add_right cfg.window_le_pause _
    | accepted document keys _ hon =>
        refine h.went hon hlock htick rfl ?_
        intro t ht _
        exact Or.inr (Or.inl (add_le_add (hold t ht) cfg.window_le_ttl))
    | cooled _ hon =>
        refine h.went hon hlock htick rfl ?_
        intro t ht _
        exact Or.inr (Or.inr (Or.inl (add_le_add (hold t ht) cfg.window_le_cooldown)))
    | rejected _ hon hp hi =>
        refine h.went hon hlock htick rfl ?_
        intro t ht _
        exact Or.inr (Or.inr (Or.inr (hq hp hi t ht)))

theorem paced_step (httl : 0 < cfg.jwksTtl) (hcooldown : 0 < cfg.refreshCooldown)
    (x : Watch Token) (e : Signal ℕ Token Input) (h : Paced cfg J x) (hq : Armed cfg J x e) :
    Paced cfg J (x.step cfg J e) := by
  cases e with
  | call p token => exact paced_call h p token
  | go p i => exact paced_go httl hcooldown h hq
  | kill p => exact paced_kill h hq

/-! ## Windows -/

/-- A short window holds one fetch of a cause at most. -/
theorem Paced.one {x : Watch Token} (h : Paced cfg J x) (hpos : 0 < cfg.window) {lo hi : Time}
    (hw : hi - lo < cfg.window) (cause : Cause) :
    ((x.within lo hi).filter (·.cause = cause)).length ≤ 1 := by
  have hsub : List.Sublist (((x.within lo hi).filter (·.cause = cause)).map Fetch.time)
      (x.times cause) := by
    unfold Watch.within Watch.times
    rw [List.filter_comm]
    exact List.filter_sublist.map _
  have hspaced : Spaced cfg.window (((x.within lo hi).filter (·.cause = cause)).map Fetch.time) :=
    List.Pairwise.sublist hsub (h.spaced cause)
  have hin : ∀ t ∈ ((x.within lo hi).filter (·.cause = cause)).map Fetch.time,
      lo ≤ t ∧ t ≤ hi := by
    intro t ht
    obtain ⟨f, hf, rfl⟩ := List.mem_map.mp ht
    simpa using (List.mem_filter.mp (List.mem_filter.mp hf).1).2
  have hone := hspaced.short (fun t ht => (hin t ht).1) (fun t ht => (hin t ht).2) hpos hw
  rwa [List.length_map] at hone

theorem length_by_cause (fs : List Fetch) :
    fs.length =
      (fs.filter (·.cause = .expiry)).length + (fs.filter (·.cause = .forced)).length := by
  have hother : ∀ f : Fetch, (!decide (f.cause = .expiry)) = decide (f.cause = .forced) := by
    intro f
    cases f.cause <;> rfl
  rw [List.length_eq_length_filter_add fun f : Fetch => decide (f.cause = .expiry)]
  simp only [hother]

/-- Fetches are bounded in every run whose fetches for an expired key set end in time, unless they
    are accepted or an outage ends them. -/
theorem fetches_bounded (cfg : Settings) (J : Jwt Token) (clock : Time)
    (events : List (Signal ℕ Token Input)) (httl : 0 < cfg.jwksTtl)
    (hcooldown : 0 < cfg.refreshCooldown)
    (harmed : Along (Watch.step cfg J) (Armed cfg J) (.start cfg J clock) events) :
    Bounded cfg J clock events := by
  have h : Paced cfg J (run (Watch.step cfg J) (.start cfg J clock) events) :=
    run_invariant (Watch.step cfg J) (Paced cfg J) (paced_step httl hcooldown)
      (paced_start cfg J clock) harmed
  have hpos : 0 < cfg.window := lt_min httl (lt_min hcooldown (by norm_num))
  intro lo hi hw
  refine ⟨?_, h.one hpos hw⟩
  rw [length_by_cause]
  have hexpiry := h.one hpos hw .expiry
  have hforced := h.one hpos hw .forced
  omega

/-- An unknown kid, after which a call with another waits for the lock in vain; the endpoint answers
    and then fails. -/
def unknownKids : List (Signal ℕ PlainToken Input) :=
  let token := fun kid => plainToken ⟨kid, bundleClaims "user-1" 7 ["user"] Sso.audience 1⟩
  let now := fun t => at_ t (.document plainDocument) none
  [.call 0 (token "x"), .go 0 (now 1), .go 0 (now 1), .go 0 (now 1), .go 0 (now 1),
    .call 1 (token "y"), .go 1 (now 1), .go 1 (now 1), .go 0 (at_ 1 .failed none), .go 1 (now 1),
    .call 2 (token "x"), .go 2 (now 31), .go 2 (now 31), .go 2 (now 32)]

theorem unknown_kids_bounded :
    (run (Watch.step labSettings plainJwt) (.start labSettings plainJwt 0) unknownKids).fetches.map
        Fetch.cause = [.forced, .forced, .expiry] ∧
      Bounded labSettings plainJwt 0 unknownKids :=
  ⟨by decide +kernel,
    fetches_bounded labSettings plainJwt 0 unknownKids (by decide) (by decide) (by decide +kernel)⟩

end TemisLab.Resource
