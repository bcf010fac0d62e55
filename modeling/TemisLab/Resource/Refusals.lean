/-
  Refusals for a key reason. The events are those of `Verifier`, in any order.

  * `Bridged`: a call is refused for a key reason only when its kid is not in the key set or the
    key set is past its stale limit.
  * `rejected_document`: it does not hold. An outage is bridged by the cached keys, and a document
    that is not a JWKS, or lists no key, is not.
  * `bridged_iff`: it holds of exactly the runs in which no such document meets a cached kid, and no
    call that waited for the lock finds its kid loaded meanwhile, but still in the negative cache or
    in a cooldown (`Spares`).

  The stale limit is counted from the acceptance of the last document (`Unusable`); that the
  deadline in the cache is this one is the invariant `Dated`. While a call awaits a forced refresh
  it holds the lock, so its kid stays unknown (`Seeks`).
-/
import TemisLab.Resource.Rollover

namespace TemisLab.Resource.Refusals

open TemisLab.Lib TemisLab.Sso TemisLab.Keyring TemisLab.Resource.Rollover

variable {Token : Type}

/-- The refusals that are about the key of a token. -/
def isKeyReason : Refusal → Bool
  | .jwksUnavailable | .unknownSigningKey | .invalidJwks | .noSigningKeys => true
  | _ => false

/-- A call ended between the two states, refused for a key reason. -/
def KeyRefused (before after : Service Token) (e : Ended Token) : Prop :=
  after.ended = e :: before.ended ∧
    ∃ reason, e.outcome = .refused reason ∧ isKeyReason reason = true

/-- The kid is not in the key set, or `jwks_ttl + jwks_stale_ttl` has passed since the last
    document was accepted. -/
def Unusable (cfg : Settings) (s : Service Token) (kid : String) : Prop :=
  s.cache.keys.lookup kid = none ∨
    ∃ d ∈ s.accepted.getLast?, d.time + cfg.jwksTtl + cfg.jwksStaleTtl ≤ s.clock

instance (cfg : Settings) (s : Service Token) (kid : String) : Decidable (Unusable cfg s kid) :=
  inferInstanceAs (Decidable (_ ∨ _))

/-- In the run of `events`, calls are refused for a key reason only without a usable key. -/
def Bridged (cfg : Settings) (J : Jwt Token) (clock : Time) (events : List (Signal ℕ Token Input)) :
    Prop :=
  ∀ pre l post, events = pre ++ l :: post →
    let before := run (verifier cfg J).signal ((verifier cfg J).start (.start Token clock)) pre
    let after := (verifier cfg J).signal before l
    ∀ e, KeyRefused before.shared after.shared e →
      ∀ kid, kidOf J e.attempt.token = some kid → Unusable cfg after.shared kid

/-- The two ways in which a call that holds a usable key is refused: for the document that was to
    replace the key set, or for deadlines that were set before the key was loaded. -/
def Turned (cfg : Settings) (J : Jwt Token) (f : Fetched) (s : Service Token) :
    Task Token → Prop
  | .fetchStale _ kid => ¬ Unusable cfg s kid ∧ NotJwks J f
  | .lockUnknown _ kid _ => ¬ Unusable cfg s kid ∧
      (s.clock < (s.cache.negativeKids kid).getD 0 ∨ s.clock < s.cache.refreshErrorUntil)
  | _ => False

/-- An event does not turn away a call that holds a usable key. -/
def Spares (cfg : Settings) (J : Jwt Token) (h : Host ℕ (Service Token) (Task Token)) :
    Signal ℕ Token Input → Prop
  | .go p i => ((h.task p).waits = true → h.lock = none) →
      ¬ Turned cfg J i.fetched (h.shared.tick i.now) (h.task p)
  | _ => True

instance (cfg : Settings) (J : Jwt Token) (f : Fetched) (s : Service Token) (t : Task Token) :
    Decidable (Turned cfg J f s t) := by
  unfold Turned
  split <;> infer_instance

instance (cfg : Settings) (J : Jwt Token) (h : Host ℕ (Service Token) (Task Token))
    (e : Signal ℕ Token Input) : Decidable (Spares cfg J h e) :=
  match e with
  | .call _ _ | .kill _ => isTrue trivial
  | .go p i => inferInstanceAs
      (Decidable (_ → ¬ Turned cfg J i.fetched (h.shared.tick i.now) (h.task p)))

/-- `k` is loaded; 300 seconds later the endpoint answers with a document without keys. -/
def lostDocument : List (Signal ℕ PlainToken Input) :=
  let token := plainToken ⟨"k", bundleClaims "user-1" 7 ["user"] Sso.audience 1⟩
  [.call 0 token, .go 0 (at_ 1 .failed none), .go 0 (at_ 1 .failed none),
    .go 0 (at_ 1 (.document plainDocument) none), .go 0 (at_ 1 .failed (some true)),
    .call 0 token, .go 0 (at_ 301 .failed none), .go 0 (at_ 301 .failed none)]

/-! ## What a step refuses -/

variable {cfg : Settings} {J : Jwt Token} {s : Service Token}

/-- The stale deadline is that of the last accepted document. -/
def Dated (cfg : Settings) (s : Service Token) : Prop :=
  s.cache.keys = [] ∨ ∃ d ∈ s.accepted.getLast?,
    s.cache.jwksStaleUntil = d.time + cfg.jwksTtl + cfg.jwksStaleTtl

theorem dated_accept (cfg : Settings) (s : Service Token) (document : Json) (keys : KeySet) :
    Dated cfg (s.accept cfg document keys) :=
  Or.inr ⟨⟨s.clock, document⟩, by simp [Service.accept], rfl⟩

/-- What a call that is not over knows of its kid: the token names it, and while a forced refresh is
    under way it is not in the key set. -/
def Seeks (J : Jwt Token) (s : Service Token) : Task Token → Prop
  | .lockStale a kid => kidOf J a.token = some kid
  | .fetchStale a kid => kidOf J a.token = some kid
  | .lockUnknown a kid _ => kidOf J a.token = some kid
  | .fetchUnknown a kid => kidOf J a.token = some kid ∧ s.cache.keys.lookup kid = none
  | _ => True

/-- A call may be refused for a key reason. -/
def Excused (cfg : Settings) (J : Jwt Token) (turned : Prop) (s : Service Token)
    (a : Attempt Token) : Prop :=
  turned ∨ ∃ kid, kidOf J a.token = some kid ∧ Unusable cfg s kid

/-- A step that goes on from `s`: it is refused for a key reason only if it may be. -/
structure Fair (cfg : Settings) (J : Jwt Token) (turned : Prop) (s : Service Token)
    (r : Service Token × Task Token) : Prop where
  keys : r.1.cache.keys = s.cache.keys
  dated : Dated cfg s → Dated cfg r.1
  ended : ∀ e, KeyRefused s r.1 e → Excused cfg J turned r.1 e.attempt
  task : Seeks J r.1 r.2

variable {turned : Prop}

/-- A call is excused unless its kid can be used and it is turned away. -/
theorem excused_unless {a : Attempt Token} {kid : String} (hkid : kidOf J a.token = some kid)
    (h : ¬ Unusable cfg s kid → turned) : Excused cfg J turned s a := by
  by_cases hu : Unusable cfg s kid
  · exact Or.inr ⟨kid, hkid, hu⟩
  · exact Or.inl (h hu)

theorem not_keyRefused_self (s : Service Token) (e : Ended Token) : ¬ KeyRefused s s e := by
  rintro ⟨h, -⟩
  have hlen := congrArg List.length h
  simp at hlen

/-- A call awaits on. -/
theorem fair_stay {t : Task Token} (ht : Seeks J s t) : Fair cfg J turned s (s, t) :=
  ⟨rfl, id, fun e he => absurd he (not_keyRefused_self s e), ht⟩

theorem fair_refuse (a : Attempt Token) (reason : Refusal)
    (h : isKeyReason reason = true → Excused cfg J turned s a) :
    Fair cfg J turned s (s.refuse a reason) := by
  refine ⟨rfl, id, ?_, trivial⟩
  rintro e ⟨hended, reason', hout, hkey⟩
  obtain ⟨rfl, -⟩ := List.cons.inj hended
  cases hout
  exact h hkey

theorem fair_conclude (a : Attempt Token) (v : Verified) :
    Fair cfg J turned s (s.conclude J a v) := by
  unfold Service.conclude
  split
  · exact fair_refuse a _ (by simp [isKeyReason])
  · refine ⟨rfl, id, ?_, trivial⟩
    rintro e ⟨hended, reason, hout, -⟩
    obtain ⟨rfl, -⟩ := List.cons.inj hended
    cases hout

theorem fair_verify (a : Attempt Token) (kid : String) (key : PublicKey) (wall : Time) :
    Fair cfg J turned s (s.verify cfg J a kid key wall) := by
  unfold Service.verify
  split
  · exact fair_refuse a _ (by simp [isKeyReason])
  · split
    · exact fair_refuse a _ (by simp [isKeyReason])
    · simp only
      split
      · exact fair_conclude a _
      · exact fair_stay trivial

theorem fair_select {a : Attempt Token} {kid : String} (wall : Time)
    (hk : kidOf J a.token = some kid) : Fair cfg J turned s (s.select cfg J a kid wall) := by
  unfold Service.select
  split
  · exact fair_verify a kid _ wall
  · next hnone =>
      split
      · exact fair_refuse a _ fun _ => Or.inr ⟨kid, hk, Or.inl hnone⟩
      · exact fair_stay hk

theorem fair_forget {a : Attempt Token} {kid : String} (hk : kidOf J a.token = some kid)
    (hnone : s.cache.keys.lookup kid = none) : Fair cfg J turned s (s.forget cfg a kid) := by
  refine ⟨rfl, id, ?_, trivial⟩
  rintro e ⟨hended, -⟩
  obtain ⟨rfl, -⟩ := List.cons.inj hended
  exact Or.inr ⟨kid, hk, Or.inl hnone⟩

/-- The keys do not bridge an outage: the deadline, which is that of the last document, has
    passed. -/
theorem unusable_of_bridges {now : Time} {kid : String} (hd : Dated cfg s)
    (h : ¬ s.cache.bridges now kid = true) (hnow : s.clock = now) : Unusable cfg s kid := by
  unfold Cache.bridges at h
  cases hk : s.cache.keys.lookup kid with
  | none => exact Or.inl hk
  | some key =>
      rw [hk, Option.isSome_some, Bool.true_and, decide_eq_true_eq, not_lt] at h
      rcases hd with hnil | ⟨d, hlast, hstale⟩
      · rw [hnil] at hk
        cases hk
      · exact Or.inr ⟨d, hlast, hnow ▸ hstale ▸ h⟩

theorem notJwks_of_error {f : Fetched} {reason : Refusal} (h : safeRefresh J f = .error reason)
    (hkey : isKeyReason reason = true) (hne : reason ≠ .jwksUnavailable) : NotJwks J f := by
  refine safeRefresh_notJwks.mp ?_
  cases reason with
  | invalidJwks => exact Or.inl h
  | noSigningKeys => exact Or.inr h
  | jwksUnavailable => exact absurd rfl hne
  | unknownSigningKey => exact absurd h (safeRefresh_ne_unknown J f)
  | _ => cases hkey

/-- What a step of a call does, where the call knows its kid. -/
structure Steps (cfg : Settings) (J : Jwt Token) (f : Fetched) (s : Service Token)
    (t : Task Token) (r : Service Token × Task Token) : Prop where
  keys : t.inside = false → r.1.cache.keys = s.cache.keys
  dated : Dated cfg r.1
  ended : ∀ e, KeyRefused s r.1 e → Excused cfg J (Turned cfg J f s t) r.1 e.attempt
  task : Seeks J r.1 r.2

theorem Fair.steps {f : Fetched} {t : Task Token} {r : Service Token × Task Token}
    (h : Fair cfg J (Turned cfg J f s t) s r) (hd : Dated cfg s) : Steps cfg J f s t r :=
  ⟨fun _ => h.keys, h.dated hd, h.ended, h.task⟩

/-- A step that first changes the key set or its deadlines, under the lock. -/
theorem Fair.under {f : Fetched} {t : Task Token} (s' : Service Token)
    {r : Service Token × Task Token} (h : Fair cfg J (Turned cfg J f s t) s' r)
    (hd : Dated cfg s') (ht : t.inside = true) (hended : s'.ended = s.ended) :
    Steps cfg J f s t r := by
  refine ⟨fun hin => ?_, h.dated hd, ?_, h.task⟩
  · rw [ht] at hin
    cases hin
  · rintro e ⟨he, hr⟩
    exact h.ended e ⟨by rw [he, hended], hr⟩

/-- The inversion of a step. -/
theorem steps_advance (cfg : Settings) (i : Input) {t : Task Token} (hd : Dated cfg s)
    (ht : Seeks J s t) : Steps cfg J i.fetched s t (s.advance cfg J i t) := by
  have hcool : Dated cfg (s.coolDown cfg) := hd
  have ha := advance_cases cfg J i s t
  generalize s.advance cfg J i t = r at ha ⊢
  cases ha with
  | idle => exact (fair_stay (t := .idle) trivial).steps hd
  | malformed token reason hreason =>
      have hnot : isKeyReason reason = false := by rcases hreason with rfl | rfl <;> rfl
      exact (fair_refuse _ reason (by simp [hnot])).steps hd
  | expired token header kid hheader halg hkid huntil =>
      refine Fair.steps (fair_stay ?_) hd
      exact kidOf_of_header hheader hkid
  | fresh token header kid hheader halg hkid huntil =>
      exact (fair_select i.wall (kidOf_of_header hheader hkid)).steps hd
  | refreshed | bridged => exact (fair_select i.wall ht).steps hd
  | cooling a kid hbridges herror =>
      have hu : Unusable cfg s kid := unusable_of_bridges hd hbridges rfl
      exact (fair_refuse a _ fun _ => Or.inr ⟨kid, ht, hu⟩).steps hd
  | expires a kid huntil herror =>
      refine Fair.steps (fair_stay ?_) hd
      exact ht
  | accepted a kid document keys hsafe =>
      have hnew := dated_accept cfg s document keys
      exact Fair.under (s.accept cfg document keys) (fair_select i.wall ht) hnew rfl rfl
  | outlasted a kid hsafe hbridges =>
      exact Fair.under (s.coolDown cfg) (fair_select i.wall ht) hcool rfl rfl
  | cooled a kid hsafe hbridges =>
      have hu : Unusable cfg (s.coolDown cfg) kid := unusable_of_bridges hcool hbridges rfl
      refine Fair.under (s.coolDown cfg) (fair_refuse a _ fun _ => ?_) hcool rfl rfl
      exact Or.inr ⟨kid, ht, hu⟩
  | rejected a kid reason hsafe hreason =>
      refine (fair_refuse a reason fun hkey => excused_unless ht fun hu => ?_).steps hd
      exact ⟨hu, notJwks_of_error hsafe hkey hreason⟩
  | negative a kid missed hnegative =>
      refine (fair_refuse a _ fun _ => excused_unless ht fun hu => ?_).steps hd
      exact ⟨hu, Or.inl hnegative⟩
  | coolingUnknown a kid missed herror =>
      refine (fair_refuse a _ fun _ => excused_unless ht fun hu => ?_).steps hd
      exact ⟨hu, Or.inr herror⟩
  | appeared a kid missed key hkey => exact (fair_verify a kid key i.wall).steps hd
  | forces a kid missed hmissing hunknown =>
      refine Fair.steps ⟨rfl, id, ?_, ht, hmissing⟩ hd
      intro e he
      exact absurd he (not_keyRefused_self _ e)
  | spared a kid missed hmissing => exact (fair_forget ht hmissing).steps hd
  | loaded a kid document keys key hsafe hkey =>
      have hnew := dated_accept cfg s document keys
      exact Fair.under (s.accept cfg document keys) (fair_verify a kid key i.wall) hnew rfl rfl
  | missing a kid document keys hsafe hmissing =>
      have hnew := dated_accept cfg s document keys
      exact Fair.under (s.accept cfg document keys) (fair_forget ht.1 hmissing) hnew rfl rfl
  | cooledUnknown a kid hsafe =>
      refine Fair.under (s.coolDown cfg) (fair_refuse a _ fun _ => ?_) hcool rfl rfl
      exact Or.inr ⟨kid, ht.1, Or.inl ht.2⟩
  | rejectedUnknown a kid reason hsafe hreason =>
      exact (fair_refuse a reason fun _ => Or.inr ⟨kid, ht.1, Or.inl ht.2⟩).steps hd
  | denied a v reason hreason =>
      have hnot : isKeyReason reason = false := by rcases hreason with rfl | rfl <;> rfl
      exact (fair_refuse a reason (by simp [hnot])).steps hd
  | confirmed a v hactive =>
      have hc : Fair cfg J (Turned cfg J i.fetched s (.statusCheck a v)) (s.confirm cfg v)
          ((s.confirm cfg v).conclude J a v) := fair_conclude a v
      exact Fair.steps ⟨hc.keys, hc.dated, hc.ended, hc.task⟩ hd

/-- A call that is turned away holds a usable key. -/
theorem turned_refused (cfg : Settings) (i : Input) {t : Task Token} (ht : Seeks J s t)
    (hturned : Turned cfg J i.fetched s t) : ∃ e kid, KeyRefused s (s.advance cfg J i t).1 e ∧
      kidOf J e.attempt.token = some kid ∧ ¬ Unusable cfg (s.advance cfg J i t).1 kid := by
  cases t with
  | fetchStale a kid =>
      obtain ⟨hu, hnot⟩ := hturned
      rcases safeRefresh_notJwks.mpr hnot with hsafe | hsafe
      all_goals simp only [Service.advance, hsafe]
      all_goals exact ⟨_, kid, ⟨rfl, _, rfl, rfl⟩, ht, hu⟩
  | lockUnknown a kid n =>
      obtain ⟨hu, hdeadline⟩ := hturned
      simp only [Service.advance]
      split
      · exact ⟨_, kid, ⟨rfl, _, rfl, rfl⟩, ht, hu⟩
      · next hnegative =>
          rw [if_pos (hdeadline.resolve_left hnegative)]
          exact ⟨_, kid, ⟨rfl, _, rfl, rfl⟩, ht, hu⟩
  | _ => cases hturned

/-! ## Runs -/

theorem seeks_keys {s' : Service Token} {t : Task Token} (h : Seeks J s t)
    (hkeys : t.inside = true → s'.cache.keys = s.cache.keys) : Seeks J s' t := by
  cases t with
  | fetchUnknown a kid => exact ⟨h.1, by rw [hkeys rfl, h.2]⟩
  | _ => exact h

theorem seeks_tick {t : Task Token} (h : Seeks J s t) (now : Time) : Seeks J (s.tick now) t :=
  seeks_keys h fun _ => rfl

theorem dated_tick (h : Dated cfg s) (now : Time) : Dated cfg (s.tick now) := h

theorem seeks_keeps (cfg : Settings) (J : Jwt Token) :
    (verifier cfg J).Keeps (Dated cfg) (fun _ => Seeks J) fun _ _ => True where
  idle := fun _ _ => trivial
  free := verifier_free cfg J
  begins := fun _ _ _ _ hd => ⟨hd, trivial, rfl⟩
  begins_others := fun _ _ _ _ _ _ _ _ hown => hown
  enters := verifier_enters cfg J
  goes := by
    intro h p i _ hd hown
    have hstep := steps_advance cfg i (dated_tick hd i.now) (seeks_tick hown i.now)
    exact ⟨hstep.dated, hstep.task⟩
  goes_others := by
    intro h p i q u _ hd hown hq hu halone
    refine seeks_keys hu fun hin => ?_
    -- `q` is under the lock, so the step of `p` is none that fetches
    have hout : (h.task p).inside = false := by
      by_contra hp
      rw [Bool.not_eq_false] at hp
      have hnot := halone (Or.inl hp)
      rw [show (verifier cfg J).inside u = true from hin] at hnot
      cases hnot
    exact (steps_advance cfg i (dated_tick hd i.now) (seeks_tick hown i.now)).keys hout

theorem seeks_run (cfg : Settings) (J : Jwt Token) (clock : Time)
    (events : List (Signal ℕ Token Input)) :
    (verifier cfg J).Sound (Dated cfg) (fun _ => Seeks J)
      (run (verifier cfg J).signal ((verifier cfg J).start (.start Token clock)) events) :=
  (seeks_keeps cfg J).always (Or.inl rfl) events

/-- A step that runs is that of its call. -/
theorem shared_go {h : Host ℕ (Service Token) (Task Token)} {p : ℕ} {i : Input}
    (hrun : (h.task p).waits = true → h.lock = none) :
    ((verifier cfg J).signal h (.go p i)).shared =
      ((h.shared.tick i.now).advance cfg J i (h.task p)).1 := by
  have hblocked : ¬ ((verifier cfg J).waits (h.task p) && h.lock.isSome) = true := by
    intro hb
    obtain ⟨hwaits, hsome⟩ := Bool.and_eq_true_iff.mp hb
    rw [hrun hwaits] at hsome
    cases hsome
  simp only [Program.signal, if_neg hblocked]
  rfl

/-- An event that spares refuses only the calls that may be refused. -/
theorem unusable_signal {h : Host ℕ (Service Token) (Task Token)} {l : Signal ℕ Token Input}
    (hs : (verifier cfg J).Sound (Dated cfg) (fun _ => Seeks J) h) (hl : Spares cfg J h l)
    {e : Ended Token} (he : KeyRefused h.shared ((verifier cfg J).signal h l).shared e)
    {kid : String} (hkid : kidOf J e.attempt.token = some kid) :
    Unusable cfg ((verifier cfg J).signal h l).shared kid := by
  cases l with
  | call p token =>
      refine absurd he ?_
      simp only [Program.signal]
      split
      · exact not_keyRefused_self h.shared e
      · exact not_keyRefused_self h.shared e
  | kill p => exact absurd he (not_keyRefused_self h.shared e)
  | go p i =>
      by_cases hrun : (h.task p).waits = true → h.lock = none
      · have hstep := steps_advance cfg i (dated_tick hs.shared i.now)
          (seeks_tick (hs.tasks p) i.now)
        rw [shared_go hrun] at he ⊢
        rcases hstep.ended e he with hturned | ⟨kid', hkid', hu⟩
        · exact absurd hturned (hl hrun)
        · rw [hkid] at hkid'
          rw [Option.some.inj hkid']
          exact hu
      · refine absurd he ?_
        have hblocked : ((verifier cfg J).waits (h.task p) && h.lock.isSome) = true := by
          obtain ⟨hwaits, hlock⟩ := Classical.not_imp.mp hrun
          exact Bool.and_eq_true_iff.mpr ⟨hwaits, Option.isSome_iff_ne_none.mpr hlock⟩
        simp only [Program.signal, if_pos hblocked]
        exact not_keyRefused_self h.shared e

/-- An event that does not spare refuses a call that holds a usable key. -/
theorem not_bridged {clock : Time} {pre post : List (Signal ℕ Token Input)}
    {l : Signal ℕ Token Input}
    (hl : ¬ Spares cfg J (run (verifier cfg J).signal
      ((verifier cfg J).start (.start Token clock)) pre) l) :
    ¬ Bridged cfg J clock (pre ++ l :: post) := by
  intro hb
  have hs := seeks_run cfg J clock pre
  have hafter := hb pre l post rfl
  generalize run (verifier cfg J).signal ((verifier cfg J).start (.start Token clock)) pre = h at *
  cases l with
  | go p i =>
      obtain ⟨hrun, hturned⟩ := Classical.not_imp.mp hl
      obtain ⟨e, kid, he, hkid, hu⟩ := turned_refused cfg i
        (seeks_tick (hs.tasks p) i.now) (not_not.mp hturned)
      simp only [shared_go hrun] at hafter
      exact hu (hafter e he kid hkid)
  | _ => exact hl trivial

/-- The call that fetched the document is refused, though `k` may be used for 600 seconds more. -/
theorem rejected_document : ¬ ∀ cfg clock (events : List (Signal ℕ PlainToken Input)),
    Bridged cfg plainJwt clock events := by
  intro h
  have hl : ¬ Spares labSettings plainJwt (run (verifier labSettings plainJwt).signal
      ((verifier labSettings plainJwt).start (.start PlainToken 0)) lostDocument)
      (.go 0 (at_ 301 (.document (.dict [])) none)) := by
    decide +kernel
  exact not_bridged hl (h labSettings 0 (lostDocument ++ [_]))

/-- A run bridges every failure exactly if no step turns away a call that holds a usable key. -/
theorem bridged_iff (cfg : Settings) (J : Jwt Token) (clock : Time)
    (events : List (Signal ℕ Token Input)) : Bridged cfg J clock events ↔
      Along (verifier cfg J).signal (Spares cfg J) ((verifier cfg J).start (.start Token clock))
        events := by
  rw [along_iff]
  refine ⟨?_, ?_⟩
  · intro hb pre l post hevents
    by_contra hl
    rw [hevents] at hb
    exact not_bridged hl hb
  · intro h pre l post hevents before after e he kid hkid
    exact unusable_signal (seeks_run cfg J clock pre) (h pre l post hevents) he hkid

/-- The endpoint fails at 301 and again at 901, when the stale limit has passed. -/
theorem outage_bridged : Bridged labSettings plainJwt 0
    (lostDocument ++ [.go 0 (at_ 301 .failed none), .go 0 (at_ 301 .failed (some true)),
      .call 0 (plainToken ⟨"k", bundleClaims "user-1" 7 ["user"] Sso.audience 1⟩),
      .go 0 (at_ 901 .failed none), .go 0 (at_ 901 .failed none), .go 0 (at_ 901 .failed none)]) :=
  (bridged_iff labSettings plainJwt 0 _).mpr (by decide +kernel)

end TemisLab.Resource.Refusals
