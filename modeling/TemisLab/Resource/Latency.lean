/-
  How long a revoked token is still accepted at the Resource API. The SSO's transactions, one at a
  time, and the steps of a verifier's calls interleave under one clock; `status_check` answers as
  `/auth/status` does on the tables at the moment the call resumes.

  `revocation_latency`: once an admin operation on `u` has committed at time `r`, no call that
  consults its status cache at `r + status_ttl` or later accepts a token made of a row of `u`
  that was read before, whatever else has run in between.

  The operation leaves `u` a version above those of the tokens in question, and versions do not
  fall. So after the commit no true answer is for one of them, and an entry of the cache that
  is for one was made before the commit (`Cut`).
-/
import TemisLab.Sso.Requests
import TemisLab.Resource.Attestation

namespace TemisLab.Resource

open TemisLab.Lib TemisLab.Sso TemisLab.Keyring

variable {Token : Type}

/-- The SSO and the calls of one verifier. -/
structure Lab (Token : Type) where
  sys : Sys
  host : Host ℕ (Service Token) (Task Token)

/-- A transaction of the SSO at a time, or an event of the verifier. -/
inductive LabStep (Token : Type) where
  | sso (now : Time) (tx : Tx)
  | resource (e : Signal ℕ Token Input)

def Lab.start (db : Db) (clock : Time) : Lab Token :=
  ⟨.start db, ⟨.start Token clock, none, fun _ => .idle⟩⟩

def Lab.step (env : Env) (cfg : Settings) (J : Jwt Token) (x : Lab Token) :
    LabStep Token → Lab Token
  | .sso now tx => ⟨Sso.step env x.sys tx, { x.host with shared := x.host.shared.tick now }⟩
  | .resource e => { x with host := (verifier cfg J).signal x.host e }

/-- An answer of `status_check` is that of `/auth/status`. -/
def Answers (db : Db) (h : Host ℕ (Service Token) (Task Token)) : Signal ℕ Token Input → Prop
  | .go p i =>
      match h.task p with
      | .statusCheck _ v => ∀ active ∈ i.active,
          active = (authorizationStatus db v.subject v.version).active
      | _ => True
  | _ => True

instance (db : Db) (h : Host ℕ (Service Token) (Task Token)) (e : Signal ℕ Token Input) :
    Decidable (Answers db h e) :=
  match e with
  | .call _ _ | .kill _ => isTrue trivial
  | .go p i => by
      dsimp only [Answers]
      split <;> infer_instance

/-- The steps of the lab at which `status_check` is as it should be. -/
def Honest (x : Lab Token) : LabStep Token → Prop
  | .sso _ _ => True
  | .resource e => Answers x.sys.db x.host e

instance (x : Lab Token) (l : LabStep Token) : Decidable (Honest x l) := by
  unfold Honest
  split <;> infer_instance

/-- A token `issue_bundle` signs for the row of `userId` it reads in `db`; the roles are read
    and the token is signed later. -/
def ReadFrom (db : Db) (userId : String) (t : AccessToken) : Prop :=
  ∃ user kid roles aud now, db.user userId = some user ∧
    t = ⟨kid, bundleClaims userId user.authzVersion roles aud now⟩

/-- `jwt.decode` compares the issuer, and returns the claims that were signed. -/
structure Jwt.Lawful (J : Jwt Token) (encode : AccessToken → Token) : Prop where
  issuer : J.ChecksIssuer
  payload : ∀ key issuer audience wall t claims,
    J.decode key issuer audience wall (encode t) = some claims →
    Dict.str claims "sub" = some t.claims.sub ∧
      Dict.int claims "authz_version" = some t.claims.authzVersion

/-- What the run of `ls` promises about an admin operation that commits in it: a call accepts a
    token that was read before only if it consulted the cache too early. Where entries live no
    time at all, the cache may be consulted in the instant of the commit, but before it. -/
def Revokes (env : Env) (cfg : Settings) (J : Jwt Token) (encode : AccessToken → Token) (db : Db)
    (clock : Time) (ls : List (LabStep Token)) : Prop :=
  ∀ early pre now op at_ mid, ls = early ++ (pre ++ .sso now (.admin op at_) :: mid) →
    let read := run (Lab.step env cfg J) (.start db clock) early
    let before := run (Lab.step env cfg J) read pre
    let after := before.step env cfg J (.sso now (.admin op at_))
    let s := (run (Lab.step env cfg J) after mid).host.shared
    op.exec env before.sys.db at_ = .ok after.sys.db →
    ∀ t, ReadFrom read.sys.db op.target t →
    ∀ e ∈ s.ended, e.attempt.token = encode t → ∀ p v, e.outcome = .returned p v →
      v.consulted < after.host.shared.clock + cfg.statusTtl ∨
        (cfg.statusTtl ≤ 0 ∧ v.turn ≤ after.host.shared.turns)

/-! ## Times in the service's past -/

/-- Entries of the status cache expire in time, and what was consulted is past. -/
structure Timely (cfg : Settings) (s : Service Token) : Prop where
  entries : ∀ subject deadline version, s.cache.status subject = some (deadline, version) →
    deadline ≤ s.clock + cfg.statusTtl
  ended : ∀ e ∈ s.ended, ∀ p v, e.outcome = .returned p v →
    v.consulted ≤ s.clock ∧ v.turn ≤ s.turns

/-- A call that awaits its status check has consulted the cache. -/
def Consulted (s : Service Token) : Task Token → Prop
  | .statusCheck _ v => v.consulted ≤ s.clock ∧ v.turn ≤ s.turns
  | _ => True

variable {cfg : Settings} {J : Jwt Token} {s : Service Token}

theorem Timely.tick (h : Timely cfg s) (now : Time) : Timely cfg (s.tick now) := by
  have hle : s.clock ≤ (s.tick now).clock := le_max_left _ _
  refine ⟨?_, ?_⟩
  · intro subject deadline version hs
    have hd := h.entries subject deadline version hs
    linarith
  · intro e he p v ho
    obtain ⟨hc, ht⟩ := h.ended e he p v ho
    exact ⟨le_trans hc hle, Nat.le_succ_of_le ht⟩

theorem consulted_later {s' : Service Token} {t : Task Token} (h : Consulted s t)
    (hclock : s.clock ≤ s'.clock) (hturns : s.turns ≤ s'.turns) : Consulted s' t := by
  cases t with
  | statusCheck a v => exact ⟨le_trans h.1 hclock, le_trans h.2 hturns⟩
  | _ => trivial

/-- A call returns for the token it has verified. -/
theorem conclude_returned {a : Attempt Token} {v : Verified} :
    ∀ e ∈ (s.conclude J a v).1.ended, e ∈ s.ended ∨
      ∀ p v', e.outcome = .returned p v' → v' = v := by
  unfold Service.conclude
  split
  · intro e he
    rcases List.mem_cons.mp he with rfl | he
    · exact Or.inr nofun
    · exact Or.inl he
  · intro e he
    rcases List.mem_cons.mp he with rfl | he
    · refine Or.inr ?_
      intro p v' ho
      cases ho
      rfl
    · exact Or.inl he

theorem conclude_same (a : Attempt Token) (v : Verified) :
    (s.conclude J a v).1.cache = s.cache ∧ (s.conclude J a v).1.clock = s.clock ∧
      (s.conclude J a v).1.turns = s.turns ∧ (s.conclude J a v).2 = .idle := by
  unfold Service.conclude
  split <;> exact ⟨rfl, rfl, rfl, rfl⟩

theorem timely_advance (h : Timely cfg s) {t : Task Token} (ht : Consulted s t) (i : Input) :
    Timely cfg (s.advance cfg J i t).1 ∧
      Consulted (s.advance cfg J i t).1 (s.advance cfg J i t).2 ∧
      (s.advance cfg J i t).1.clock = s.clock ∧ (s.advance cfg J i t).1.turns = s.turns := by
  by_cases hq : ∀ a v, t = .statusCheck a v → i.active ≠ some true
  · have hquiet := quiet_advance cfg J i s hq
    obtain ⟨hclock, hturns⟩ := hquiet.time
    refine ⟨⟨?_, ?_⟩, ?_, hclock, hturns⟩
    · intro subject deadline version hs
      rw [hquiet.status] at hs
      rw [hclock]
      exact h.entries subject deadline version hs
    · intro e he p v ho
      rw [hclock, hturns]
      rcases hquiet.returned e he with he | hv
      · exact h.ended e he p v ho
      · obtain ⟨hc, hturn, -⟩ := hv p v ho
        exact ⟨le_of_eq hc, le_of_eq hturn⟩
    · have hasks := hquiet.asks
      generalize (s.advance cfg J i t).2 = u at hasks ⊢
      cases u with
      | statusCheck a v =>
          obtain ⟨hc, hturn⟩ := hasks a v rfl
          exact ⟨le_of_eq (hc.trans hclock.symm), le_of_eq (hturn.trans hturns.symm)⟩
      | _ => trivial
  · simp only [not_forall, not_not] at hq
    obtain ⟨a, v, rfl, hactive⟩ := hq
    rw [advance_confirm cfg J hactive]
    obtain ⟨hcache, hclock, hturns, hidle⟩ := conclude_same (J := J) (s := s.confirm cfg v) a v
    refine ⟨⟨?_, ?_⟩, ?_, hclock, hturns⟩
    · intro subject deadline version hs
      rw [hcache] at hs
      rw [hclock]
      rcases status_confirm hs with ⟨-, hs⟩ | ⟨-, hd, -⟩
      · exact h.entries subject deadline version hs
      · exact le_of_eq hd
    · intro e he p v' ho
      rw [hclock, hturns]
      rcases conclude_returned e he with he | hv
      · exact h.ended e he p v' ho
      · rw [hv p v' ho]
        exact ht
    · rw [hidle]
      trivial

/-! ## After the commit -/

/-- After a commit at time `r` and step `n` that left `u` at version `V`: entries and accepted
    calls for older versions of `u` are from before. -/
structure Cut (cfg : Settings) (u : String) (V : ℤ) (r : Time) (n : ℕ) (s : Service Token) :
    Prop where
  entries : ∀ deadline version, s.cache.status u = some (deadline, version) → version < V →
    deadline ≤ r + cfg.statusTtl
  ended : ∀ e ∈ s.ended, ∀ p v, e.outcome = .returned p v → v.subject = u → v.version < V →
    v.consulted < r + cfg.statusTtl ∨ (v.consulted ≤ r ∧ v.turn ≤ n)

variable {u : String} {V : ℤ} {r : Time} {n : ℕ}

theorem Timely.cut (h : Timely cfg s) (u : String) (V : ℤ) :
    Cut cfg u V s.clock s.turns s :=
  ⟨fun deadline version hs _ => h.entries u deadline version hs,
    fun e he p v ho _ _ => Or.inr (h.ended e he p v ho)⟩

/-- A step keeps the cut, if a true answer is for a version that is not old. -/
theorem cut_advance (h : Cut cfg u V r n s) {t : Task Token} {i : Input}
    (hanswer : ∀ a v, t = .statusCheck a v → i.active = some true → v.subject = u →
      V ≤ v.version) : Cut cfg u V r n (s.advance cfg J i t).1 := by
  by_cases hq : ∀ a v, t = .statusCheck a v → i.active ≠ some true
  · have hquiet := quiet_advance cfg J i s hq
    refine ⟨?_, ?_⟩
    · intro deadline version hs hlt
      rw [hquiet.status] at hs
      exact h.entries deadline version hs hlt
    · intro e he p v ho hsub hlt
      rcases hquiet.returned e he with he | hv
      · exact h.ended e he p v ho hsub hlt
      · -- the entry that vouched is for the same old version
        obtain ⟨hc, -, hvouch⟩ := hv p v ho
        rw [hsub] at hvouch
        unfold Cache.vouches at hvouch
        split at hvouch
        · cases hvouch
        · next deadline version hs =>
            simp only [Bool.and_eq_true, decide_eq_true_eq] at hvouch
            obtain ⟨hnow, hver⟩ := hvouch
            have hd := h.entries deadline version hs (hver ▸ hlt)
            left
            linarith
  · simp only [not_forall, not_not] at hq
    obtain ⟨a, v, rfl, hactive⟩ := hq
    have hnew := hanswer a v rfl hactive
    rw [advance_confirm cfg J hactive]
    obtain ⟨hcache, -⟩ := conclude_same (J := J) (s := s.confirm cfg v) a v
    refine ⟨?_, ?_⟩
    · intro deadline version hs hlt
      rw [hcache] at hs
      rcases status_confirm hs with ⟨-, hs⟩ | ⟨hsub, -, hv⟩
      · exact h.entries deadline version hs hlt
      · have hV := hnew hsub.symm
        omega
    · intro e he p v' ho hsub hlt
      rcases conclude_returned e he with he | hv
      · exact h.ended e he p v' ho hsub hlt
      · rw [hv p v' ho] at hsub hlt
        have hV := hnew hsub
        omega

/-! ## Runs -/

section Runs

variable {env : Env} {Inv : Service Token → Prop} {Own : ℕ → Service Token → Task Token → Prop}

/-- What the verifier keeps, under answers from tables of which `P` holds, the lab keeps. -/
theorem lab_run {P : Db → Prop}
    (hkeeps : ∀ db, P db → (verifier cfg J).Keeps Inv Own (Answers db))
    (hdb : ∀ sys tx, P sys.db → P (Sso.step env sys tx).db)
    (htick : ∀ s now, Inv s → Inv (s.tick now))
    (hown : ∀ p s now t, Own p s t → Own p (s.tick now) t) {x : Lab Token}
    (hP : P x.sys.db) (hs : (verifier cfg J).Sound Inv Own x.host) {ls : List (LabStep Token)}
    (hl : Along (Lab.step env cfg J) Honest x ls) :
    P (run (Lab.step env cfg J) x ls).sys.db ∧
      (verifier cfg J).Sound Inv Own (run (Lab.step env cfg J) x ls).host := by
  refine run_invariant (Lab.step env cfg J)
    (fun y => P y.sys.db ∧ (verifier cfg J).Sound Inv Own y.host) ?_ ⟨hP, hs⟩ hl
  intro y l hy hq
  obtain ⟨hP, hs⟩ := hy
  cases l with
  | sso now tx =>
      exact ⟨hdb y.sys tx hP, htick _ now hs.shared, fun p => hown p _ now _ (hs.tasks p),
        hs.exclusion⟩
  | resource e => exact ⟨hP, (hkeeps y.sys.db hP).signal y.host e hs hq⟩

theorem coherent_lab (hJ : J.ChecksIssuer) (db : Db) (clock : Time) {ls : List (LabStep Token)}
    (hl : Along (Lab.step env cfg J) Honest (.start db clock) ls) :
    Coherent cfg J (run (Lab.step env cfg J) (.start db clock) ls).host.shared := by
  have h0 : Coherent cfg J (.start Token clock) := ⟨Or.inl rfl, nofun, nofun⟩
  have hkeeps : ∀ db, (verifier cfg J).Keeps (Coherent cfg J) (fun _ => Awaits cfg J)
      (Answers db) := fun _ => (verifier_keeps hJ).under fun _ _ _ => trivial
  exact (lab_run (P := fun _ => True) (fun db _ => hkeeps db) (fun _ _ _ => trivial)
    (fun _ now h => h.tick now) (fun _ s now _ h => awaits_extends h (extends_tick s now))
    trivial ((hkeeps db).start h0) hl).2.shared

theorem timely_keeps (cfg : Settings) (J : Jwt Token) (db : Db) :
    (verifier cfg J).Keeps (Timely cfg) (fun _ => Consulted) (Answers db) where
  idle := fun _ _ => trivial
  free := (verifier_free cfg J)
  begins := fun _ _ _ _ hinv => ⟨hinv, trivial, rfl⟩
  begins_others := fun _ _ _ _ _ _ _ _ hown => hown
  enters := verifier_enters cfg J
  goes := by
    intro h p i _ hinv hown
    obtain ⟨hT, hC, -⟩ := timely_advance (J := J) (hinv.tick i.now)
      (consulted_later hown (le_max_left _ _) (Nat.le_succ _)) i
    exact ⟨hT, hC⟩
  goes_others := by
    intro h p i q t _ hinv hown _ hother _
    obtain ⟨-, -, hclock, hturns⟩ := timely_advance (J := J) (hinv.tick i.now)
      (consulted_later hown (le_max_left _ _) (Nat.le_succ _)) i
    refine consulted_later hother ?_ ?_
    · exact le_trans (le_max_left _ _) (le_of_eq hclock.symm)
    · exact le_trans (Nat.le_succ _) (le_of_eq hturns.symm)

theorem timely_lab (db : Db) (clock : Time) {ls : List (LabStep Token)}
    (hl : Along (Lab.step env cfg J) Honest (.start db clock) ls) :
    (verifier cfg J).Sound (Timely cfg) (fun _ => Consulted)
      (run (Lab.step env cfg J) (.start db clock) ls).host := by
  have h0 : Timely cfg (.start Token clock) := ⟨nofun, nofun⟩
  exact (lab_run (P := fun _ => True) (fun db _ => timely_keeps cfg J db)
    (fun _ _ _ => trivial) (fun _ now h => h.tick now)
    (fun _ _ _ _ h => consulted_later h (le_max_left _ _) (Nat.le_succ _)) trivial
    ((timely_keeps cfg J db).start h0) hl).2

/-- The user has at least this version. -/
def AtLeast (u : String) (V : ℤ) (db : Db) : Prop :=
  ∃ user, db.user u = some user ∧ V ≤ user.authzVersion

theorem atLeast_step (env : Env) (sys : Sys) (tx : Tx) (h : AtLeast u V sys.db) :
    AtLeast u V (Sso.step env sys tx).db := by
  obtain ⟨user, hu, hV⟩ := h
  obtain ⟨user', hu', hle⟩ := (step_grows env sys tx).users u user hu
  exact ⟨user', hu', le_trans hV hle⟩

/-- `/auth/status` answers true for no older version. -/
theorem cut_keeps (cfg : Settings) (J : Jwt Token) (r : Time) (n : ℕ) {db : Db}
    (h : AtLeast u V db) :
    (verifier cfg J).Keeps (Cut cfg u V r n) (fun _ _ _ => True) (Answers db) where
  idle := fun _ _ => trivial
  free := verifier_free cfg J
  begins := fun _ _ _ _ hinv => ⟨hinv, trivial, rfl⟩
  begins_others := fun _ _ _ _ _ _ _ _ _ => trivial
  enters := verifier_enters cfg J
  goes := by
    intro host p i hq hinv _
    refine ⟨cut_advance (s := host.shared.tick i.now) ⟨hinv.entries, hinv.ended⟩ ?_, trivial⟩
    intro a v ht hactive hsub
    simp only [Answers, ht] at hq
    obtain ⟨user, hu, hV⟩ := h
    obtain ⟨user', hu', -, hver⟩ := authorizationStatus_active.mp (hq true hactive).symm
    rw [hsub, hu] at hu'
    rw [← hver, ← Option.some.inj hu']
    exact hV
  goes_others := fun _ _ _ _ _ _ _ _ _ _ _ => trivial

/-- The tables grow as in the SSO's own runs. -/
theorem lab_grows (x : Lab Token) (ls : List (LabStep Token)) :
    x.sys.db.Grows (run (Lab.step env cfg J) x ls).sys.db := by
  refine run_rel (Lab.step env cfg J) (fun x y => x.sys.db.Grows y.sys.db)
    (fun x => .refl x.sys.db) (fun _ _ _ h h' => h.trans h') ?_ x ls
  intro y l
  cases l with
  | sso now tx => exact step_grows env y.sys tx
  | resource e => exact .refl y.sys.db

end Runs

/-- Revocation takes effect at the Resource API within the time to live of a status. -/
theorem revocation_latency (env : Env) (cfg : Settings) (J : Jwt Token)
    (encode : AccessToken → Token) (hJ : J.Lawful encode) (db : Db) (clock : Time)
    (ls : List (LabStep Token))
    (hl : Along (Lab.step env cfg J) Honest (.start db clock) ls) :
    Revokes env cfg J encode db clock ls := by
  intro early pre now op at_ mid hls read before after s hok t hread e he htoken p v ho
  have hls' : ls = (early ++ pre ++ [.sso now (.admin op at_)]) ++ mid := by
    rw [hls]
    simp
  have hafter : run (Lab.step env cfg J) (.start db clock)
      (early ++ pre ++ [.sso now (.admin op at_)]) = after := by
    rw [run_append, run_append]
    rfl
  have hcoherent := coherent_lab hJ.issuer db clock hl
  rw [hls', along_append, hafter] at hl
  rw [hls', run_append, hafter] at hcoherent
  obtain ⟨hlpast, hlmid⟩ := hl
  -- the commit leaves `u` at a version above the token's
  obtain ⟨user, kid, roles, aud, time, hu, rfl⟩ := hread
  obtain ⟨user', hu', hle⟩ := (lab_grows read pre).users op.target user hu
  obtain ⟨user'', hu'', hV⟩ := (AdminOp.exec_effect hok).version hu'
  rw [if_pos rfl] at hV
  have htimely := timely_lab db clock hlpast
  rw [hafter] at htimely
  have hcut : (verifier cfg J).Sound (Cut cfg op.target user''.authzVersion
      after.host.shared.clock after.host.shared.turns) (fun _ _ _ => True) after.host :=
    ⟨htimely.shared.cut _ _, fun _ => trivial, htimely.exclusion⟩
  obtain ⟨-, hfinal⟩ := lab_run (P := AtLeast op.target user''.authzVersion)
    (fun _ h => cut_keeps cfg J _ _ h) (atLeast_step env)
    (fun _ _ h => ⟨h.entries, h.ended⟩) (fun _ _ _ _ _ => trivial) ⟨user'', hu'', le_refl _⟩
    hcut hlmid
  -- what the call accepted is the token's subject and version
  have ha := hcoherent.ended e he p v ho
  obtain ⟨wall, hdecoded⟩ := ha.decoded
  rw [htoken] at hdecoded
  obtain ⟨hsub, hver⟩ := hJ.payload _ _ _ _ _ _ hdecoded
  obtain ⟨hpsub, hpver, hvsub, hvver⟩ := ha.principal
  have hsubject : v.subject = op.target := by
    rw [Dict.lookup_of_str hsub, Option.some.injEq, Json.str.injEq] at hpsub
    exact hvsub.trans hpsub.symm
  have hversion : v.version = user.authzVersion := by
    rw [hver, Option.some.injEq] at hpver
    exact hvver.trans hpver.symm
  rcases hfinal.shared.ended e he p v ho hsubject (by omega) with hlt | ⟨hc, hturn⟩
  · exact Or.inl hlt
  · by_cases httl : cfg.statusTtl ≤ 0
    · exact Or.inr ⟨httl, hturn⟩
    · left
      linarith [not_le.mp httl]

/-! ## A sample run -/

theorem plainJwt_lawful : plainJwt.Lawful plainToken := by
  refine ⟨plainJwt_issuer, ?_⟩
  intro key issuer audience wall t claims h
  rw [(plainJwt_decoded h).1]
  exact ⟨rfl, rfl⟩

/-- The token `u` has from logging in, presented by call `p` at a time. -/
def present (p : ℕ) (now : Time) (steps : ℕ) : List (LabStep PlainToken) :=
  .resource (.call p (plainToken ⟨"k", bundleClaims "u" 2 ["user"] Sso.audience 1⟩)) ::
    List.replicate steps (.resource (.go p (at_ now (.document plainDocument) (some true))))

/-- `u` is accepted at time 3, its sessions are revoked at time 5, and its token is presented
    at 32 and, with the answer `/auth/status` gives then, at 40. -/
def revoked : List (LabStep PlainToken) :=
  loggedIn.map (.sso 1) ++ present 0 3 4 ++ [.sso 5 (.admin (.revokeSessions "a" "u") 5)] ++
    present 1 32 1 ++ present 2 40 1 ++
    [.resource (.go 2 (at_ 40 .failed (some false)))]

/-- The cached answer serves the token within thirty seconds, and not after. -/
theorem revoked_within_thirty_seconds :
    (run (Lab.step plainEnv labSettings plainJwt) (.start .empty 0) revoked).host.shared.ended.map
        (fun e => (e.time, e.outcome.subject)) =
      [(40, none), (32, some "u"), (3, some "u")] ∧
    Revokes plainEnv labSettings plainJwt plainToken .empty 0 revoked :=
  ⟨by decide +kernel, revocation_latency plainEnv labSettings plainJwt plainToken
    plainJwt_lawful .empty 0 revoked (by decide +kernel)⟩

end TemisLab.Resource
