/-
  Services that start on one key ring (`_load_codec`). A startup reads `jwks`; if no key is
  listed it publishes one and activates it. The three are separate operations: between two of
  them other processes run, and the process may be killed. `publish`, `activate` and `retire`
  are also called outside of startups, and each operation is atomic.

  * `YieldsSigner`: a startup that returns while no other is in progress leaves a ring that can
    sign from then on.
  * `killed_bootstrap`: it does not. A service killed after its `publish` leaves a key that is
    listed and not active, and the next startup takes a listed key for a signer.
  * `startup_yields_signer`: it holds of every run in which no kill and no bare `publish` leaves
    the ring that way (`Careful`), and each step that does is followed by such a startup.
-/
import TemisLab.Keyring.States

namespace TemisLab.Keyring.Startup

open TemisLab.Lib TemisLab.Sso

/-- Where a process is in `_load_codec`. -/
inductive Phase where
  | idle
  | loading
  | publishing
  | activating (kid : String)
  | serving
  deriving DecidableEq, Repr

/-- `_load_codec` has been called and has not returned. -/
def Phase.starting : Phase → Bool
  | .loading | .publishing | .activating _ => true
  | _ => false

/-- It has found no key and not yet activated one. -/
def Phase.bootstraps : Phase → Bool
  | .publishing | .activating _ => true
  | _ => false

structure State where
  ring : Ring
  phase : ℕ → Phase

def State.start : State := ⟨.empty, fun _ => .idle⟩

def State.goes (s : State) (p : ℕ) (phase : Phase) : State :=
  { s with phase := Function.update s.phase p phase }

/-- A label carries the process, a reading of its clock, and a generated key. -/
inductive Label where
  | load (p : ℕ)
  | advance (p : ℕ) (now : Time) (kid : String) (pair : KeyPair)
  | op (p : ℕ) (now : Time) (op : RingOp)
  | kill (p : ℕ)
  deriving DecidableEq, Repr

def Label.process : Label → ℕ
  | .load p | .advance p _ _ _ | .op p _ _ | .kill p => p

/-- The next operation of a startup, a bare operation, or a kill. -/
def step (rings : ℕ → KeyRing) (s : State) : Label → State
  | .load p => if (s.phase p).starting then s else s.goes p .loading
  | .advance p now kid pair =>
      match s.phase p with
      | .loading =>
          match jwks s.ring with
          | .error _ => s.goes p .idle
          | .ok [] => s.goes p .publishing
          | .ok (_ :: _) => s.goes p .serving
      | .publishing =>
          State.goes { s with ring := publish s.ring kid pair now } p (.activating kid)
      | .activating first =>
          match RingOp.apply (rings p) s.ring now (.activate first) with
          | .error _ => s.goes p .idle
          | .ok ring => State.goes { s with ring } p .serving
      | _ => s
  | .op p now op =>
      match op.apply (rings p) s.ring now with
      | .error _ => s
      | .ok ring => { s with ring }
  | .kill p => s.goes p .idle

/-! ## The claims of a run -/

/-- The call of `_load_codec` in `p` returns. -/
def Returns (rings : ℕ → KeyRing) (s : State) (l : Label) (p : ℕ) : Prop :=
  (s.phase p).starting = true ∧ (step rings s l).phase p = .serving

/-- `issue_access` signs. -/
def CanSign (ring : Ring) : Prop :=
  ∃ kid pair, activeKid ring = .ok kid ∧ signClaims ring = .ok (kid, pair)

/-- After each return with no other startup in progress, the ring signs from then on. -/
def YieldsSigner (rings : ℕ → KeyRing) (ls : List Label) : Prop :=
  ∀ pre l mid post, ls = pre ++ l :: (mid ++ post) →
    ∀ p, Returns rings (run (step rings) .start pre) l p →
      (∀ q, q ≠ p → ((run (step rings) .start (pre ++ [l])).phase q).starting = false) →
      CanSign (run (step rings) .start (pre ++ l :: mid)).ring

def HasActive (records : List KeyRecord) : Prop := ∃ r ∈ records, r.state = .active

/-- No kill ends the last bootstrap of a ring that lists a key without an active one, and a bare
    `publish` does not make the first listed key. -/
def Careful (s : State) : Label → Prop
  | .kill p => (s.phase p).bootstraps = true → listed s.ring.records = [] ∨
      HasActive s.ring.records ∨ ∃ q, q ≠ p ∧ (s.phase q).bootstraps = true
  | .op _ _ (.publish _ _) =>
      HasActive s.ring.records ∨ ∃ q, (s.phase q).bootstraps = true
  | _ => True

/-! ## What an operation keeps -/

/-- Each record has its files, and a key that has moved on has left an active one. -/
structure Kept (ring : Ring) : Prop where
  files : ∀ r ∈ ring.records, ∃ pair, ring.privatePem r.kid = some pair ∧
    ring.publicPem r.kid = some pair.publicKey
  settled : ∀ r ∈ ring.records, r.state ≠ .published → HasActive ring.records

theorem mem_setFirst {records : List KeyRecord} {kid : String} (f : KeyRecord → KeyRecord)
    {r : KeyRecord} (hr : r ∈ records) :
    r ∈ setFirst kid f records ∨ find records kid = some r := by
  induction records with
  | nil => cases hr
  | cons r₀ rs ih =>
      unfold setFirst find
      by_cases h₀ : r₀.kid = kid
      · rw [if_pos h₀]
        rcases List.mem_cons.mp hr with rfl | hr
        · exact Or.inr (by simp [h₀])
        · exact Or.inl (List.mem_cons_of_mem _ hr)
      · rw [if_neg h₀]
        rcases List.mem_cons.mp hr with rfl | hr
        · exact Or.inl List.mem_cons_self
        · rcases ih hr with hin | hfirst
          · exact Or.inl (List.mem_cons_of_mem _ hin)
          · refine Or.inr ?_
            unfold find at hfirst
            simp [h₀, hfirst]

theorem hasActive_activate {records records' : List KeyRecord} {kid : String} {now : Time}
    (ha : activateRecords records kid now = .ok records') : HasActive records' := by
  obtain ⟨⟨target, ht, hpub⟩, -, hfind⟩ := activateRecords_eq_ok ha
  have hnew := hfind kid
  rw [ht, Option.map_some, if_pos rfl] at hnew
  exact ⟨_, (kid_of_find hnew).1, rfl⟩

theorem hasActive_retire {overlap : ℚ} {records records' : List KeyRecord} {kid : String}
    {now : Time} (ha : retireRecords overlap records kid now = .ok records')
    (h : HasActive records) : HasActive records' := by
  obtain ⟨⟨target, τ, ht, hretiring, -, -⟩, -, -⟩ := retireRecords_eq_ok ha
  obtain ⟨r, hr, hactive⟩ := h
  unfold retireRecords at ha
  rw [ht] at ha
  simp only [hretiring, ne_eq, not_true_eq_false, if_false] at ha
  split at ha
  · cases ha
  · split at ha
    · cases ha
    · cases ha
      refine ⟨r, ?_, hactive⟩
      rcases mem_setFirst KeyRecord.retired hr with hin | hfirst
      · exact hin
      · rw [ht] at hfirst
        cases hfirst
        rw [hretiring] at hactive
        cases hactive

/-- An operation that succeeds keeps an active key, and leaves one unless it is `publish`. -/
theorem hasActive_apply {keyRing : KeyRing} {ring ring' : Ring} {op : RingOp} {now : Time}
    (hk : Kept ring) (h : op.apply keyRing ring now = .ok ring') :
    (HasActive ring.records → HasActive ring'.records) ∧
      ((∃ kid pair, op = .publish kid pair) ∨ HasActive ring'.records) := by
  cases op with
  | publish kid pair =>
      cases h
      refine ⟨?_, Or.inl ⟨kid, pair, rfl⟩⟩
      intro ha
      obtain ⟨r, hr, hactive⟩ := ha
      exact ⟨r, List.mem_append_left _ hr, hactive⟩
  | activate kid =>
      simp only [RingOp.apply] at h
      cases ha : activateRecords ring.records kid now with
      | error e =>
          rw [ha] at h
          cases h
      | ok records =>
          rw [ha] at h
          cases h
          exact ⟨fun _ => hasActive_activate ha, Or.inr (hasActive_activate ha)⟩
  | retire kid =>
      simp only [RingOp.apply] at h
      cases ha : retireRecords keyRing.overlapSeconds ring.records kid now with
      | error e =>
          rw [ha] at h
          cases h
      | ok records =>
          rw [ha] at h
          cases h
          obtain ⟨⟨target, τ, ht, hretiring, -, -⟩, -, -⟩ := retireRecords_eq_ok ha
          have hactive := hk.settled target (kid_of_find ht).1 (by simp [hretiring])
          exact ⟨hasActive_retire ha, Or.inr (hasActive_retire ha hactive)⟩

theorem kept_apply {keyRing : KeyRing} {ring ring' : Ring} {op : RingOp} {now : Time}
    (hk : Kept ring) (h : op.apply keyRing ring now = .ok ring') : Kept ring' := by
  obtain ⟨hkeeps, hleaves⟩ := hasActive_apply hk h
  rcases RingOp.apply_eq_ok h with ⟨kid, pair, rfl, rfl⟩ | ⟨records, rfl, hkids⟩
  · refine ⟨?_, ?_⟩
    · intro r hr
      by_cases hkid : r.kid = kid
      · exact ⟨pair, by simp [publish, hkid], by simp [publish, hkid]⟩
      · have hold : r ∈ ring.records := by
          rcases List.mem_append.mp hr with hr | hr
          · exact hr
          · rw [List.mem_singleton.mp hr] at hkid
            exact absurd rfl hkid
        simp only [publish, Function.update_of_ne hkid]
        exact hk.files r hold
    · intro r hr hs
      rcases List.mem_append.mp hr with hr | hr
      · exact hkeeps (hk.settled r hr hs)
      · rw [List.mem_singleton.mp hr] at hs
        exact absurd rfl hs
  · refine ⟨?_, ?_⟩
    · intro r hr
      have hmem : r.kid ∈ ring.records.map KeyRecord.kid := by
        rw [← hkids]
        exact List.mem_map_of_mem hr
      obtain ⟨r₀, hr₀, hkid⟩ := List.mem_map.mp hmem
      show ∃ pair, ring.privatePem r.kid = some pair ∧
        ring.publicPem r.kid = some pair.publicKey
      rw [← hkid]
      exact hk.files r₀ hr₀
    · intro r hr hs
      rcases hleaves with ⟨kid, pair, rfl⟩ | hactive
      · simp only [RingOp.apply, Except.ok.injEq] at h
        have hrecords : ring.records ++ [newRecord kid now] = records :=
          congrArg Ring.records h
        rw [← hrecords, List.map_append] at hkids
        simp at hkids
      · exact hactive

theorem movesOn_apply {keyRing : KeyRing} {ring ring' : Ring} {op : RingOp} {now : Time}
    (h : op.apply keyRing ring now = .ok ring') : MovesOn ring.records ring'.records := by
  cases op with
  | publish kid pair =>
      cases h
      exact movesOn_publish ring.records kid now
  | activate kid =>
      simp only [RingOp.apply] at h
      cases ha : activateRecords ring.records kid now with
      | error e =>
          rw [ha] at h
          cases h
      | ok records =>
          rw [ha] at h
          cases h
          exact movesOn_activate ha
  | retire kid =>
      simp only [RingOp.apply] at h
      cases ha : retireRecords keyRing.overlapSeconds ring.records kid now with
      | error e =>
          rw [ha] at h
          cases h
      | ok records =>
          rw [ha] at h
          cases h
          exact movesOn_retire ha

/-! ## The bootstrap -/

@[simp] theorem goes_ring (s : State) (p : ℕ) (phase : Phase) :
    (s.goes p phase).ring = s.ring := rfl

theorem goes_phase (s : State) (p q : ℕ) (phase : Phase) :
    (s.goes p phase).phase q = if q = p then phase else s.phase q :=
  Function.update_apply s.phase p phase q

/-- A ring with files answers its list of keys. -/
theorem Kept.jwks_eq {ring : Ring} (h : Kept ring) :
    ∃ keys, jwks ring = .ok keys ∧ (keys = [] ↔ listed ring.records = []) := by
  refine ⟨(listed ring.records).map fun r =>
    Jwk.of r.kid ((ring.publicPem r.kid).getD ⟨0, 0⟩), mapM_ok ?_, List.map_eq_nil_iff⟩
  intro r hr
  obtain ⟨pair, -, hp⟩ := h.files r (List.mem_filter.mp hr).1
  rw [hp]
  rfl

theorem Kept.canSign {ring : Ring} (h : Kept ring) (ha : HasActive ring.records) :
    CanSign ring := by
  obtain ⟨r, hr, hs⟩ := ha
  cases hf : activeRecord ring.records with
  | none =>
      unfold activeRecord at hf
      rw [List.find?_eq_none] at hf
      exact absurd (by simpa using hs) (hf r hr)
  | some active =>
      obtain ⟨pair, hp, -⟩ := h.files active (activeRecord_eq_some hf).1
      exact ⟨active.kid, pair, by simp [activeKid, hf], by simp [signClaims, hf, hp]⟩

/-- The ring is kept, and the key of a bootstrap that has published is on record. -/
structure Sane (s : State) : Prop where
  kept : Kept s.ring
  first : ∀ p kid, s.phase p = .activating kid → ∃ r, find s.ring.records kid = some r

/-- A ring that lists a key has an active one, or a bootstrap is on its way to one. -/
def Guarded (s : State) : Prop :=
  listed s.ring.records ≠ [] → HasActive s.ring.records ∨ ∃ p, (s.phase p).bootstraps = true

theorem sane_start : Sane .start :=
  ⟨⟨by simp [State.start, Ring.empty], by simp [State.start, Ring.empty]⟩,
    by simp [State.start]⟩

theorem guarded_start : Guarded .start := fun h => absurd rfl h

theorem Sane.goes {s : State} (h : Sane s) (p : ℕ) {phase : Phase}
    (hphase : ∀ kid, phase ≠ .activating kid) : Sane (s.goes p phase) := by
  refine ⟨h.kept, ?_⟩
  intro q kid hq
  rw [goes_phase] at hq
  split at hq
  · exact absurd hq (hphase kid)
  · exact h.first q kid hq

theorem Sane.apply {s : State} (h : Sane s) {keyRing : KeyRing} {op : RingOp} {now : Time}
    {ring : Ring} (ha : op.apply keyRing s.ring now = .ok ring) : Sane { s with ring } := by
  refine ⟨kept_apply h.kept ha, ?_⟩
  intro p kid hp
  obtain ⟨r, hr⟩ := h.first p kid hp
  obtain ⟨r', hr', -⟩ := movesOn_apply ha kid r hr
  exact ⟨r', hr'⟩

theorem find_publish (ring : Ring) (kid : String) (pair : KeyPair) (now : Time) :
    ∃ r, find (publish ring kid pair now).records kid = some r := by
  unfold publish
  rw [find_append, if_pos (by rfl)]
  cases find ring.records kid with
  | none => exact ⟨_, rfl⟩
  | some r => exact ⟨_, rfl⟩

theorem sane_step (rings : ℕ → KeyRing) (s : State) (l : Label) (h : Sane s) :
    Sane (step rings s l) := by
  cases l with
  | load p =>
      simp only [step]
      split
      · exact h
      · exact h.goes p (by simp)
  | advance p now kid pair =>
      simp only [step]
      split
      · split
        · exact h.goes p (by simp)
        · exact h.goes p (by simp)
        · exact h.goes p (by simp)
      · have happly : RingOp.apply (rings p) s.ring now (.publish kid pair) =
            .ok (publish s.ring kid pair now) := rfl
        have hpub := h.apply happly
        refine ⟨hpub.kept, ?_⟩
        intro q k hq
        rw [goes_phase] at hq
        split at hq
        · cases hq
          exact find_publish s.ring kid pair now
        · exact hpub.first q k hq
      · split
        · exact h.goes p (by simp)
        · next ring ha => exact (h.apply ha).goes p (by simp)
      · exact h
  | op p now op =>
      simp only [step]
      split
      · exact h
      · next ring ha => exact h.apply ha
  | kill p => exact h.goes p (by simp)

/-- The bootstraps of the others are left. -/
theorem bootstraps_goes {s : State} {p q : ℕ} (phase : Phase) (hne : q ≠ p)
    (hq : (s.phase q).bootstraps = true) : ((s.goes p phase).phase q).bootstraps = true := by
  rw [goes_phase, if_neg hne]
  exact hq

/-- A process that is not the bootstrap of the ring moves. -/
theorem Guarded.goes {s : State} (h : Guarded s) {p : ℕ} (phase : Phase)
    (hp : (s.phase p).bootstraps = false) : Guarded (s.goes p phase) := by
  intro hlisted
  rcases h hlisted with hactive | ⟨q, hq⟩
  · exact Or.inl hactive
  · refine Or.inr ⟨q, bootstraps_goes phase ?_ hq⟩
    intro he
    rw [he, hp] at hq
    cases hq

theorem guarded_of_active {s : State} (h : HasActive s.ring.records) : Guarded s :=
  fun _ => Or.inl h

theorem guarded_of_bootstraps {s : State} (p : ℕ) (h : (s.phase p).bootstraps = true) :
    Guarded s :=
  fun _ => Or.inr ⟨p, h⟩

/-- An activation that is refused found its key active or moved on. -/
theorem Sane.active_of_refused {s : State} (h : Sane s) {p : ℕ} {kid : String}
    (hp : s.phase p = .activating kid) {keyRing : KeyRing} {now : Time} {e : RingError}
    (ha : RingOp.apply keyRing s.ring now (.activate kid) = .error e) :
    HasActive s.ring.records := by
  obtain ⟨r, hr⟩ := h.first p kid hp
  refine h.kept.settled r (kid_of_find hr).1 ?_
  intro hpub
  simp [RingOp.apply, activateRecords, hr, hpub, Except.map] at ha

theorem guarded_step (rings : ℕ → KeyRing) (s : State) (l : Label) (hs : Sane s)
    (h : Guarded s) (hl : Careful s l) : Guarded (step rings s l) := by
  cases l with
  | load p =>
      simp only [step]
      split
      · exact h
      · next hp =>
          refine h.goes .loading ?_
          cases hphase : s.phase p with
          | publishing => simp [hphase, Phase.starting] at hp
          | activating kid => simp [hphase, Phase.starting] at hp
          | _ => rfl
  | advance p now kid pair =>
      simp only [step]
      split
      · next hp =>
          have hfree : (s.phase p).bootstraps = false := by
            rw [hp]
            rfl
          split
          · exact h.goes .idle hfree
          · exact h.goes .publishing hfree
          · exact h.goes .serving hfree
      · refine guarded_of_bootstraps p ?_
        rw [goes_phase, if_pos rfl]
        rfl
      · next first hp =>
          split
          · next e ha => exact guarded_of_active (hs.active_of_refused hp ha)
          · next ring ha =>
              refine guarded_of_active ?_
              rcases (hasActive_apply hs.kept ha).2 with ⟨kid', pair', hop⟩ | hactive
              · cases hop
              · exact hactive
      · exact h
  | op p now op =>
      simp only [step]
      split
      · exact h
      · next ring ha =>
          obtain ⟨hkeeps, hleaves⟩ := hasActive_apply hs.kept ha
          rcases hleaves with ⟨kid, pair, rfl⟩ | hactive
          · rcases hl with hactive | ⟨q, hq⟩
            · exact guarded_of_active (hkeeps hactive)
            · exact guarded_of_bootstraps q hq
          · exact guarded_of_active hactive
  | kill p =>
      by_cases hp : (s.phase p).bootstraps = true
      · rcases hl hp with hnil | hactive | ⟨q, hne, hq⟩
        · exact fun hlisted => absurd hnil hlisted
        · exact guarded_of_active hactive
        · exact guarded_of_bootstraps q (bootstraps_goes .idle hne hq)
      · exact h.goes .idle (by simpa using hp)

theorem sane_run (rings : ℕ → KeyRing) (ls : List Label) : Sane (run (step rings) .start ls) :=
  run_always (step rings) Sane (sane_step rings) sane_start ls

theorem guarded_run {rings : ℕ → KeyRing} {ls : List Label}
    (h : Along (step rings) Careful .start ls) : Guarded (run (step rings) .start ls) := by
  have hinv := run_invariant (step rings) (fun s => Sane s ∧ Guarded s)
    (fun s l hs hl => ⟨sane_step rings s l hs.1, guarded_step rings s l hs.1 hs.2 hl⟩)
    ⟨sane_start, guarded_start⟩ h
  exact hinv.2

/-- A ring with an active key keeps one. -/
theorem hasActive_step (rings : ℕ → KeyRing) (s : State) (l : Label) (hs : Sane s)
    (h : HasActive s.ring.records) : HasActive (step rings s l).ring.records := by
  cases l with
  | load p =>
      simp only [step]
      split
      · exact h
      · exact h
  | advance p now kid pair =>
      simp only [step]
      split
      · split <;> exact h
      · obtain ⟨r, hr, hactive⟩ := h
        exact ⟨r, List.mem_append_left _ hr, hactive⟩
      · split
        · exact h
        · next ring ha => exact (hasActive_apply hs.kept ha).1 h
      · exact h
  | op p now op =>
      simp only [step]
      split
      · exact h
      · next ring ha => exact (hasActive_apply hs.kept ha).1 h
  | kill p => exact h

/-- A label moves its own process. -/
theorem phase_step_of_ne (rings : ℕ → KeyRing) (s : State) {l : Label} {p : ℕ}
    (hp : p ≠ l.process) : (step rings s l).phase p = s.phase p := by
  have hgoes : ∀ (t : State) (phase : Phase), (t.goes l.process phase).phase p = t.phase p := by
    intro t phase
    rw [goes_phase, if_neg hp]
  cases l with
  | load q =>
      simp only [step]
      split
      · rfl
      · exact hgoes s .loading
  | advance q now kid pair =>
      simp only [step]
      split
      · split
        · exact hgoes s .idle
        · exact hgoes s .publishing
        · exact hgoes s .serving
      · exact hgoes _ (.activating kid)
      · split
        · exact hgoes s .idle
        · exact hgoes _ .serving
      · rfl
  | op q now op =>
      simp only [step]
      split <;> rfl
  | kill q => exact hgoes s .idle

/-- A call returns after it has read a listed key or activated one. -/
theorem Returns.cases {rings : ℕ → KeyRing} {s : State} {l : Label} {p : ℕ} (hs : Sane s)
    (h : Returns rings s l p) :
    (s.phase p = .loading ∧ listed s.ring.records ≠ [] ∧ step rings s l = s.goes p .serving) ∨
      HasActive (step rings s l).ring.records := by
  obtain ⟨hstarting, hserving⟩ := h
  have hprocess : p = l.process := by
    by_contra hne
    rw [phase_step_of_ne rings s hne] at hserving
    rw [hserving] at hstarting
    cases hstarting
  subst hprocess
  cases l with
  | load p =>
      simp only [Label.process, step] at hstarting hserving
      rw [if_pos hstarting] at hserving
      rw [hserving] at hstarting
      cases hstarting
  | advance p now kid pair =>
      simp only [Label.process] at hstarting hserving ⊢
      cases hphase : s.phase p with
      | idle =>
          rw [hphase] at hstarting
          cases hstarting
      | loading =>
          obtain ⟨keys, hkeys, hnil⟩ := hs.kept.jwks_eq
          cases keys with
          | nil =>
              simp only [step, hphase, hkeys, goes_phase, if_pos] at hserving
              cases hserving
          | cons key keys =>
              refine Or.inl ⟨rfl, ?_, by simp only [step, hphase, hkeys]⟩
              intro hempty
              cases hnil.mpr hempty
      | publishing =>
          simp only [step, hphase, goes_phase, if_pos] at hserving
          cases hserving
      | activating first =>
          cases ha : RingOp.apply (rings p) s.ring now (.activate first) with
          | error e =>
              simp only [step, hphase, ha, goes_phase, if_pos] at hserving
              cases hserving
          | ok ring =>
              refine Or.inr ?_
              simp only [step, hphase, ha, goes_ring]
              rcases (hasActive_apply hs.kept ha).2 with ⟨kid', pair', hop⟩ | hactive
              · cases hop
              · exact hactive
      | serving =>
          rw [hphase] at hstarting
          cases hstarting
  | op p now op =>
      have hsame : (step rings s (.op p now op)).phase p = s.phase p := by
        simp only [step]
        split <;> rfl
      simp only [Label.process] at hstarting hserving
      rw [hsame] at hserving
      rw [hserving] at hstarting
      cases hstarting
  | kill p =>
      simp only [Label.process, step, goes_phase, if_pos] at hserving
      cases hserving

/-- An active key stays, and with it the signer. -/
theorem canSign_run {rings : ℕ → KeyRing} {s : State} (hs : Sane s)
    (h : HasActive s.ring.records) (ls : List Label) :
    CanSign (run (step rings) s ls).ring := by
  have hinv := run_always (step rings) (fun t => Sane t ∧ HasActive t.ring.records)
    (fun t l ht => ⟨sane_step rings t l ht.1, hasActive_step rings t l ht.1 ht.2⟩)
    ⟨hs, h⟩ ls
  exact hinv.1.kept.canSign hinv.2

theorem yieldsSigner_of_careful {rings : ℕ → KeyRing} {ls : List Label}
    (h : Along (step rings) Careful .start ls) : YieldsSigner rings ls := by
  intro pre l mid post hls p hreturns hothers
  rw [hls, along_append] at h
  have hsane := sane_run rings pre
  rw [run_append, run_cons, run_nil] at hothers
  rw [run_append, run_cons]
  refine canSign_run (sane_step rings _ l hsane) ?_ mid
  rcases hreturns.cases hsane with ⟨hloading, hlisted, hstep⟩ | hactive
  · rcases guarded_run h.1 hlisted with hactive | ⟨q, hq⟩
    · rw [hstep]
      exact hactive
    · -- a bootstrap is another startup in progress
      have hne : q ≠ p := by
        intro he
        rw [he, hloading] at hq
        cases hq
      have hfree := hothers q hne
      rw [hstep, goes_phase, if_neg hne] at hfree
      cases hphase : (run (step rings) .start pre).phase q with
      | publishing => simp [hphase, Phase.starting] at hfree
      | activating kid => simp [hphase, Phase.starting] at hfree
      | _ => simp [hphase, Phase.bootstraps] at hq
  · exact hactive

/-! ## What the careless steps do -/

/-- A process that no label names has done nothing. -/
theorem phase_run_of_notMem (rings : ℕ → KeyRing) (s : State) (ls : List Label) {p : ℕ}
    (hp : p ∉ ls.map Label.process) : (run (step rings) s ls).phase p = s.phase p := by
  induction ls generalizing s with
  | nil => rfl
  | cons l ls ih =>
      simp only [List.map_cons, List.mem_cons, not_or] at hp
      rw [run_cons, ih _ hp.2, phase_step_of_ne rings s hp.1]

/-- Kills stop their processes and leave the ring. -/
theorem run_kills (rings : ℕ → KeyRing) (s : State) (ps : List ℕ) :
    (run (step rings) s (ps.map .kill)).ring = s.ring ∧
      ∀ p, (run (step rings) s (ps.map .kill)).phase p =
        if p ∈ ps then .idle else s.phase p := by
  induction ps generalizing s with
  | nil => simp
  | cons q ps ih =>
      obtain ⟨hring, hphase⟩ := ih (s.goes q .idle)
      rw [List.map_cons, run_cons]
      refine ⟨hring, ?_⟩
      intro p
      show (run (step rings) (s.goes q .idle) (ps.map .kill)).phase p = _
      rw [hphase, goes_phase]
      by_cases hq : p = q <;> by_cases hps : p ∈ ps <;> simp [hq, hps]

/-- No startup is past its reading of `jwks`. -/
def Quiet (s : State) : Prop := ∀ p, (s.phase p).bootstraps = false

/-- Where no bootstrap runs, every kill is careful. -/
theorem along_kills {rings : ℕ → KeyRing} {s : State} (h : Quiet s) (ps : List ℕ) :
    Along (step rings) Careful s (ps.map .kill) := by
  induction ps generalizing s with
  | nil => trivial
  | cons p ps ih =>
      refine ⟨?_, ih ?_⟩
      · intro hp
        rw [h p] at hp
        cases hp
      · intro q
        show ((s.goes p .idle).phase q).bootstraps = false
        rw [goes_phase]
        split
        · rfl
        · exact h q

/-- Every service stops, and one starts. -/
def restart (ls : List Label) : List Label :=
  (ls.map Label.process).map .kill ++ [.load 0, .advance 0 0 "" (samplePair 0)]

theorem along_restart {rings : ℕ → KeyRing} {s : State} (h : Quiet s) (ls : List Label) :
    Along (step rings) Careful s (restart ls) := by
  unfold restart
  rw [along_append]
  exact ⟨along_kills h _, trivial, trivial, trivial⟩

/-- On a ring that lists keys and has no active one, the startup returns without a signer. -/
theorem not_yieldsSigner_of_restart {rings : ℕ → KeyRing} {ls : List Label}
    (hlisted : listed (run (step rings) .start ls).ring.records ≠ [])
    (hactive : ¬ HasActive (run (step rings) .start ls).ring.records) :
    ¬ YieldsSigner rings (ls ++ restart ls) := by
  intro h
  have hsane := sane_run rings ls
  generalize hs : run (step rings) .start ls = s at hlisted hactive hsane
  obtain ⟨hring, hphase⟩ := run_kills rings s (ls.map Label.process)
  generalize ht : run (step rings) s ((ls.map Label.process).map .kill) = t at hring hphase
  have hidle : ∀ p, t.phase p = .idle := by
    intro p
    rw [hphase]
    by_cases hp : p ∈ ls.map Label.process
    · rw [if_pos hp]
    · rw [if_neg hp, ← hs, phase_run_of_notMem rings .start ls hp]
      rfl
  have hload : step rings t (.load 0) = t.goes 0 .loading := by
    simp only [step, hidle, Phase.starting]
    rfl
  have hreturn : step rings (t.goes 0 .loading) (.advance 0 0 "" (samplePair 0)) =
      (t.goes 0 .loading).goes 0 .serving := by
    obtain ⟨keys, hkeys, hnil⟩ := hsane.kept.jwks_eq
    cases keys with
    | nil => exact absurd (hnil.mp rfl) hlisted
    | cons key keys => simp only [step, goes_phase, if_pos, goes_ring, hring, hkeys]
  have hpre : run (step rings) .start
      (ls ++ ((ls.map Label.process).map .kill ++ [.load 0])) = t.goes 0 .loading := by
    rw [run_append, hs, run_append, ht, run_cons, run_nil, hload]
  have hsigns := h (ls ++ ((ls.map Label.process).map .kill ++ [.load 0]))
    (.advance 0 0 "" (samplePair 0)) [] [] (by simp [restart]) 0
    ⟨by rw [hpre, goes_phase, if_pos rfl]; rfl,
      by rw [hpre, hreturn, goes_phase, if_pos rfl]⟩ ?_
  · rw [run_append, hpre, run_cons, run_nil, hreturn] at hsigns
    obtain ⟨kid, pair, hkid, -⟩ := hsigns
    simp only [goes_ring, hring, activeKid] at hkid
    split at hkid
    · cases hkid
    · next active hf => exact hactive ⟨active, activeRecord_eq_some hf⟩
  · intro q hq
    rw [run_append, hpre, run_cons, run_nil, hreturn, goes_phase, if_neg hq, goes_phase,
      if_neg hq, hidle]
    rfl

/-- A service is killed between its `publish` and its `activate`; another starts. -/
def killedBootstrap : List Label :=
  [.load 0, .advance 0 0 "" (samplePair 0), .advance 0 0 "a" (samplePair 3233), .kill 0]

/-- The second startup returns and the ring has no active key. -/
theorem killed_bootstrap : ¬ ∀ rings ls, YieldsSigner rings ls := by
  intro h
  have hno : ¬ YieldsSigner (fun _ => KeyRing.default)
      (killedBootstrap ++ restart killedBootstrap) := by
    refine not_yieldsSigner_of_restart (by decide +kernel) ?_
    intro hactive
    obtain ⟨r, hr, hs⟩ := hactive
    have hall : ∀ r ∈ (run (step fun _ => KeyRing.default) .start
        killedBootstrap).ring.records, r.state ≠ .active := by decide +kernel
    exact hall r hr hs
  exact hno (h _ _)

/-- A careless step leaves a listed key, no active one, and no bootstrap. -/
theorem careless (rings : ℕ → KeyRing) {s : State} {l : Label} (h : ¬ Careful s l) :
    listed (step rings s l).ring.records ≠ [] ∧ ¬ HasActive (step rings s l).ring.records ∧
      Quiet (step rings s l) := by
  cases l with
  | load p => exact absurd trivial h
  | advance p now kid pair => exact absurd trivial h
  | op p now op =>
      cases op with
      | activate kid => exact absurd trivial h
      | retire kid => exact absurd trivial h
      | publish kid pair =>
          simp only [Careful, not_or, not_exists] at h
          obtain ⟨hactive, hquiet⟩ := h
          refine ⟨?_, ?_, ?_⟩
          · simp [step, RingOp.apply, publish, listed, newRecord]
          · intro hnew
            obtain ⟨r, hr, hs⟩ := hnew
            rcases List.mem_append.mp hr with hr | hr
            · exact hactive ⟨r, hr, hs⟩
            · rw [List.mem_singleton.mp hr] at hs
              cases hs
          · intro q
            exact Bool.eq_false_iff.mpr (hquiet q)
  | kill p =>
      simp only [Careful, not_forall, not_or, not_exists, not_and] at h
      obtain ⟨-, hlisted, hactive, hquiet⟩ := h
      refine ⟨hlisted, hactive, ?_⟩
      intro q
      show ((s.goes p .idle).phase q).bootstraps = false
      rw [goes_phase]
      split
      · rfl
      · next hne => exact Bool.eq_false_iff.mpr (hquiet q hne)

/-- Startup yields a signer in every careful run, and each careless step after one is followed,
    with care, by a startup that does not. -/
theorem startup_yields_signer (rings : ℕ → KeyRing) :
    (∀ ls, Along (step rings) Careful .start ls → YieldsSigner rings ls) ∧
      ∀ ls l, Along (step rings) Careful .start ls →
        ¬ Careful (run (step rings) .start ls) l →
        ∃ more, Along (step rings) Careful (run (step rings) .start (ls ++ [l])) more ∧
          ¬ YieldsSigner rings (ls ++ [l] ++ more) := by
  refine ⟨fun ls h => yieldsSigner_of_careful h, ?_⟩
  intro ls l _ hl
  obtain ⟨hlisted, hactive, hquiet⟩ := careless rings hl
  have hrun : run (step rings) .start (ls ++ [l]) =
      step rings (run (step rings) .start ls) l := run_append _ _ _ _
  refine ⟨restart (ls ++ [l]), ?_, not_yieldsSigner_of_restart ?_ ?_⟩
  · rw [hrun]
    exact along_restart hquiet _
  · rw [hrun]
    exact hlisted
  · rw [hrun]
    exact hactive

/-- Two services start at once on an empty ring. -/
theorem startup_yields_two : YieldsSigner (fun _ => KeyRing.default)
    [.load 0, .load 1, .advance 0 0 "" (samplePair 0), .advance 1 0 "" (samplePair 0),
     .advance 0 0 "a" (samplePair 3233), .advance 1 0 "b" (samplePair 2773),
     .advance 0 1 "" (samplePair 0), .advance 1 1 "" (samplePair 0)] :=
  (startup_yields_signer _).1 _ (by simp [Along, Careful])

end TemisLab.Keyring.Startup
