/-
  The life of each key. The runs are those of `Lifecycle`; `activations` is the history of the
  activations that succeeded, and `since` the part of it from one kid's activation on: that kid's
  activation first, then the one that replaced it.

  * `Orderly`: what the ring's records are after a run. Kids are unique; there is one active
    record from the first activation on; a record's stamps are the times of its own activation
    and of the next one; a record only moves on; `jwks` and `verification_key` agree on the keys
    that are not retired; a refused call changes nothing.
  * `Told`: the invariant that carries it, each record read off the history.
  * `lifecycle_orderly`: every run with fresh kids is orderly.
-/
import TemisLab.Keyring.Lifecycle
import Mathlib.Data.List.TakeWhile
import Mathlib.Logic.Relation

namespace TemisLab.Keyring

open TemisLab.Lib TemisLab.Sso

/-- One move of a record. -/
inductive KeyState.Next : KeyState → KeyState → Prop where
  | activated : Next .published .active
  | handedOver : Next .active .retiring
  | retired : Next .retiring .retired

/-- The activation a call makes: the kid and the time. -/
def activationOf (s : Life) (l : Time × Call) : List (String × Time) :=
  match l.2 with
  | .op (.activate kid) =>
      match activateRecords s.ring.records kid (max s.clock l.1) with
      | .error _ => []
      | .ok _ => [(kid, max s.clock l.1)]
  | _ => []

/-- The activations of a run, in order. -/
def activations (keyRing : KeyRing) : Life → List (Time × Call) → List (String × Time)
  | _, [] => []
  | s, l :: ls => activationOf s l ++ activations keyRing (step keyRing s l) ls

/-- The activations from that of the kid on. -/
def since (history : List (String × Time)) (kid : String) : List (String × Time) :=
  history.dropWhile fun a => a.1 ≠ kid

/-! ## The claims of a run -/

/-- The ring after the run of `ls`, by the activations of that run. -/
structure Orderly (keyRing : KeyRing) (clock : Time) (ls : List (Time × Call)) : Prop where
  kids : ((run (step keyRing) (.start clock) ls).ring.records.map KeyRecord.kid).Nodup
  atMostOne : ∀ r ∈ (run (step keyRing) (.start clock) ls).ring.records, r.state = .active →
    ∀ r' ∈ (run (step keyRing) (.start clock) ls).ring.records, r'.state = .active → r = r'
  exactlyOne : activations keyRing (.start clock) ls ≠ [] →
    ((run (step keyRing) (.start clock) ls).ring.records.filter
      fun r => r.state = .active).length = 1
  stamps : ∀ r ∈ (run (step keyRing) (.start clock) ls).ring.records,
    r.activatedAt = ((since (activations keyRing (.start clock) ls) r.kid)[0]?).map Prod.snd ∧
    r.retiringAt = ((since (activations keyRing (.start clock) ls) r.kid)[1]?).map Prod.snd
  states : ∀ r ∈ (run (step keyRing) (.start clock) ls).ring.records,
    (r.activatedAt = none ↔ r.state = .published) ∧
    (r.retiringAt = none ↔ r.state = .published ∨ r.state = .active)
  ordered : ∀ r ∈ (run (step keyRing) (.start clock) ls).ring.records,
    ∀ a, r.activatedAt = some a → r.publishedAt ≤ a ∧ ∀ τ, r.retiringAt = some τ → a ≤ τ
  replaced : ∀ r ∈ (run (step keyRing) (.start clock) ls).ring.records,
    ∀ τ, r.retiringAt = some τ →
      ∃ r' ∈ (run (step keyRing) (.start clock) ls).ring.records,
        (since (activations keyRing (.start clock) ls) r.kid)[1]? = some (r'.kid, τ) ∧
          r'.activatedAt = some τ
  moves : ∀ pre post, ls = pre ++ post →
    ∀ r ∈ (run (step keyRing) (.start clock) pre).ring.records,
      ∃ r' ∈ (run (step keyRing) (.start clock) ls).ring.records, r'.kid = r.kid ∧
        r'.publishedAt = r.publishedAt ∧ Relation.ReflTransGen KeyState.Next r.state r'.state
  readers : ∃ keys, jwks (run (step keyRing) (.start clock) ls).ring = .ok keys ∧
    keys.map Jwk.kid =
      (listed (run (step keyRing) (.start clock) ls).ring.records).map KeyRecord.kid ∧
    ∀ kid, kid ∈ keys.map Jwk.kid ↔
      ∃ key, verificationKey (run (step keyRing) (.start clock) ls).ring kid = .ok key
  refused : ∀ pre now op post e, ls = pre ++ (now, .op op) :: post →
    let before := run (step keyRing) (.start clock) pre
    op.apply keyRing before.ring (max before.clock now) = .error e →
      (step keyRing before (now, .op op)).ring = before.ring

/-! ## The history of one kid -/

theorem since_eq_nil {history : List (String × Time)} {kid : String} :
    since history kid = [] ↔ ∀ a ∈ history, a.1 ≠ kid := by
  simp [since, List.dropWhile_eq_nil_iff]

/-- The history of a kid starts with its own activation. -/
theorem since_cons {history rest : List (String × Time)} {kid : String} {a : String × Time}
    (h : since history kid = a :: rest) : a.1 = kid := by
  have hne : (history.dropWhile fun b => b.1 ≠ kid) ≠ [] := by
    unfold since at h
    rw [h]
    simp
  have hhead := List.head_dropWhile_not (p := fun b : String × Time => decide (b.1 ≠ kid))
    (l := history) hne
  unfold since at h
  simp only [h, List.head_cons] at hhead
  simpa using hhead

/-- A later activation ends up in the history of every kid that has one. -/
theorem since_append (history : List (String × Time)) (kid : String) (a : String × Time) :
    since (history ++ [a]) kid =
      if since history kid = [] then (if a.1 = kid then [a] else [])
      else since history kid ++ [a] := by
  induction history with
  | nil => by_cases ha : a.1 = kid <;> simp [since, ha]
  | cons b history ih =>
      by_cases hb : b.1 = kid
      · simp [since, hb]
      · have hskip : ∀ l, since (b :: l) kid = since l kid := by
          intro l
          simp [since, hb]
        rw [List.cons_append, hskip, hskip]
        exact ih

/-- A history of one activation is its end. -/
theorem since_last {history : List (String × Time)} {kid : String}
    (h : (since history kid).length = 1) :
    ∃ older a, history = older ++ [a] ∧ a.1 = kid := by
  obtain ⟨a, ha⟩ := List.length_eq_one_iff.mp h
  refine ⟨history.takeWhile fun b => b.1 ≠ kid, a, ?_, since_cons ha⟩
  have hsplit := List.takeWhile_append_dropWhile (p := fun b : String × Time => decide (b.1 ≠ kid))
    (l := history)
  unfold since at ha
  rw [ha] at hsplit
  exact hsplit.symm

/-! ## Records only move on -/

/-- Every record is still there, where it was or further. -/
def MovesOn (records records' : List KeyRecord) : Prop :=
  ∀ k r, find records k = some r → ∃ r', find records' k = some r' ∧
    r'.publishedAt = r.publishedAt ∧ Relation.ReflTransGen KeyState.Next r.state r'.state

theorem MovesOn.refl (records : List KeyRecord) : MovesOn records records :=
  fun _ r hr => ⟨r, hr, rfl, .refl⟩

theorem MovesOn.trans {rs₁ rs₂ rs₃ : List KeyRecord} (h : MovesOn rs₁ rs₂)
    (h' : MovesOn rs₂ rs₃) : MovesOn rs₁ rs₃ := by
  intro k r hr
  obtain ⟨r', hr', hp, hs⟩ := h k r hr
  obtain ⟨r'', hr'', hp', hs'⟩ := h' k r' hr'
  exact ⟨r'', hr'', hp'.trans hp, hs.trans hs'⟩

theorem movesOn_publish (records : List KeyRecord) (kid : String) (now : Time) :
    MovesOn records (records ++ [newRecord kid now]) := by
  intro k r hr
  exact ⟨r, by rw [find_append, hr, Option.some_or], rfl, .refl⟩

theorem movesOn_activate {records records' : List KeyRecord} {kid : String} {now : Time}
    (ha : activateRecords records kid now = .ok records') : MovesOn records records' := by
  obtain ⟨⟨target, ht, hpub⟩, -, hfind⟩ := activateRecords_eq_ok ha
  intro k r hr
  rw [hfind, hr, Option.map_some]
  by_cases hk : k = kid
  · rw [hk, ht] at hr
    cases hr
    rw [if_pos hk, KeyRecord.handOver_of_ne (by simp [hpub])]
    refine ⟨_, rfl, rfl, ?_⟩
    rw [hpub]
    exact .single .activated
  · rw [if_neg hk]
    refine ⟨_, rfl, ?_⟩
    unfold KeyRecord.handOver
    split
    · next hs =>
        rw [hs]
        exact ⟨rfl, .single .handedOver⟩
    · exact ⟨rfl, .refl⟩

theorem movesOn_retire {overlap : ℚ} {records records' : List KeyRecord} {kid : String}
    {now : Time} (ha : retireRecords overlap records kid now = .ok records') :
    MovesOn records records' := by
  obtain ⟨⟨target, τ, ht, hretiring, -, -⟩, -, hfind⟩ := retireRecords_eq_ok ha
  intro k r hr
  rw [hfind, hr, Option.map_some]
  by_cases hk : k = kid
  · rw [hk, ht] at hr
    cases hr
    rw [if_pos hk]
    refine ⟨_, rfl, rfl, ?_⟩
    rw [hretiring]
    exact .single .retired
  · rw [if_neg hk]
    exact ⟨r, rfl, rfl, .refl⟩

theorem movesOn_step (keyRing : KeyRing) (s : Life) (l : Time × Call) :
    MovesOn s.ring.records (step keyRing s l).ring.records := by
  have hd := step_did keyRing s l
  generalize step keyRing s l = s' at hd ⊢
  cases hd with
  | waited => exact .refl _
  | signed kid key hs => exact .refl _
  | published kid pair hl => exact movesOn_publish s.ring.records kid _
  | activated kid records ha => exact movesOn_activate ha
  | retired kid records ha => exact movesOn_retire ha

/-! ## The invariant -/

/-- A record as its history has it. -/
structure KeyRecord.Told (history : List (String × Time)) (clock : Time) (r : KeyRecord) :
    Prop where
  activatedAt : r.activatedAt = history[0]?.map Prod.snd
  retiringAt : r.retiringAt = history[1]?.map Prod.snd
  published : r.state = .published ↔ history = []
  active : r.state = .active ↔ history.length = 1
  born : r.publishedAt ≤ clock
  after : ∀ a ∈ history, r.publishedAt ≤ a.2

structure Told (history : List (String × Time)) (s : Life) : Prop where
  known : ∀ a ∈ history, ∃ r, find s.ring.records a.1 = some r
  once : (history.map Prod.fst).Nodup
  sorted : history.Pairwise fun a b => a.2 ≤ b.2
  past : ∀ a ∈ history, a.2 ≤ s.clock
  told : ∀ k r, find s.ring.records k = some r → r.Told (since history k) s.clock

theorem KeyRecord.Told.mono {history : List (String × Time)} {clock clock' : Time}
    {r : KeyRecord} (h : r.Told history clock) (hle : clock ≤ clock') :
    r.Told history clock' :=
  ⟨h.activatedAt, h.retiringAt, h.published, h.active, le_trans h.born hle, h.after⟩

/-- The next activation retires an active record and leaves the others. -/
theorem KeyRecord.Told.handOver {history : List (String × Time)} {clock : Time}
    {r : KeyRecord} (h : r.Told history clock) (hne : history ≠ []) (kid : String) :
    (r.handOver clock).Told (history ++ [(kid, clock)]) clock := by
  have hpos : 0 < history.length := List.length_pos_iff.mpr hne
  have hpub : r.state ≠ .published := fun hs => hne (h.published.mp hs)
  have hafter : ∀ a ∈ history ++ [(kid, clock)], r.publishedAt ≤ a.2 := by
    intro a ha
    rcases List.mem_append.mp ha with ha | ha
    · exact h.after a ha
    · rw [List.mem_singleton.mp ha]
      exact h.born
  have hfirst : (history ++ [(kid, clock)])[0]? = history[0]? :=
    List.getElem?_append_left hpos
  unfold KeyRecord.handOver
  by_cases hs : r.state = .active
  · have hlen := h.active.mp hs
    rw [if_pos hs]
    refine ⟨?_, ?_, ?_, ?_, h.born, hafter⟩
    · rw [hfirst]
      exact h.activatedAt
    · rw [List.getElem?_append_right (by omega), hlen]
      rfl
    · simp
    · simp [hlen]
  · have hlen : history.length ≠ 1 := fun hl => hs (h.active.mpr hl)
    have hsecond : (history ++ [(kid, clock)])[1]? = history[1]? :=
      List.getElem?_append_left (by omega)
    rw [if_neg hs]
    refine ⟨?_, ?_, ?_, ?_, h.born, hafter⟩
    · rw [hfirst]
      exact h.activatedAt
    · rw [hsecond]
      exact h.retiringAt
    · simp [hpub]
    · simp only [hs, List.length_append, List.length_singleton, false_iff]
      omega

/-- A published record's own activation. -/
theorem KeyRecord.Told.activated {clock : Time} {r : KeyRecord} (h : r.Told [] clock)
    (kid : String) : ((r.handOver clock).activated clock).Told [(kid, clock)] clock := by
  have hpub : r.state = .published := h.published.mpr rfl
  rw [KeyRecord.handOver_of_ne (by simp [hpub])]
  refine ⟨rfl, ?_, ?_, ?_, h.born, ?_⟩
  · exact h.retiringAt
  · simp [KeyRecord.activated]
  · simp [KeyRecord.activated]
  · intro a ha
    rw [List.mem_singleton.mp ha]
    exact h.born

theorem KeyRecord.Told.retired {history : List (String × Time)} {clock : Time}
    {r : KeyRecord} (h : r.Told history clock) (hs : r.state = .retiring) :
    r.retired.Told history clock := by
  refine ⟨h.activatedAt, h.retiringAt, ?_, ?_, h.born, h.after⟩
  · rw [← h.published, hs]
    simp [KeyRecord.retired]
  · rw [← h.active, hs]
    simp [KeyRecord.retired]

theorem told_start (clock : Time) : Told [] (.start clock) :=
  ⟨by simp, List.nodup_nil, List.Pairwise.nil, by simp, by simp [Life.start, Ring.empty, find]⟩

theorem Told.wait {history : List (String × Time)} {s : Life} (h : Told history s)
    (now : Time) : Told history { s with clock := max s.clock now } := by
  have hle : s.clock ≤ max s.clock now := le_max_left _ _
  refine ⟨h.known, h.once, h.sorted, ?_, ?_⟩
  · intro a ha
    exact le_trans (h.past a ha) hle
  · intro k r hr
    exact (h.told k r hr).mono hle

/-- A new record has no history. -/
theorem Told.publish {history : List (String × Time)} {s : Life} (h : Told history s)
    (kid : String) (pair : KeyPair) :
    Told history { s with ring := Keyring.publish s.ring kid pair s.clock } := by
  refine ⟨?_, h.once, h.sorted, h.past, ?_⟩
  · intro a ha
    obtain ⟨r, hr⟩ := h.known a ha
    exact ⟨r, by simp [Keyring.publish, find_append, hr]⟩
  · intro k r hr
    simp only [Keyring.publish, find_append] at hr
    cases hk : find s.ring.records k with
    | some r' =>
        rw [hk, Option.some_or] at hr
        cases hr
        exact h.told k r hk
    | none =>
        have hnil : since history k = [] := by
          rw [since_eq_nil]
          intro a ha he
          obtain ⟨r', hr'⟩ := h.known a ha
          rw [he, hk] at hr'
          cases hr'
        rw [hk, Option.none_or] at hr
        split at hr
        · cases hr
          rw [hnil]
          exact ⟨rfl, rfl, by simp [newRecord], by simp [newRecord], le_refl _, by simp⟩
        · cases hr

/-- An activation is the new end of the history. -/
theorem Told.activate {history : List (String × Time)} {s : Life} (h : Told history s)
    {kid : String} {records : List KeyRecord}
    (ha : activateRecords s.ring.records kid s.clock = .ok records) :
    Told (history ++ [(kid, s.clock)]) { s with ring := { s.ring with records } } := by
  obtain ⟨⟨target, ht, hpub⟩, -, hfind⟩ := activateRecords_eq_ok ha
  have hnil : since history kid = [] := (h.told kid target ht).published.mp hpub
  have hnew : ∀ a ∈ history, a.1 ≠ kid := since_eq_nil.mp hnil
  refine ⟨?_, ?_, ?_, ?_, ?_⟩
  · intro a ha
    have hold : ∃ r, find s.ring.records a.1 = some r := by
      rcases List.mem_append.mp ha with ha | ha
      · exact h.known a ha
      · rw [List.mem_singleton.mp ha]
        exact ⟨target, ht⟩
    obtain ⟨r, hr⟩ := hold
    exact ⟨_, by rw [hfind, hr, Option.map_some]⟩
  · rw [List.map_append, List.nodup_append]
    refine ⟨h.once, List.nodup_singleton _, ?_⟩
    intro k hk k' hk' he
    obtain ⟨a, ha, hak⟩ := List.mem_map.mp hk
    have hk'' : k' = kid := by simpa using hk'
    exact hnew a ha (hak.trans (he.trans hk''))
  · rw [List.pairwise_append]
    refine ⟨h.sorted, List.pairwise_singleton _ _, ?_⟩
    intro a ha b hb
    rw [List.mem_singleton.mp hb]
    exact h.past a ha
  · intro a ha
    rcases List.mem_append.mp ha with ha | ha
    · exact h.past a ha
    · rw [List.mem_singleton.mp ha]
  · intro k r hr
    simp only [hfind] at hr
    obtain ⟨r₀, hr₀, rfl⟩ := Option.map_eq_some_iff.mp hr
    have htold := h.told k r₀ hr₀
    rw [since_append]
    by_cases hk : k = kid
    · rw [hk, ht] at hr₀
      cases hr₀
      rw [hk]
      rw [hk] at htold
      rw [hnil] at htold
      rw [if_pos hnil, if_pos rfl, if_pos rfl]
      exact htold.activated kid
    · rw [if_neg hk]
      by_cases hsince : since history k = []
      · have hpub₀ := htold.published.mpr hsince
        rw [if_pos hsince, if_neg (Ne.symm hk), KeyRecord.handOver_of_ne (by simp [hpub₀]),
          ← hsince]
        exact htold
      · rw [if_neg hsince]
        exact htold.handOver hsince kid

theorem Told.retire {history : List (String × Time)} {s : Life} (h : Told history s)
    {overlap : ℚ} {kid : String} {records : List KeyRecord}
    (ha : retireRecords overlap s.ring.records kid s.clock = .ok records) :
    Told history { s with ring := { s.ring with records } } := by
  obtain ⟨⟨target, τ, ht, hretiring, -, -⟩, -, hfind⟩ := retireRecords_eq_ok ha
  refine ⟨?_, h.once, h.sorted, h.past, ?_⟩
  · intro a ha
    obtain ⟨r, hr⟩ := h.known a ha
    exact ⟨_, by rw [hfind, hr, Option.map_some]⟩
  · intro k r hr
    simp only [hfind] at hr
    obtain ⟨r₀, hr₀, rfl⟩ := Option.map_eq_some_iff.mp hr
    have htold := h.told k r₀ hr₀
    by_cases hk : k = kid
    · subst hk
      rw [ht] at hr₀
      cases hr₀
      rw [if_pos rfl]
      exact htold.retired hretiring
    · rw [if_neg hk]
      exact htold

theorem told_step (keyRing : KeyRing) {history : List (String × Time)} {s : Life}
    (h : Told history s) (l : Time × Call) :
    Told (history ++ activationOf s l) (step keyRing s l) := by
  obtain ⟨now, call⟩ := l
  have hw := h.wait now
  cases call with
  | op op =>
      cases op with
      | publish kid pair =>
          simp only [activationOf, step, RingOp.apply, List.append_nil]
          exact hw.publish kid pair
      | activate kid =>
          simp only [activationOf, step, RingOp.apply]
          cases ha : activateRecords s.ring.records kid (max s.clock now) with
          | error e =>
              simp only [Except.map, List.append_nil]
              exact hw
          | ok records =>
              simp only [Except.map]
              exact hw.activate ha
      | retire kid =>
          simp only [activationOf, step, RingOp.apply, List.append_nil]
          cases ha : retireRecords keyRing.overlapSeconds s.ring.records kid
              (max s.clock now) with
          | error e =>
              simp only [Except.map]
              exact hw
          | ok records =>
              simp only [Except.map]
              exact hw.retire ha
  | sign =>
      simp only [activationOf, step, List.append_nil]
      cases hs : signClaims s.ring with
      | error e => exact hw
      | ok p => exact ⟨hw.known, hw.once, hw.sorted, hw.past, hw.told⟩

theorem told_run (keyRing : KeyRing) {history : List (String × Time)} {s : Life}
    (h : Told history s) (ls : List (Time × Call)) :
    Told (history ++ activations keyRing s ls) (run (step keyRing) s ls) := by
  induction ls generalizing history s with
  | nil =>
      simp only [activations, List.append_nil]
      exact h
  | cons l ls ih =>
      rw [activations, ← List.append_assoc]
      exact ih (told_step keyRing h l)

/-! ## Runs -/

/-- The one active record is that of the last activation. -/
theorem Told.active {history : List (String × Time)} {s : Life} (h : Told history s)
    (hn : (s.ring.records.map KeyRecord.kid).Nodup) {r : KeyRecord}
    (hr : r ∈ s.ring.records) (hs : r.state = .active) :
    ∃ older a, history = older ++ [a] ∧ a.1 = r.kid :=
  since_last ((h.told r.kid r (find_of_mem hn hr)).active.mp hs)

theorem Told.atMostOne {history : List (String × Time)} {s : Life} (h : Told history s)
    (hn : (s.ring.records.map KeyRecord.kid).Nodup) {r r' : KeyRecord}
    (hr : r ∈ s.ring.records) (hs : r.state = .active) (hr' : r' ∈ s.ring.records)
    (hs' : r'.state = .active) : r = r' := by
  obtain ⟨older, a, hlast, ha⟩ := h.active hn hr hs
  obtain ⟨older', a', hlast', ha'⟩ := h.active hn hr' hs'
  rw [hlast] at hlast'
  have haa : a = a' := by
    have htail := List.append_inj_right' hlast' rfl
    simpa using htail
  exact List.inj_on_of_nodup_map hn hr hr' (by rw [← ha, ← ha', haa])

/-- Its record is in the ring, and its history is that activation alone. -/
theorem Told.exists_active {history : List (String × Time)} {s : Life} (h : Told history s)
    (hne : history ≠ []) : ∃ r ∈ s.ring.records, r.state = .active := by
  obtain ⟨older, a, hlast⟩ : ∃ older a, history = older ++ [a] :=
    ⟨_, _, (List.dropLast_append_getLast hne).symm⟩
  obtain ⟨r, hr⟩ := h.known a (by rw [hlast]; simp)
  have honce := h.once
  have hnil : since older a.1 = [] := by
    rw [since_eq_nil]
    intro b hb he
    rw [hlast, List.map_append, List.nodup_append] at honce
    exact honce.2.2 b.1 (List.mem_map_of_mem hb) a.1 (by simp) he
  have hsince : since history a.1 = [a] := by
    rw [hlast, since_append, if_pos hnil, if_pos rfl]
  have htold := h.told a.1 r hr
  rw [hsince] at htold
  exact ⟨r, (kid_of_find hr).1, htold.active.mpr rfl⟩

theorem Told.exactlyOne {history : List (String × Time)} {s : Life} (h : Told history s)
    (hn : (s.ring.records.map KeyRecord.kid).Nodup) (hne : history ≠ []) :
    (s.ring.records.filter fun r => r.state = .active).length = 1 := by
  obtain ⟨r, hr, hs⟩ := h.exists_active hne
  have hnodup : (s.ring.records.filter fun r => r.state = .active).Nodup :=
    (List.Nodup.of_map _ hn).filter _
  suffices hperm : (s.ring.records.filter fun r => r.state = .active).Perm [r] from
    hperm.length_eq
  rw [List.perm_ext_iff_of_nodup hnodup (List.nodup_singleton r)]
  intro r'
  rw [List.mem_filter, List.mem_singleton]
  refine ⟨?_, ?_⟩
  · intro hr'
    exact h.atMostOne hn hr'.1 (by simpa using hr'.2) hr hs
  · intro he
    rw [he]
    exact ⟨hr, by simp [hs]⟩

/-- The history of a kid, as a stretch of the whole. -/
theorem since_suffix (history : List (String × Time)) (kid : String) :
    ∃ older, history = older ++ since history kid :=
  ⟨_, (List.takeWhile_append_dropWhile (p := fun a : String × Time => decide (a.1 ≠ kid))).symm⟩

/-- The next activation in a kid's history is the first one of its own. -/
theorem Told.next {history : List (String × Time)} {s : Life} (h : Told history s)
    {kid : String} {a b : String × Time} {newer : List (String × Time)}
    (hsince : since history kid = a :: b :: newer) :
    since history b.1 = b :: newer ∧ a.2 ≤ b.2 := by
  obtain ⟨older, hsplit⟩ := since_suffix history kid
  rw [hsince] at hsplit
  have honce := h.once
  have hsorted := h.sorted
  rw [hsplit, List.pairwise_append] at hsorted
  refine ⟨?_, List.rel_of_pairwise_cons hsorted.2.1 List.mem_cons_self⟩
  have hskip : ∀ x ∈ older ++ [a], x.1 ≠ b.1 := by
    intro x hx he
    have hparts : history = (older ++ [a]) ++ b :: newer := by
      rw [hsplit]
      simp
    rw [hparts, List.map_append, List.nodup_append] at honce
    exact honce.2.2 x.1 (List.mem_map_of_mem hx) b.1 (by simp) he
  have hdrop : (older ++ [a] ++ b :: newer).dropWhile (fun x => x.1 ≠ b.1) =
      (b :: newer).dropWhile fun x => x.1 ≠ b.1 :=
    List.dropWhile_append_of_pos (by simpa using hskip)
  have hparts : history = older ++ [a] ++ b :: newer := by
    rw [hsplit]
    simp
  unfold since
  rw [hparts, hdrop]
  simp

theorem Told.replaced {history : List (String × Time)} {s : Life} (h : Told history s)
    {kid : String} {r : KeyRecord} (hr : find s.ring.records kid = some r) {τ : Time}
    (hτ : r.retiringAt = some τ) :
    ∃ r' ∈ s.ring.records, (since history kid)[1]? = some (r'.kid, τ) ∧
      r'.activatedAt = some τ := by
  have htold := h.told kid r hr
  rw [htold.retiringAt] at hτ
  obtain ⟨b, hb, rfl⟩ := Option.map_eq_some_iff.mp hτ
  cases hsince : since history kid with
  | nil =>
      rw [hsince] at hb
      cases hb
  | cons a rest =>
      cases rest with
      | nil =>
          rw [hsince] at hb
          cases hb
      | cons b' newer =>
          rw [hsince] at hb
          cases hb
          obtain ⟨older, hsplit⟩ := since_suffix history kid
          obtain ⟨r', hr'⟩ := h.known b (by rw [hsplit, hsince]; simp)
          obtain ⟨hmem, hkid⟩ := kid_of_find hr'
          refine ⟨r', hmem, ?_, ?_⟩
          · rw [hkid]
            rfl
          · have htold' := h.told b.1 r' hr'
            rw [(h.next hsince).1] at htold'
            exact htold'.activatedAt

theorem Told.ordered {history : List (String × Time)} {s : Life} (h : Told history s)
    {kid : String} {r : KeyRecord} (hr : find s.ring.records kid = some r) {a : Time}
    (ha : r.activatedAt = some a) :
    r.publishedAt ≤ a ∧ ∀ τ, r.retiringAt = some τ → a ≤ τ := by
  have htold := h.told kid r hr
  have hafter := htold.after
  rw [htold.activatedAt] at ha
  rw [htold.retiringAt]
  cases hsince : since history kid with
  | nil =>
      rw [hsince] at ha
      cases ha
  | cons first rest =>
      rw [hsince] at ha hafter
      cases ha
      refine ⟨hafter first List.mem_cons_self, ?_⟩
      intro τ hτ
      cases rest with
      | nil => cases hτ
      | cons b newer =>
          cases hτ
          exact (h.next hsince).2

theorem KeyRecord.Told.states {history : List (String × Time)} {clock : Time} {r : KeyRecord}
    (h : r.Told history clock) :
    (r.activatedAt = none ↔ r.state = .published) ∧
      (r.retiringAt = none ↔ r.state = .published ∨ r.state = .active) := by
  refine ⟨?_, ?_⟩
  · rw [h.activatedAt, h.published]
    simp
  · rw [h.retiringAt, h.published, h.active, Option.map_eq_none_iff, List.getElem?_eq_none_iff,
      ← List.length_eq_zero_iff]
    omega

/-- `verification_key` finds the keys that are not retired. -/
theorem Sound.verificationKey_ok {keyRing : KeyRing} {s : Life} (h : Sound keyRing s)
    (kid : String) :
    (∃ key, verificationKey s.ring kid = .ok key) ↔
      ∃ r ∈ s.ring.records, r.kid = kid ∧ r.state ≠ .retired := by
  rw [verificationKey_eq h.kids]
  refine ⟨?_, ?_⟩
  · intro hok
    cases hr : find s.ring.records kid with
    | none => simp [hr] at hok
    | some r =>
        obtain ⟨hmem, hkid⟩ := kid_of_find hr
        refine ⟨r, hmem, hkid, ?_⟩
        intro hs
        simp [hr, hs] at hok
  · intro hex
    obtain ⟨r, hmem, rfl, hs⟩ := hex
    have hr := find_of_mem h.kids hmem
    obtain ⟨pair, -, hpub⟩ := h.files r.kid r hr
    exact ⟨pair.publicKey, by simp [hr, hs, hpub]⟩

theorem Sound.readers {keyRing : KeyRing} {s : Life} (h : Sound keyRing s) :
    ∃ keys, jwks s.ring = .ok keys ∧
      keys.map Jwk.kid = (listed s.ring.records).map KeyRecord.kid ∧
      ∀ kid, kid ∈ keys.map Jwk.kid ↔ ∃ key, verificationKey s.ring kid = .ok key := by
  have hkids : ∀ records : List KeyRecord, (records.map fun r =>
      Jwk.of r.kid ((s.ring.publicPem r.kid).getD ⟨0, 0⟩)).map Jwk.kid =
        records.map KeyRecord.kid := by
    intro records
    rw [List.map_map]
    rfl
  refine ⟨_, h.jwks_eq, hkids _, ?_⟩
  intro kid
  rw [hkids, h.verificationKey_ok, List.mem_map]
  unfold listed
  refine ⟨?_, ?_⟩
  · intro hex
    obtain ⟨r, hr, hkid⟩ := hex
    obtain ⟨hmem, hs⟩ := List.mem_filter.mp hr
    exact ⟨r, hmem, hkid, by simpa using hs⟩
  · intro hex
    obtain ⟨r, hmem, hkid, hs⟩ := hex
    exact ⟨r, List.mem_filter.mpr ⟨hmem, by simpa using hs⟩, hkid⟩

/-- Every run with fresh kids keeps the life of each key in order. -/
theorem lifecycle_orderly (keyRing : KeyRing) (clock : Time) (ls : List (Time × Call))
    (hfresh : Along (step keyRing) FreshKid (.start clock) ls) :
    Orderly keyRing clock ls := by
  have hsound := sound_run hfresh
  have htold := told_run keyRing (told_start clock) ls
  rw [List.nil_append] at htold
  have hn := hsound.kids
  refine ⟨hn, ?_, htold.exactlyOne hn, ?_, ?_, ?_, ?_, ?_, hsound.readers, ?_⟩
  · intro r hr hs r' hr' hs'
    exact htold.atMostOne hn hr hs hr' hs'
  · intro r hr
    have hrec := htold.told r.kid r (find_of_mem hn hr)
    exact ⟨hrec.activatedAt, hrec.retiringAt⟩
  · intro r hr
    exact (htold.told r.kid r (find_of_mem hn hr)).states
  · intro r hr a ha
    exact htold.ordered (find_of_mem hn hr) ha
  · intro r hr τ hτ
    exact htold.replaced (find_of_mem hn hr) hτ
  · intro pre post hls r hr
    rw [hls, along_append] at hfresh
    have hmoves : MovesOn (run (step keyRing) (.start clock) pre).ring.records
        (run (step keyRing) (.start clock) ls).ring.records := by
      rw [hls, run_append]
      exact run_rel (step keyRing) (fun s t => MovesOn s.ring.records t.ring.records)
        (fun s => .refl _) (fun _ _ _ h h' => h.trans h') (movesOn_step keyRing) _ post
    obtain ⟨r', hr', hp, hs⟩ := hmoves r.kid r (find_of_mem (sound_run hfresh.1).kids hr)
    obtain ⟨hmem, hkid⟩ := kid_of_find hr'
    exact ⟨r', hmem, hkid, hp, hs⟩
  · intro pre now op post e hls before he
    show (step keyRing before (now, .op op)).ring = before.ring
    simp only [step, he]

/-- A run that replaces a key and retires it. -/
theorem replaced_orderly :
    Orderly KeyRing.default 0 (replaced ++ [(970, .op (.retire "a"))]) :=
  lifecycle_orderly KeyRing.default 0 _ (by decide +kernel)

end TemisLab.Keyring
