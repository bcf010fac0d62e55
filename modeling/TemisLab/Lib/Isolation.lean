/-
  Transactions under READ COMMITTED, one statement at a time. A transaction is a value `τ` that
  holds everything it has read and the writes it has not committed; its next statement sees the
  committed data of that moment (`Engine.move`). Row locks are exclusive and held to the end: a
  statement that needs a lock another transaction holds does not run, and reads afresh when it
  does. Writes become visible together, at the commit.

  `Engine.Keeps` is a rely-guarantee rule. An invariant `I` of one transaction, over the
  committed data and the locks it holds, is kept by its own statements and by the commits of
  transactions that hold other locks; an invariant `G` of the committed data is kept by commits.
  `Engine.Keeps.run` concludes that both hold after every run. A transaction that is alone is never
  blocked (`Engine.step_goesOn`).
-/
import Mathlib.Logic.Function.Basic
import TemisLab.Lib.Trace

namespace TemisLab.Lib

variable {γ τ δ κ ο ι : Type*}

/-- What the next statement of a transaction does: it raises, it goes on, it goes on once it
    holds a row lock, or it commits. -/
inductive Move (δ τ κ ο : Type*) where
  | fail
  | next (t : τ)
  | lock (k : κ) (t : τ)
  | commit (db : δ) (out : Option ο)

/-- How the transaction goes on: with which further lock, and as what. -/
def Move.goesOn : Move δ τ κ ο → Option (Option κ × τ)
  | .next t => some (none, t)
  | .lock k t => some (some k, t)
  | _ => none

/-- How calls begin and what their transactions do. `none` is a call refused before its
    transaction begins; `ι` is what a statement reads besides the data. -/
structure Engine (γ τ δ κ ο ι : Type*) where
  begin : γ → Option τ
  move : ι → δ → τ → Move δ τ κ ο

/-- The committed data, the open transactions, the owners of the row locks, and what the
    committed transactions returned. -/
structure World (δ τ κ ο : Type*) where
  db : δ
  txns : ℕ → Option τ
  locks : κ → Option ℕ
  out : List ο

namespace World

/-- No transaction is open and nothing has been returned. -/
def start (db : δ) : World δ τ κ ο := ⟨db, fun _ => none, fun _ => none, []⟩

/-- The locks a transaction holds. -/
def held (s : World δ τ κ ο) (tid : ℕ) (k : κ) : Prop := s.locks k = some tid

/-- A transaction goes on. -/
def put (s : World δ τ κ ο) (tid : ℕ) (t : τ) : World δ τ κ ο :=
  { s with txns := Function.update s.txns tid (some t) }

/-- A transaction takes a row lock. -/
def grab [DecidableEq κ] (s : World δ τ κ ο) (tid : ℕ) (k : κ) : World δ τ κ ο :=
  { s with locks := Function.update s.locks k (some tid) }

/-- The end of a transaction releases its locks. -/
def close (s : World δ τ κ ο) (tid : ℕ) : World δ τ κ ο :=
  { s with
    txns := Function.update s.txns tid none
    locks := fun k => if s.locks k = some tid then none else s.locks k }

/-- No transaction is open and no row is locked. -/
structure Quiet (s : World δ τ κ ο) : Prop where
  txns : ∀ tid, s.txns tid = none
  locks : ∀ k, s.locks k = none

/-- No transaction but `tid` is open or holds a lock. -/
structure Alone (s : World δ τ κ ο) (tid : ℕ) : Prop where
  txns : ∀ tid', tid' ≠ tid → s.txns tid' = none
  locks : ∀ k, s.locks k = none ∨ s.locks k = some tid

theorem quiet_start (db : δ) : (start db : World δ τ κ ο).Quiet := ⟨fun _ => rfl, fun _ => rfl⟩

theorem txns_put {s : World δ τ κ ο} {tid tid' : ℕ} {t : τ} :
    (s.put tid t).txns tid' = if tid' = tid then some t else s.txns tid' := by
  by_cases h : tid' = tid <;> simp [put, h]

theorem txns_close {s : World δ τ κ ο} {tid tid' : ℕ} :
    (s.close tid).txns tid' = if tid' = tid then none else s.txns tid' := by
  by_cases h : tid' = tid <;> simp [close, h]

theorem held_grab [DecidableEq κ] {s : World δ τ κ ο} {tid tid' : ℕ} {k k' : κ} :
    (s.grab tid k).held tid' k' ↔ if k' = k then tid' = tid else s.held tid' k' := by
  by_cases h : k' = k <;> simp [grab, held, h, eq_comm]

theorem held_close {s : World δ τ κ ο} {tid tid' : ℕ} {k : κ} :
    (s.close tid).held tid' k ↔ tid' ≠ tid ∧ s.held tid' k := by
  simp only [close, held]
  by_cases h : s.locks k = some tid
  · rw [if_pos h, h]
    simp only [reduceCtorEq, Option.some.injEq, false_iff]
    intro hand
    exact hand.1 hand.2.symm
  · rw [if_neg h]
    refine ⟨fun hk => ⟨?_, hk⟩, fun hk => hk.2⟩
    intro he
    exact h (he ▸ hk)

variable {s : World δ τ κ ο} {tid : ℕ}

theorem Quiet.alone (h : s.Quiet) (tid : ℕ) : s.Alone tid :=
  ⟨fun tid' _ => h.txns tid', fun k => .inl (h.locks k)⟩

theorem Alone.put (h : s.Alone tid) (t : τ) : (s.put tid t).Alone tid := by
  refine ⟨?_, h.locks⟩
  intro tid' hne
  rw [txns_put, if_neg hne]
  exact h.txns tid' hne

theorem Alone.grab [DecidableEq κ] (h : s.Alone tid) (k : κ) : (s.grab tid k).Alone tid := by
  refine ⟨h.txns, ?_⟩
  intro k'
  by_cases hk : k' = k
  · exact .inr (by simp [World.grab, hk])
  · rw [show (s.grab tid k).locks k' = s.locks k' from Function.update_of_ne hk ..]
    exact h.locks k'

/-- With its transaction nothing is left. -/
theorem Alone.close (h : s.Alone tid) : (s.close tid).Quiet := by
  refine ⟨?_, ?_⟩
  · intro tid'
    rw [txns_close]
    split
    · rfl
    · next hne => exact h.txns tid' hne
  · intro k
    rcases h.locks k with hk | hk <;> simp [World.close, hk]

end World

/-- A call begins, an open transaction tries its next statement, or it is rolled back. -/
inductive Event (γ ι : Type*) where
  | start (tid : ℕ) (call : γ)
  | stmt (tid : ℕ) (i : ι)
  | abort (tid : ℕ)
  deriving DecidableEq, Repr

namespace Engine

/-- One event. A blocked statement, and one of no open transaction, change nothing. -/
def step [DecidableEq κ] (E : Engine γ τ δ κ ο ι) (s : World δ τ κ ο) :
    Event γ ι → World δ τ κ ο
  | .start tid call =>
      match s.txns tid, E.begin call with
      | none, some t => s.put tid t
      | _, _ => s
  | .stmt tid i =>
      match s.txns tid with
      | none => s
      | some t =>
          match E.move i s.db t with
          | .fail => s.close tid
          | .next t' => s.put tid t'
          | .lock k t' =>
              if s.locks k = none ∨ s.locks k = some tid then (s.grab tid k).put tid t' else s
          | .commit db out => { s.close tid with db, out := out.toList ++ s.out }
  | .abort tid => s.close tid

section Moves

variable [DecidableEq κ] {E : Engine γ τ δ κ ο ι} {s : World δ τ κ ο} {tid : ℕ} {i : ι} {t : τ}

theorem step_start {c : γ} (ht : s.txns tid = none) (hb : E.begin c = some t) :
    E.step s (.start tid c) = s.put tid t := by
  simp only [step, ht, hb]

theorem step_refused {c : γ} (hb : E.begin c = none) : E.step s (.start tid c) = s := by
  simp only [step, hb]
  cases s.txns tid <;> rfl

theorem step_closed (ht : s.txns tid = none) : E.step s (.stmt tid i) = s := by
  simp only [step, ht]

theorem step_fail (ht : s.txns tid = some t) (hm : E.move i s.db t = .fail) :
    E.step s (.stmt tid i) = s.close tid := by
  simp only [step, ht, hm]

theorem step_commit (ht : s.txns tid = some t) {db : δ} {out : Option ο}
    (hm : E.move i s.db t = .commit db out) :
    E.step s (.stmt tid i) = { s.close tid with db, out := out.toList ++ s.out } := by
  simp only [step, ht, hm]

/-- A transaction that goes on while it is alone: every lock it may need is free or its own. -/
theorem step_goesOn (ht : s.txns tid = some t) {k : Option κ} {t' : τ}
    (hm : (E.move i s.db t).goesOn = some (k, t')) (h : s.Alone tid) :
    ∃ s', E.step s (.stmt tid i) = s' ∧ s'.db = s.db ∧ s'.out = s.out ∧
      s'.txns tid = some t' ∧ s'.Alone tid := by
  refine ⟨_, rfl, ?_⟩
  cases hmove : E.move i s.db t with
  | fail =>
      rw [hmove] at hm
      cases hm
  | commit db out =>
      rw [hmove] at hm
      cases hm
  | next t₁ =>
      rw [hmove] at hm
      cases hm
      simp only [step, ht, hmove]
      exact ⟨rfl, rfl, Function.update_self .., h.put t'⟩
  | lock k₁ t₁ =>
      rw [hmove] at hm
      cases hm
      simp only [step, ht, hmove, if_pos (h.locks k₁)]
      exact ⟨rfl, rfl, Function.update_self .., (h.grab k₁).put t'⟩

end Moves

/-- `G` of the committed data and `I` of each open transaction are kept, by the statements that
    meet `Q`. -/
structure Keeps (E : Engine γ τ δ κ ο ι) (G : δ → List ο → Prop)
    (I : δ → (κ → Prop) → τ → Prop) (Q : World δ τ κ ο → Event γ ι → Prop) : Prop where
  begins : ∀ db c t, E.begin c = some t → I db (fun _ => False) t
  goes : ∀ s tid i t k t', Q s (.stmt tid i) → s.txns tid = some t → I s.db (s.held tid) t →
    (E.move i s.db t).goesOn = some (k, t') →
    (∀ k', k = some k' → s.locks k' = none ∨ s.locks k' = some tid) →
    I s.db (fun k' => k = some k' ∨ s.held tid k') t'
  commit : ∀ s tid i t db out, Q s (.stmt tid i) → s.txns tid = some t → G s.db s.out →
    I s.db (s.held tid) t → E.move i s.db t = .commit db out → G db (out.toList ++ s.out)
  stable : ∀ s tid i t db out H t', Q s (.stmt tid i) → s.txns tid = some t →
    I s.db (s.held tid) t → E.move i s.db t = .commit db out → (∀ k, H k → ¬ s.held tid k) →
    I s.db H t' → I db H t'

/-- The state the rule keeps: the two invariants, and locks of open transactions only. -/
structure Sound (G : δ → List ο → Prop) (I : δ → (κ → Prop) → τ → Prop)
    (s : World δ τ κ ο) : Prop where
  committed : G s.db s.out
  txns : ∀ tid t, s.txns tid = some t → I s.db (s.held tid) t
  locks : ∀ tid k, s.locks k = some tid → s.txns tid ≠ none

variable {E : Engine γ τ δ κ ο ι} {G : δ → List ο → Prop} {I : δ → (κ → Prop) → τ → Prop}
  {Q : World δ τ κ ο → Event γ ι → Prop}

theorem sound_start {db : δ} (h : G db []) : Sound G I (World.start db : World δ τ κ ο) := by
  refine ⟨h, ?_, ?_⟩
  · intro tid t ht
    cases ht
  · intro tid k hk
    cases hk

/-- A transaction ends: the others keep their locks. -/
theorem Sound.close {s : World δ τ κ ο} (h : Sound G I s) (tid : ℕ) :
    Sound G I (s.close tid) := by
  refine ⟨h.committed, ?_, ?_⟩
  · intro tid' t ht
    rw [World.txns_close] at ht
    split at ht
    · cases ht
    · next hne =>
        have hheld : (s.close tid).held tid' = s.held tid' := by
          funext k
          rw [World.held_close]
          simp [hne]
        rw [hheld]
        exact h.txns tid' t ht
  · intro tid' k hk
    obtain ⟨hne, hk⟩ := World.held_close.mp hk
    rw [World.txns_close, if_neg hne]
    exact h.locks tid' k hk

/-- The same transaction goes on, with the same locks. -/
theorem Sound.put {s : World δ τ κ ο} (h : Sound G I s) {tid : ℕ} {t' : τ}
    (ht' : I s.db (s.held tid) t') : Sound G I (s.put tid t') := by
  refine ⟨h.committed, ?_, ?_⟩
  · intro tid' t ht
    rw [World.txns_put] at ht
    split at ht
    · next he =>
        rw [← Option.some.inj ht, he]
        exact ht'
    · exact h.txns tid' t ht
  · intro tid' k hk
    rw [World.txns_put]
    split
    · simp
    · exact h.locks tid' k hk

/-- It goes on with one more lock, which no other transaction holds. -/
theorem Sound.grab [DecidableEq κ] {s : World δ τ κ ο} (h : Sound G I s) {tid : ℕ} {k : κ} {t' : τ}
    (hk : s.locks k = none ∨ s.locks k = some tid)
    (ht' : I s.db (fun k' => some k = some k' ∨ s.held tid k') t') :
    Sound G I ((s.grab tid k).put tid t') := by
  have hmine : ((s.grab tid k).put tid t').held tid =
      fun k' => some k = some k' ∨ s.held tid k' := by
    funext k'
    refine propext (World.held_grab.trans ?_)
    by_cases hk' : k' = k <;> simp [hk', eq_comm (a := k)]
  have hother : ∀ tid', tid' ≠ tid → ((s.grab tid k).put tid t').held tid' = s.held tid' := by
    intro tid' hne
    funext k'
    refine propext (World.held_grab.trans ?_)
    by_cases hk' : k' = k
    · subst hk'
      rcases hk with hk | hk <;> simp [World.held, hk, hne, Ne.symm hne]
    · rw [if_neg hk']
  refine ⟨h.committed, ?_, ?_⟩
  · intro tid' t ht
    rw [World.txns_put] at ht
    split at ht
    · next he =>
        rw [← Option.some.inj ht, he, hmine]
        exact ht'
    · next hne =>
        rw [hother tid' hne]
        exact h.txns tid' t ht
  · intro tid' k' hk'
    rw [World.txns_put]
    split
    · simp
    · next hne =>
        have hheld : s.held tid' k' := by
          rw [← hother tid' hne]
          exact hk'
        exact h.locks tid' k' hheld

/-- One event keeps both invariants. -/
theorem Keeps.step [DecidableEq κ] (hE : E.Keeps G I Q) (s : World δ τ κ ο) (e : Event γ ι)
    (h : Sound G I s) (hq : Q s e) : Sound G I (E.step s e) := by
  cases e with
  | start tid call =>
      simp only [Engine.step]
      split
      · next t hn hb =>
          refine h.put ?_
          have hheld : s.held tid = fun _ => False := by
            funext k
            exact eq_false fun hk => h.locks tid k hk hn
          rw [hheld]
          exact hE.begins s.db call t hb
      · exact h
  | stmt tid i =>
      simp only [Engine.step]
      split
      · exact h
      · next t ht =>
          have hI := h.txns tid t ht
          split
          · exact h.close tid
          · next t' hm =>
              have hgo := hE.goes s tid i t none t' hq ht hI (by rw [hm]; rfl) (by simp)
              simp only [reduceCtorEq, false_or] at hgo
              exact h.put hgo
          · next k t' hm =>
              split
              · next hk =>
                  refine h.grab hk (hE.goes s tid i t (some k) t' hq ht hI (by rw [hm]; rfl) ?_)
                  intro k' hk'
                  rw [← Option.some.inj hk']
                  exact hk
              · exact h
          · next db out hm =>
              -- the commit changes the data under the transactions that are still open
              have hclosed := h.close tid
              refine ⟨hE.commit s tid i t db out hq ht h.committed hI hm, ?_, hclosed.locks⟩
              intro tid' t' ht'
              refine hE.stable s tid i t db out _ t' hq ht hI hm ?_ (hclosed.txns tid' t' ht')
              intro k hk hk'
              have hk := World.held_close.mp hk
              exact hk.1 (Option.some.inj (hk.2.symm.trans hk'))
  | abort tid => exact h.close tid

/-- Both invariants hold after every run whose statements meet `Q`. -/
theorem Keeps.run [DecidableEq κ] (hE : E.Keeps G I Q) {db : δ} (h0 : G db [])
    {es : List (Event γ ι)} (hq : Along E.step Q (World.start db) es) :
    Sound G I (Lib.run E.step (World.start db) es) :=
  run_invariant E.step (Sound G I) hE.step (sound_start h0) hq

end Engine

end TemisLab.Lib
