/-
  Refresh lineages, one statement at a time (`tokens.py`, `_invalidate_authorization`). The
  `UPDATE … RETURNING` of `rotate_refresh` and the `INSERT` that follows it are two steps;
  between them any other statements run, on this grant or others, and other transactions change
  users as they like. Each `UPDATE` is atomic and reads its own clock, twice in `rotate_refresh`.

  * `Linear`: a consumed grant keeps its stamp; a rotation consumes one live, unexpired grant of
    an active user and inserts one grant of the same user and audience; no two rotations of one
    token succeed; of the grants that descend from one, at most one is live.
  * `rotations_linear`: every run with fresh tokens is linear.
-/
import Mathlib.Logic.Relation
import TemisLab.Lib.Slots
import TemisLab.Lib.Trace
import TemisLab.Sso.Admin

namespace TemisLab.Sso.Grants

open TemisLab.Lib Relation

/-- The row `rotate_refresh`'s `UPDATE` returns, with the digest of the grant it consumed. -/
structure Taken where
  presented : String
  userId : String
  audience : String
  deriving DecidableEq, Repr

/-- `pending` holds the rotations between `UPDATE` and `INSERT`; `rotations` is the history of
    the finished ones, as the digests of the consumed grant and of its successor. -/
structure State where
  db : Db
  pending : ℕ → Option Taken
  rotations : List (String × String)

def State.start (db : Db) : State := ⟨db, fun _ => none, []⟩

inductive Stmt where
  | issue (userId aud raw : String) (now : Time)
  | rotate (rid : ℕ) (raw : String) (asOf now : Time)
  | successor (rid : ℕ) (new : String) (now : Time)
  | revoke (raw : String) (now : Time)
  | invalidate (userId : String) (now : Time)
  | elsewhere (users : Table User)
  deriving DecidableEq

/-- The row the `UPDATE` of `rotate_refresh` returns. -/
def returning (env : Env) (db : Db) (raw : String) (asOf : Time) : Option Taken :=
  match db.refreshGrants.get (tokenDigest env raw) with
  | none => none
  | some g => if rotatable env db raw asOf g then some ⟨g.digest, g.userId, g.audience⟩ else none

/-- One statement runs. An `INSERT` of a taken digest raises and ends its rotation; fresh tokens
    exclude it, and the rollback is left out. -/
def step (env : Env) (s : State) : Stmt → State
  | .issue userId aud raw now =>
      match issueRefresh env s.db userId aud raw now with
      | none => s
      | some db => { s with db }
  | .rotate rid raw asOf now =>
      match s.pending rid, returning env s.db raw asOf with
      | none, some taken =>
          { s with
            db := s.db.consumeGrants (rotatable env s.db raw asOf) now
            pending := Function.update s.pending rid (some taken) }
      | _, _ => s
  | .successor rid new now =>
      match s.pending rid with
      | none => s
      | some taken =>
          match issueRefresh env s.db taken.userId taken.audience new now with
          | none => { s with pending := Function.update s.pending rid none }
          | some db =>
              { db
                pending := Function.update s.pending rid none
                rotations := (taken.presented, tokenDigest env new) :: s.rotations }
  | .revoke raw now => { s with db := (revokeRefresh env s.db raw now).2 }
  | .invalidate userId now => { s with db := invalidateAuthorization s.db userId now }
  | .elsewhere users => { s with db := { s.db with users } }

/-- A generated token's digest is not on record. -/
def FreshToken (env : Env) (s : State) : Stmt → Prop
  | .issue _ _ raw _ => s.db.refreshGrants.get (tokenDigest env raw) = none
  | .successor _ new _ => s.db.refreshGrants.get (tokenDigest env new) = none
  | _ => True

instance (env : Env) (s : State) (l : Stmt) : Decidable (FreshToken env s l) := by
  unfold FreshToken
  split <;> infer_instance

/-! ## The claims of a run -/

/-- `d'` is `d` or was issued by a chain of rotations that starts at `d`. -/
def Descends (rotations : List (String × String)) : String → String → Prop :=
  ReflTransGen fun d d' => (d, d') ∈ rotations

/-- The grant of a digest is on record and not consumed. -/
def Live (db : Db) (d : String) : Prop :=
  ∃ g, db.refreshGrants.get d = some g ∧ g.isLive = true

/-- In the run of `ls` from `db`. -/
structure Linear (env : Env) (db : Db) (ls : List Stmt) : Prop where
  once : ∀ pre post, ls = pre ++ post → ∀ d g,
    (run (step env) (.start db) pre).db.refreshGrants.get d = some g →
    ∃ g', (run (step env) (.start db) ls).db.refreshGrants.get d = some g' ∧
      g'.userId = g.userId ∧ g'.audience = g.audience ∧ g'.expiresAt = g.expiresAt ∧
      (g.consumedAt ≠ none → g'.consumedAt = g.consumedAt)
  consumes : ∀ pre rid raw asOf now post, ls = pre ++ .rotate rid raw asOf now :: post →
    let before := run (step env) (.start db) pre
    let after := step env before (.rotate rid raw asOf now)
    before.pending rid = none → ∀ taken, after.pending rid = some taken →
      ∃ g ∈ before.db.refreshGrants.rows, g.digest = tokenDigest env raw ∧ g.isLive = true ∧
        asOf < g.expiresAt ∧ before.db.isActive g.userId = true ∧
        taken = ⟨g.digest, g.userId, g.audience⟩ ∧
        after.db.refreshGrants.rows = before.db.refreshGrants.rows.map
          fun h => if h = g then h.consume now else h
  inserts : ∀ pre rid new now post, ls = pre ++ .successor rid new now :: post →
    let before := run (step env) (.start db) pre
    let after := step env before (.successor rid new now)
    ∀ taken, before.pending rid = some taken →
      ∃ g, g.digest = tokenDigest env new ∧ g.userId = taken.userId ∧
        g.audience = taken.audience ∧ g.isLive = true ∧
        after.db.refreshGrants.rows = before.db.refreshGrants.rows ++ [g] ∧
        after.rotations = (taken.presented, g.digest) :: before.rotations ∧
        after.pending rid = none
  single : ∀ pre rid rid' raw raw' asOf asOf' now now' mid post,
    ls = pre ++ .rotate rid raw asOf now :: (mid ++ .rotate rid' raw' asOf' now' :: post) →
    let first := run (step env) (.start db) pre
    let second := run (step env) (.start db) (pre ++ .rotate rid raw asOf now :: mid)
    first.pending rid = none → returning env first.db raw asOf ≠ none →
    returning env second.db raw' asOf' ≠ none → tokenDigest env raw ≠ tokenDigest env raw'
  live : ∀ d₀ d d', Descends (run (step env) (.start db) ls).rotations d₀ d →
    Descends (run (step env) (.start db) ls).rotations d₀ d' →
    Live (run (step env) (.start db) ls).db d → Live (run (step env) (.start db) ls).db d' →
    d = d'

/-! ## What a statement does to the grants -/

/-- Every grant is still there, and a consumed one as it was. -/
def Onward (t t' : Table RefreshGrant) : Prop :=
  ∀ d g, t.get d = some g → ∃ g', t'.get d = some g' ∧ g'.userId = g.userId ∧
    g'.audience = g.audience ∧ g'.expiresAt = g.expiresAt ∧
    (g.consumedAt ≠ none → g'.consumedAt = g.consumedAt)

theorem Onward.refl (t : Table RefreshGrant) : Onward t t :=
  fun _ g hg => ⟨g, hg, rfl, rfl, rfl, fun _ => rfl⟩

theorem Onward.trans {t₁ t₂ t₃ : Table RefreshGrant} (h : Onward t₁ t₂) (h' : Onward t₂ t₃) :
    Onward t₁ t₃ := by
  intro d g hg
  obtain ⟨g₁, hg₁, hu, ha, he, hc⟩ := h d g hg
  obtain ⟨g₂, hg₂, hu', ha', he', hc'⟩ := h' d g₁ hg₁
  refine ⟨g₂, hg₂, hu'.trans hu, ha'.trans ha, he'.trans he, ?_⟩
  intro hne
  have h₁ := hc hne
  rw [hc' (by rw [h₁]; exact hne), h₁]

/-- An `UPDATE` of live grants. -/
theorem onward_consume (db : Db) (p : RefreshGrant → Bool) (now : Time)
    (hp : ∀ g, p g = true → g.isLive = true) :
    Onward db.refreshGrants (db.consumeGrants p now).refreshGrants := by
  intro d g hg
  rw [Db.grant_consumeGrants, hg, Option.map_some]
  by_cases h : p g = true
  · have hlive := hp g h
    refine ⟨g.consume now, by rw [if_pos h], rfl, rfl, rfl, ?_⟩
    intro hne
    exact absurd (by simpa [RefreshGrant.isLive] using hlive) hne
  · exact ⟨g, by rw [if_neg h], rfl, rfl, rfl, fun _ => rfl⟩

theorem onward_insert {t t' : Table RefreshGrant} {g : RefreshGrant} (h : t.insert g = some t') :
    Onward t t' := by
  intro d g' hg'
  have hne : g.digest ≠ d := by
    intro he
    have hnone := (Table.insert_eq_some h).1
    rw [key_refreshGrant, he, hg'] at hnone
    cases hnone
  refine ⟨g', ?_, rfl, rfl, rfl, fun _ => rfl⟩
  rw [Table.get_insert h, key_refreshGrant, if_neg hne]
  exact hg'

theorem onward_issue {env : Env} {db db' : Db} {userId aud raw : String} {now : Time}
    (h : issueRefresh env db userId aud raw now = some db') :
    Onward db.refreshGrants db'.refreshGrants := by
  obtain ⟨grants, g, hi, -, -, -, -, rfl⟩ := issueRefresh_eq_some h
  exact onward_insert hi

theorem onward_step (env : Env) (s : State) (l : Stmt) :
    Onward s.db.refreshGrants (step env s l).db.refreshGrants := by
  cases l with
  | issue userId aud raw now =>
      simp only [step]
      split
      · exact .refl _
      · next db h => exact onward_issue h
  | rotate rid raw asOf now =>
      simp only [step]
      split
      · refine onward_consume s.db _ now ?_
        intro g hg
        simpa [RefreshGrant.isLive] using (rotatable_iff.mp hg).2.1
      · exact .refl _
  | successor rid new now =>
      simp only [step]
      split
      · exact .refl _
      · split
        · exact .refl _
        · next db h => exact onward_issue h
  | revoke raw now =>
      refine onward_consume s.db _ now ?_
      intro g hg
      simp only [Bool.and_eq_true] at hg
      exact hg.2
  | invalidate userId now =>
      refine onward_consume _ _ now ?_
      intro g hg
      simp only [liveGrantOf, Bool.and_eq_true] at hg
      exact hg.2
  | elsewhere users => exact .refl _

theorem onward_run (env : Env) (s : State) (ls : List Stmt) :
    Onward s.db.refreshGrants (run (step env) s ls).db.refreshGrants :=
  run_rel (step env) (fun s t => Onward s.db.refreshGrants t.db.refreshGrants)
    (fun _ => .refl _) (fun _ _ _ h h' => h.trans h') (onward_step env) s ls

/-! ## Rotations -/

/-- The grant the `UPDATE` returns was live and unexpired, of an active user. -/
theorem returning_eq_some {env : Env} {db : Db} {raw : String} {asOf : Time} {taken : Taken}
    (h : returning env db raw asOf = some taken) :
    ∃ g, db.refreshGrants.get (tokenDigest env raw) = some g ∧
      rotatable env db raw asOf g = true ∧ taken = ⟨g.digest, g.userId, g.audience⟩ := by
  unfold returning at h
  split at h
  · cases h
  · next g hg =>
      split at h
      · next hr => exact ⟨g, hg, hr, (Option.some.inj h).symm⟩
      · cases h

/-- The digest is a primary key, so the `UPDATE` writes one row. -/
theorem rows_consume {env : Env} {db : Db} {raw : String} {asOf now : Time} {g : RefreshGrant}
    (hg : db.refreshGrants.get (tokenDigest env raw) = some g)
    (hr : rotatable env db raw asOf g = true) :
    (db.consumeGrants (rotatable env db raw asOf) now).refreshGrants.rows =
      db.refreshGrants.rows.map fun h => if h = g then h.consume now else h := by
  refine List.map_congr_left ?_
  intro h hmem
  by_cases he : h = g
  · rw [if_pos he, he, if_pos hr]
  · have hnot : rotatable env db raw asOf h ≠ true := by
      intro hh
      have hdigest := (rotatable_iff.mp hh).1
      have hget := Table.get_of_mem hmem
      rw [key_refreshGrant, hdigest, hg] at hget
      exact he (Option.some.inj hget).symm
    rw [if_neg he, if_neg hnot]

/-- The consumed grant after the `UPDATE`. -/
theorem get_consume {env : Env} {db : Db} {raw : String} {asOf now : Time} {g : RefreshGrant}
    (hg : db.refreshGrants.get (tokenDigest env raw) = some g)
    (hr : rotatable env db raw asOf g = true) :
    (db.consumeGrants (rotatable env db raw asOf) now).refreshGrants.get (tokenDigest env raw) =
      some (g.consume now) := by
  rw [Db.grant_consumeGrants, hg, Option.map_some, if_pos hr]

/-- A grant that is on record and consumed. -/
def Spent (db : Db) (d : String) : Prop :=
  ∃ g, db.refreshGrants.get d = some g ∧ g.consumedAt ≠ none

theorem Spent.onward {db db' : Db} {d : String} (h : Spent db d)
    (ho : Onward db.refreshGrants db'.refreshGrants) : Spent db' d := by
  obtain ⟨g, hg, hc⟩ := h
  obtain ⟨g', hg', -, -, -, hc'⟩ := ho d g hg
  exact ⟨g', hg', by rw [hc' hc]; exact hc⟩

theorem Spent.not_live {db : Db} {d : String} (h : Spent db d) : ¬ Live db d := by
  intro hl
  obtain ⟨g, hg, hc⟩ := h
  obtain ⟨g', hg', hlive⟩ := hl
  rw [hg] at hg'
  cases hg'
  exact hc (by simpa [RefreshGrant.isLive] using hlive)

/-- A spent grant is not returned again. -/
theorem Spent.returning {env : Env} {db : Db} {raw : String} (h : Spent db (tokenDigest env raw))
    (asOf : Time) : returning env db raw asOf = none := by
  cases hret : Grants.returning env db raw asOf with
  | none => rfl
  | some taken =>
      obtain ⟨g, hg, hr, -⟩ := returning_eq_some hret
      have hlive : Live db (tokenDigest env raw) :=
        ⟨g, hg, by simpa [RefreshGrant.isLive] using (rotatable_iff.mp hr).2.1⟩
      exact absurd hlive h.not_live

/-- What a rotation has consumed is spent, and each grant was consumed by one. -/
structure OneByOne (s : State) : Prop where
  finished : ∀ p ∈ s.rotations, Spent s.db p.1
  unfinished : ∀ rid taken, s.pending rid = some taken → Spent s.db taken.presented
  apart : ∀ rid taken, s.pending rid = some taken → ∀ p ∈ s.rotations, p.1 ≠ taken.presented
  alone : ∀ rid taken rid' taken', s.pending rid = some taken → s.pending rid' = some taken' →
    taken.presented = taken'.presented → rid = rid'
  once : (s.rotations.map Prod.fst).Nodup

theorem oneByOne_start (db : Db) : OneByOne (.start db) :=
  ⟨by simp [State.start], by simp [State.start], by simp [State.start], by simp [State.start],
    List.nodup_nil⟩

/-- Statements that end no rotation and begin none. -/
theorem OneByOne.onward {s : State} (h : OneByOne s) {db : Db}
    (ho : Onward s.db.refreshGrants db.refreshGrants) : OneByOne { s with db } :=
  ⟨fun p hp => (h.finished p hp).onward ho,
    fun rid taken ht => (h.unfinished rid taken ht).onward ho,
    h.apart, h.alone, h.once⟩

/-- A rotation takes a live grant, which no other has taken. -/
theorem OneByOne.rotate {s : State} (h : OneByOne s) {db : Db} {rid : ℕ} {taken : Taken}
    (ho : Onward s.db.refreshGrants db.refreshGrants) (hlive : Live s.db taken.presented)
    (hspent : Spent db taken.presented) :
    OneByOne { s with db, pending := Function.update s.pending rid (some taken) } := by
  have hother : ∀ rid' taken', s.pending rid' = some taken' →
      taken'.presented ≠ taken.presented := by
    intro rid' taken' ht he
    have hs := h.unfinished rid' taken' ht
    rw [he] at hs
    exact hs.not_live hlive
  refine ⟨fun p hp => (h.finished p hp).onward ho, ?_, ?_, ?_, h.once⟩
  · intro rid' taken' ht
    rcases slot_set ht with ⟨-, ht⟩ | ⟨-, rfl⟩
    · exact (h.unfinished rid' taken' ht).onward ho
    · exact hspent
  · intro rid' taken' ht p hp
    rcases slot_set ht with ⟨-, ht⟩ | ⟨-, rfl⟩
    · exact h.apart rid' taken' ht p hp
    · intro he
      have hs := h.finished p hp
      rw [he] at hs
      exact hs.not_live hlive
  · intro rid₁ taken₁ rid₂ taken₂ h₁ h₂ he
    rcases slot_set h₁ with ⟨-, hw₁⟩ | ⟨hr₁, rfl⟩
    · rcases slot_set h₂ with ⟨-, hw₂⟩ | ⟨-, rfl⟩
      · exact h.alone rid₁ taken₁ rid₂ taken₂ hw₁ hw₂ he
      · exact absurd he (hother rid₁ taken₁ hw₁)
    · rcases slot_set h₂ with ⟨-, hw₂⟩ | ⟨hr₂, -⟩
      · exact absurd he.symm (hother rid₂ taken₂ hw₂)
      · rw [hr₁, hr₂]

theorem OneByOne.successor {s : State} (h : OneByOne s) {db : Db} {rid : ℕ} {taken : Taken}
    (hp : s.pending rid = some taken) (ho : Onward s.db.refreshGrants db.refreshGrants)
    (d : String) :
    OneByOne ⟨db, Function.update s.pending rid none, (taken.presented, d) :: s.rotations⟩ := by
  refine ⟨?_, ?_, ?_, ?_, ?_⟩
  · intro p hp'
    rcases List.mem_cons.mp hp' with rfl | hp'
    · exact (h.unfinished rid taken hp).onward ho
    · exact (h.finished p hp').onward ho
  · intro rid' taken' ht
    exact (h.unfinished rid' taken' (slot_clear ht).2).onward ho
  · intro rid' taken' ht p hp'
    obtain ⟨hne, ht⟩ := slot_clear ht
    rcases List.mem_cons.mp hp' with rfl | hp'
    · intro he
      exact hne (h.alone rid' taken' rid taken ht hp he.symm)
    · exact h.apart rid' taken' ht p hp'
  · intro rid₁ taken₁ rid₂ taken₂ h₁ h₂ he
    exact h.alone rid₁ taken₁ rid₂ taken₂ (slot_clear h₁).2 (slot_clear h₂).2 he
  · rw [List.map_cons, List.nodup_cons]
    refine ⟨?_, h.once⟩
    intro hmem
    obtain ⟨p, hp', he⟩ := List.mem_map.mp hmem
    exact h.apart rid taken hp p hp' he

theorem oneByOne_step (env : Env) (s : State) (l : Stmt) (h : OneByOne s) :
    OneByOne (step env s l) := by
  have ho := onward_step env s l
  cases l with
  | issue userId aud raw now =>
      simp only [step] at ho ⊢
      split
      · exact h
      · next db hi =>
          rw [hi] at ho
          exact h.onward ho
  | rotate rid raw asOf now =>
      simp only [step] at ho ⊢
      split
      · next taken hp hret =>
          obtain ⟨g, hg, hr, rfl⟩ := returning_eq_some hret
          have hdigest := (rotatable_iff.mp hr).1
          rw [hp, hret] at ho
          refine h.rotate ho ⟨g, ?_, ?_⟩ ⟨g.consume now, ?_, ?_⟩
          · rw [hdigest]
            exact hg
          · simpa [RefreshGrant.isLive] using (rotatable_iff.mp hr).2.1
          · rw [hdigest]
            exact get_consume hg hr
          · simp [RefreshGrant.consume]
      · exact h
  | successor rid new now =>
      simp only [step] at ho ⊢
      split
      · exact h
      · next taken hp =>
          simp only [hp] at ho
          split
          · refine ⟨h.finished, ?_, ?_, ?_, h.once⟩
            · intro rid' taken' ht
              exact h.unfinished rid' taken' (slot_clear ht).2
            · intro rid' taken' ht
              exact h.apart rid' taken' (slot_clear ht).2
            · intro rid₁ taken₁ rid₂ taken₂ h₁ h₂
              exact h.alone rid₁ taken₁ rid₂ taken₂ (slot_clear h₁).2 (slot_clear h₂).2
          · next db hi =>
              rw [hi] at ho
              exact h.successor hp ho _
  | revoke raw now => exact h.onward ho
  | invalidate userId now => exact h.onward ho
  | elsewhere users => exact h.onward ho

theorem oneByOne_run (env : Env) (db : Db) (ls : List Stmt) :
    OneByOne (run (step env) (.start db) ls) :=
  run_always (step env) OneByOne (oneByOne_step env) (oneByOne_start db) ls

/-- A grant has one successor at most. -/
theorem OneByOne.rightUnique {s : State} (h : OneByOne s) :
    Relator.RightUnique fun d d' => (d, d') ∈ s.rotations := by
  intro d d₁ d₂ h₁ h₂
  have heq := List.inj_on_of_nodup_map h.once h₁ h₂ rfl
  exact congrArg Prod.snd heq

/-- A live grant has none. -/
theorem OneByOne.last {s : State} (h : OneByOne s) {d d' : String} (hlive : Live s.db d)
    (hd : Descends s.rotations d d') : d' = d := by
  rcases hd.cases_head with he | ⟨c, hc, -⟩
  · exact he.symm
  · exact absurd hlive (h.finished (d, c) hc).not_live

/-- Of the descendants of one grant, at most one is live. -/
theorem OneByOne.live {s : State} (h : OneByOne s) {d₀ d d' : String}
    (hd : Descends s.rotations d₀ d) (hd' : Descends s.rotations d₀ d') (hl : Live s.db d)
    (hl' : Live s.db d') : d = d' := by
  rcases ReflTransGen.total_of_right_unique h.rightUnique hd hd' with hdd | hdd
  · exact (h.last hl hdd).symm
  · exact h.last hl' hdd

/-! ## Runs -/

/-- After the `UPDATE` of a rotation that returned a row, its grant is spent. -/
theorem spent_rotate {env : Env} {s : State} {rid : ℕ} {raw : String} {asOf now : Time}
    (hfree : s.pending rid = none) (hret : returning env s.db raw asOf ≠ none) :
    Spent (step env s (.rotate rid raw asOf now)).db (tokenDigest env raw) := by
  obtain ⟨taken, ht⟩ := Option.ne_none_iff_exists'.mp hret
  obtain ⟨g, hg, hr, -⟩ := returning_eq_some ht
  refine ⟨g.consume now, ?_, by simp [RefreshGrant.consume]⟩
  simp only [step, hfree, ht]
  exact get_consume hg hr

/-- Refresh lineages are linear in every run with fresh tokens. -/
theorem rotations_linear (env : Env) (db : Db) (ls : List Stmt)
    (hfresh : Along (step env) (FreshToken env) (.start db) ls) : Linear env db ls := by
  have hinv := oneByOne_run env db ls
  refine ⟨?_, ?_, ?_, ?_, fun d₀ d d' hd hd' hl hl' => hinv.live hd hd' hl hl'⟩
  · intro pre post hls d g hg
    rw [hls, run_append]
    exact onward_run env _ post d g hg
  · intro pre rid raw asOf now post hls before after hfree taken htaken
    cases hret : returning env before.db raw asOf with
    | none =>
        simp only [after, step, hfree, hret] at htaken
        cases htaken
    | some taken' =>
        obtain ⟨g, hg, hr, rfl⟩ := returning_eq_some hret
        simp only [after, step, hfree, hret, Function.update_self, Option.some.injEq] at htaken ⊢
        obtain ⟨hdigest, hlive, hexp, hactive⟩ := rotatable_iff.mp hr
        exact ⟨g, (Table.mem_of_get hg).1, hdigest, by simp [RefreshGrant.isLive, hlive], hexp,
          hactive, htaken.symm, rows_consume hg hr⟩
  · intro pre rid new now post hls before after taken htaken
    rw [hls] at hfresh
    have hnone : before.db.refreshGrants.get (tokenDigest env new) = none := hfresh.at
    cases hi : issueRefresh env before.db taken.userId taken.audience new now with
    | none =>
        obtain ⟨g, hg⟩ := Table.insert_eq_none.mp (Option.map_eq_none_iff.mp hi)
        rw [key_refreshGrant, hnone] at hg
        cases hg
    | some db' =>
        obtain ⟨grants, g, hins, hd, hu, ha, hc, rfl⟩ := issueRefresh_eq_some hi
        refine ⟨g, hd, hu, ha, by simp [RefreshGrant.isLive, hc], ?_⟩
        simp only [after, step, htaken, hi, Function.update_self, hd, and_true]
        exact (Table.insert_eq_some hins).2
  · intro pre rid rid' raw raw' asOf asOf' now now' mid post hls first second hfree hret hret' he
    have hspent : Spent second.db (tokenDigest env raw) := by
      have hrun : second = run (step env) (step env first (.rotate rid raw asOf now)) mid := by
        show run (step env) (.start db) (pre ++ .rotate rid raw asOf now :: mid) = _
        rw [run_append, run_cons]
      rw [hrun]
      exact (spent_rotate hfree hret).onward (onward_run env _ mid)
    rw [he] at hspent
    exact hret' (hspent.returning asOf')

/-- Two rotations of one token and a logout at once. -/
theorem raced_linear : Linear plainEnv (setStatus
      { Db.empty with users := (Table.empty.merge ⟨"u", "u", none, .pending, 1, 0, none⟩) }
      "u" .active)
    [.issue "u" audience "g1" 0, .rotate 1 "g1" 1 1, .rotate 2 "g1" 1 1, .successor 1 "g2" 1,
     .revoke "g1" 2, .successor 2 "g3" 2, .rotate 3 "g2" 3 3, .invalidate "u" 3,
     .successor 3 "g4" 3] :=
  rotations_linear plainEnv _ _ (by decide +kernel)

end TemisLab.Sso.Grants
