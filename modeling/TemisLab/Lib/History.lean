/-
  Calls in a serial order. `spec` says what a call returns and leaves when nobody disturbs it. A
  system that runs calls at once keeps `Explained`: the calls that have ended are, in some order
  and with what they returned, a serial run from the first store to the last one, which passes
  through every store that was ever seen.

  * `Explained.read`: a call that changes nothing in a store that was seen has its place there.
  * `Explained.write`: a call that takes effect on the last store has its place at the end.
-/
import Mathlib.Data.List.Basic
import Mathlib.Data.List.Perm.Basic

namespace TemisLab.Lib

variable {σ κ ο : Type*} (spec : κ → σ → ο × σ)

/-- The calls `hs` lead from `s` to `t`, one after the other and with these results. -/
def Serial : σ → List (κ × ο) → σ → Prop
  | s, [], t => t = s
  | s, (c, o) :: hs, t => (spec c s).1 = o ∧ Serial (spec c s).2 hs t

/-- A serial run from `s` along `hs` passes through `u`. -/
def Visits (s : σ) (hs : List (κ × ο)) (u : σ) : Prop :=
  ∃ pre post, hs = pre ++ post ∧ Serial spec s pre u

/-- Some order of the calls `done` explains what they returned and the store `t`. -/
def Serializable (s : σ) (done : List (κ × ο)) (t : σ) : Prop :=
  ∃ hs, hs.Perm done ∧ Serial spec s hs t

/-- The order also passes through the stores of `past`. -/
def Explained (s : σ) (done : List (κ × ο)) (past : List σ) (t : σ) : Prop :=
  ∃ hs, hs.Perm done ∧ Serial spec s hs t ∧ ∀ u ∈ past, Visits spec s hs u

variable {spec} {s t u v : σ} {c : κ} {o : ο} {hs hs' done : List (κ × ο)} {past : List σ}

theorem serial_append : Serial spec s (hs ++ hs') t ↔
    ∃ u, Serial spec s hs u ∧ Serial spec u hs' t := by
  induction hs generalizing s with
  | nil =>
      refine ⟨fun h => ⟨s, rfl, h⟩, ?_⟩
      rintro ⟨u, rfl, h⟩
      exact h
  | cons h hs ih =>
      obtain ⟨c, o⟩ := h
      rw [List.cons_append, Serial, ih]
      refine ⟨?_, ?_⟩
      · rintro ⟨ho, u, hu, ht⟩
        exact ⟨u, ⟨ho, hu⟩, ht⟩
      · rintro ⟨u, ⟨ho, hu⟩, ht⟩
        exact ⟨ho, u, hu, ht⟩

/-- The store after a serial run is determined. -/
theorem Serial.unique (h : Serial spec s hs t) (h' : Serial spec s hs u) : t = u := by
  induction hs generalizing s with
  | nil => exact h.trans h'.symm
  | cons c hs ih => exact ih h.2 h'.2

theorem visits_last (h : Serial spec s hs t) : Visits spec s hs t :=
  ⟨hs, [], (List.append_nil hs).symm, h⟩

theorem Visits.append (h : Visits spec s hs u) (hs' : List (κ × ο)) :
    Visits spec s (hs ++ hs') u := by
  obtain ⟨pre, post, rfl, hu⟩ := h
  exact ⟨pre, post ++ hs', List.append_assoc .., hu⟩

/-- A call that changes nothing where it is put leaves what the run passes through. -/
theorem Visits.insert {pre post : List (κ × ο)} (hu : Serial spec s pre u)
    (hc : spec c u = (o, u)) (h : Visits spec s (pre ++ post) v) :
    Visits spec s (pre ++ (c, o) :: post) v := by
  obtain ⟨pre', post', he, hv⟩ := h
  rcases List.append_eq_append_iff.mp he with ⟨mid, rfl, rfl⟩ | ⟨mid, rfl, rfl⟩
  · -- the visited store comes after the new call
    obtain ⟨w, hw, hmid⟩ := serial_append.mp hv
    rw [hw.unique hu] at hmid
    refine ⟨pre ++ (c, o) :: mid, post', by simp, serial_append.mpr ⟨u, hu, ?_⟩⟩
    rw [Serial, hc]
    exact ⟨rfl, hmid⟩
  · exact ⟨pre', mid ++ (c, o) :: post, by simp, hv⟩

theorem explained_start : Explained spec s [] [s] s := by
  refine ⟨[], List.Perm.nil, rfl, ?_⟩
  intro u hu
  rw [List.mem_singleton.mp hu]
  exact visits_last rfl

theorem Explained.serializable (h : Explained spec s done past t) : Serializable spec s done t := by
  obtain ⟨hs, hperm, hserial, -⟩ := h
  exact ⟨hs, hperm, hserial⟩

theorem Explained.read (h : Explained spec s done past t) (hu : u ∈ past)
    (hc : spec c u = (o, u)) : Explained spec s ((c, o) :: done) past t := by
  obtain ⟨hs, hperm, hserial, hpast⟩ := h
  obtain ⟨pre, post, rfl, hpre⟩ := hpast u hu
  obtain ⟨w, hw, hpost⟩ := serial_append.mp hserial
  rw [hw.unique hpre] at hpost
  refine ⟨pre ++ (c, o) :: post, List.perm_middle.trans (hperm.cons _), ?_, ?_⟩
  · refine serial_append.mpr ⟨u, hpre, ?_⟩
    rw [Serial, hc]
    exact ⟨rfl, hpost⟩
  · exact fun v hv => (hpast v hv).insert hpre hc

theorem Explained.write (h : Explained spec s done past t) (hc : spec c t = (o, u)) :
    Explained spec s ((c, o) :: done) (u :: past) u := by
  obtain ⟨hs, hperm, hserial, hpast⟩ := h
  have hlast : Serial spec s (hs ++ [(c, o)]) u := by
    refine serial_append.mpr ⟨t, hserial, ?_⟩
    rw [Serial, hc]
    exact ⟨rfl, rfl⟩
  refine ⟨hs ++ [(c, o)], (List.perm_append_singleton _ hs).trans (hperm.cons _), hlast, ?_⟩
  intro v hv
  rcases List.mem_cons.mp hv with rfl | hv
  · exact visits_last hlast
  · exact (hpast v hv).append _

end TemisLab.Lib
