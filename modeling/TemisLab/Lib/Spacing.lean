/-
  Events that keep a distance in time. Times are listed newest first.

  `Spaced d` says that two events are at least `d` apart.
  * `spaced_cons`: a new event keeps the distance if it keeps it from the last one.
  * `Spaced.window`: a window of length `w` holds at most `w / d + 1` events.

  A log holds failures and resets. `Throttled k d` says that a failure comes `d` after the last one,
  once there have been `k` since the last reset.
  * `Throttled.window`: a window of length `w` without a reset holds at most `k + w / d` failures.
-/
import Mathlib.Algebra.Order.Field.Basic
import Mathlib.Algebra.Order.Floor.Semiring
import Mathlib.Data.List.Pairwise
import Mathlib.Tactic.Linarith
import Mathlib.Tactic.Ring

namespace TemisLab.Lib

variable {α : Type*} [Field α] [LinearOrder α] {d a b : α} {ts : List α}

/-- The times `ts`, newest first, are at least `d` apart. -/
def Spaced (d : α) (ts : List α) : Prop := ts.Pairwise fun later earlier => earlier + d ≤ later

theorem spaced_nil (d : α) : Spaced d [] := List.Pairwise.nil

theorem Spaced.filter (h : Spaced d ts) (p : α → Bool) : Spaced d (ts.filter p) :=
  List.Pairwise.filter p h

variable [IsStrictOrderedRing α]

/-- Where no time goes back, the last event is the only one to look at. -/
theorem spaced_cons (hd : 0 ≤ d) (h : Spaced d ts) (hnew : ∀ t, ts.head? = some t → t + d ≤ a) :
    Spaced d (a :: ts) := by
  cases ts with
  | nil => exact List.pairwise_singleton _ _
  | cons t ts =>
      have ht := hnew t rfl
      refine List.pairwise_cons.mpr ⟨?_, h⟩
      intro s hs
      rcases List.mem_cons.mp hs with rfl | hs
      · exact ht
      · have hst : s + d ≤ t := (List.pairwise_cons.mp h).1 s hs
        linarith

/-- All but the first event push the last one away from the first by `d` each. -/
theorem Spaced.span (h : Spaced d ts) (hne : ts ≠ []) (hlo : ∀ t ∈ ts, a ≤ t)
    (hhi : ∀ t ∈ ts, t ≤ b) : (ts.length - 1 : α) * d ≤ b - a := by
  induction ts generalizing b with
  | nil => exact absurd rfl hne
  | cons t ts ih =>
      have hat := hlo t List.mem_cons_self
      have htb := hhi t List.mem_cons_self
      cases ts with
      | nil =>
          rw [List.length_singleton, Nat.cast_one, sub_self, zero_mul]
          linarith
      | cons s ts =>
          obtain ⟨hst, hrest⟩ := List.pairwise_cons.mp h
          have hspan := ih hrest (by simp) (fun u hu => hlo u (List.mem_cons_of_mem _ hu))
            (b := t - d) (fun u hu => le_sub_iff_add_le.mpr (hst u hu))
          rw [List.length_cons, Nat.cast_succ]
          have hsplit : ((s :: ts).length + 1 - 1 : α) * d =
              ((s :: ts).length - 1 : α) * d + d := by
            ring
          rw [hsplit]
          linarith

/-- How many events fit into a window. -/
theorem Spaced.window [FloorSemiring α] (hd : 0 < d) (h : Spaced d ts) (hlo : ∀ t ∈ ts, a ≤ t)
    (hhi : ∀ t ∈ ts, t ≤ b) : ts.length ≤ ⌊(b - a) / d⌋₊ + 1 := by
  by_cases hne : ts = []
  · rw [hne]
    exact Nat.zero_le _
  · have hspan := h.span hne hlo hhi
    have hle : (ts.length - 1 : α) ≤ (b - a) / d := (le_div_iff₀ hd).mpr hspan
    have hpos : 1 ≤ ts.length := List.length_pos_iff.mpr hne
    have hcast : ((ts.length - 1 : ℕ) : α) ≤ (b - a) / d := by
      rw [Nat.cast_sub hpos, Nat.cast_one]
      exact hle
    have hfloor := Nat.le_floor hcast
    omega

/-- A window shorter than the distance holds one event at most. -/
theorem Spaced.short [FloorSemiring α] (h : Spaced d ts) (hlo : ∀ t ∈ ts, a ≤ t)
    (hhi : ∀ t ∈ ts, t ≤ b) (hd : 0 < d) (hab : b - a < d) : ts.length ≤ 1 := by
  have hw := h.window hd hlo hhi
  have hzero : ⌊(b - a) / d⌋₊ = 0 := Nat.floor_eq_zero.mpr ((div_lt_one hd).mpr hab)
  omega

/-! ## Failures and resets -/

/-- A failure (`true`) or a reset (`false`), and when. -/
abbrev Mark (α : Type*) := α × Bool

/-- The failures since the last reset. -/
def streak : List (Mark α) → List α
  | [] => []
  | (t, true) :: log => t :: streak log
  | (_, false) :: _ => []

/-- Each failure after the first `k` of a streak keeps the distance from the one before. -/
def Throttled (k : ℕ) (d : α) : List (Mark α) → Prop
  | [] => True
  | (t, true) :: log =>
      (k ≤ (streak log).length → ∀ s ∈ (streak log).head?, s + d ≤ t) ∧ Throttled k d log
  | (_, false) :: log => Throttled k d log

/-- Times do not go back. -/
def Chronological (log : List (Mark α)) : Prop :=
  log.Pairwise fun later earlier => earlier.1 ≤ later.1

/-- The marks that are failures in a window. -/
def failuresIn (a b : α) (log : List (Mark α)) : List (Mark α) :=
  log.filter fun m => m.2 && decide (a ≤ m.1 ∧ m.1 ≤ b)

variable {k : ℕ} {log : List (Mark α)}

/-- But for the `k - 1` oldest, the last failures of a streak are spaced. -/
theorem Throttled.spaced (hk : 0 < k) (hd : 0 ≤ d) (h : Throttled k d log)
    (hts : ts <+: streak log) : Spaced d (ts.take (ts.length - (k - 1))) := by
  induction log generalizing ts with
  | nil =>
      rw [List.prefix_nil.mp hts, List.take_nil]
      exact spaced_nil d
  | cons m log ih =>
      obtain ⟨t, failed⟩ := m
      cases failed with
      | false =>
          rw [List.prefix_nil.mp hts, List.take_nil]
          exact spaced_nil d
      | true =>
          cases ts with
          | nil =>
              rw [List.take_nil]
              exact spaced_nil d
          | cons u us =>
              obtain ⟨rfl, hus⟩ := List.cons_prefix_cons.mp hts
              by_cases hlong : us.length + 1 ≤ k - 1
              · have hzero : (u :: us).length - (k - 1) = 0 := by
                  rw [List.length_cons]
                  omega
                rw [hzero, List.take_zero]
                exact spaced_nil d
              · have hsucc : (u :: us).length - (k - 1) = (us.length - (k - 1)) + 1 := by
                  rw [List.length_cons]
                  omega
                rw [hsucc, List.take_succ_cons]
                refine spaced_cons hd (ih h.2 hus) ?_
                intro s hs
                -- the last failure is one of those that count
                have hne : us.length - (k - 1) ≠ 0 := by
                  intro hzero
                  rw [hzero, List.take_zero] at hs
                  cases hs
                rw [List.head?_take, if_neg hne] at hs
                have hlen : k ≤ (streak log).length := le_trans (by omega) hus.length_le
                refine h.1 hlen s ?_
                obtain ⟨rest, hrest⟩ := hus
                rw [← hrest, List.head?_append, hs]
                rfl

omit [Field α] [IsStrictOrderedRing α] in
/-- Of a log up to `b`, the failures from `a` on are of the last streak. -/
theorem prefix_streak (hlog : Chronological log) (hhi : ∀ m ∈ log, m.1 ≤ b)
    (hreset : ∀ m ∈ log, m.2 = false → ¬ a ≤ m.1) :
    (failuresIn a b log).map Prod.fst <+: streak log := by
  induction log with
  | nil => exact List.nil_prefix
  | cons m log ih =>
      obtain ⟨hle, hrest⟩ := List.pairwise_cons.mp hlog
      obtain ⟨t, failed⟩ := m
      by_cases ha : a ≤ t
      · cases failed with
        | false => exact absurd ha (hreset _ List.mem_cons_self rfl)
        | true =>
            have hin : failuresIn a b ((t, true) :: log) = (t, true) :: failuresIn a b log :=
              List.filter_cons_of_pos (by simpa using ⟨ha, hhi _ List.mem_cons_self⟩)
            rw [hin]
            exact List.cons_prefix_cons.mpr ⟨rfl, ih hrest
              (fun m hm => hhi m (List.mem_cons_of_mem _ hm))
              fun m hm => hreset m (List.mem_cons_of_mem _ hm)⟩
      · have hnone : failuresIn a b ((t, failed) :: log) = [] := by
          refine List.filter_eq_nil_iff.mpr ?_
          intro m hm hin
          simp only [Bool.and_eq_true, decide_eq_true_eq] at hin
          rcases List.mem_cons.mp hm with rfl | hm
          · exact ha hin.2.1
          · exact ha (le_trans hin.2.1 (hle m hm))
        rw [hnone]
        exact List.nil_prefix

/-- How many failures fit into a window without a reset. -/
theorem Throttled.window [FloorSemiring α] (hk : 0 < k) (hd : 0 < d) (h : Throttled k d log)
    (hlog : Chronological log) (hreset : ∀ m ∈ log, m.2 = false → ¬ (a ≤ m.1 ∧ m.1 ≤ b)) :
    (failuresIn a b log).length ≤ k + ⌊(b - a) / d⌋₊ := by
  induction log with
  | nil => exact Nat.zero_le _
  | cons m log ih =>
      obtain ⟨hle, hrest⟩ := List.pairwise_cons.mp hlog
      have htail : Throttled k d log := by
        obtain ⟨t, failed⟩ := m
        cases failed with
        | false => exact h
        | true => exact h.2
      by_cases hb : m.1 ≤ b
      · have hhi : ∀ m' ∈ m :: log, m'.1 ≤ b := by
          intro m' hm'
          rcases List.mem_cons.mp hm' with rfl | hm'
          · exact hb
          · exact le_trans (hle m' hm') hb
        have hprefix := prefix_streak hlog hhi fun m' hm' hf ha => hreset m' hm' hf ⟨ha, hhi m' hm'⟩
        have hspaced := h.spaced hk (le_of_lt hd) hprefix
        have hin : ∀ t ∈ ((failuresIn a b (m :: log)).map Prod.fst).take
            (((failuresIn a b (m :: log)).map Prod.fst).length - (k - 1)), a ≤ t ∧ t ≤ b := by
          intro t ht
          obtain ⟨m', hm', rfl⟩ := List.mem_map.mp (List.mem_of_mem_take ht)
          simpa using ((Bool.and_eq_true_iff.mp (List.mem_filter.mp hm').2)).2
        have hw := hspaced.window hd (fun t ht => (hin t ht).1) fun t ht => (hin t ht).2
        rw [List.length_take, List.length_map] at hw
        omega
      · have hout : failuresIn a b (m :: log) = failuresIn a b log := by
          refine List.filter_cons_of_neg ?_
          simp only [Bool.and_eq_true, decide_eq_true_eq]
          exact fun hin => hb hin.2.2
        rw [hout]
        exact ih htail hrest fun m' hm' => hreset m' (List.mem_cons_of_mem _ hm')

end TemisLab.Lib
