/-
  A store of one-time values: a value is put under a key with a deadline, and the take that
  reads it removes it in the same step (`SET` with an expiry, `GETDEL`). `live` is the store;
  `issued` and `takenBy` are history: the value last put under a key, and who took it.

  `Later` is what every operation respects, as long as no key is put twice: issued values stay,
  takers stay, and a key without a live value never has one again (`Spent.later`). A `Ledger`
  is a list of keys whose values were used, each entered by its taker and so at most once.
-/
import Mathlib.Logic.Function.Basic
import Mathlib.Order.Basic

namespace TemisLab.Lib

variable {κ ν τ ο : Type*}

structure OneTime (κ ν τ ο : Type*) where
  live : κ → Option (ν × τ)
  issued : κ → Option ν
  takenBy : κ → Option ο
  issued_of_live : ∀ k v d, live k = some (v, d) → issued k = some v
  untaken_of_live : ∀ k v d, live k = some (v, d) → takenBy k = none
  issued_of_taken : ∀ k o, takenBy k = some o → ∃ v, issued k = some v

namespace OneTime

def empty : OneTime κ ν τ ο where
  live _ := none
  issued _ := none
  takenBy _ := none
  issued_of_live := nofun
  untaken_of_live := nofun
  issued_of_taken := nofun

section Operations

variable [DecidableEq κ]

/-- `SET k v` with an expiry; a value already there is replaced. -/
def put (s : OneTime κ ν τ ο) (k : κ) (v : ν) (deadline : τ) : OneTime κ ν τ ο where
  live := Function.update s.live k (some (v, deadline))
  issued := Function.update s.issued k (some v)
  takenBy := Function.update s.takenBy k none
  issued_of_live := by
    intro k' v' d' h
    by_cases hk : k' = k
    · subst hk
      rw [Function.update_self] at h ⊢
      cases h
      rfl
    · rw [Function.update_of_ne hk] at h ⊢
      exact s.issued_of_live k' v' d' h
  untaken_of_live := by
    intro k' v' d' h
    by_cases hk : k' = k
    · rw [hk, Function.update_self]
    · rw [Function.update_of_ne hk] at h ⊢
      exact s.untaken_of_live k' v' d' h
  issued_of_taken := by
    intro k' o h
    by_cases hk : k' = k
    · rw [hk, Function.update_self] at h
      cases h
    · rw [Function.update_of_ne hk] at h ⊢
      exact s.issued_of_taken k' o h

variable [LT τ] [DecidableLT τ]

/-- The value under `k` at `now`. -/
def read (s : OneTime κ ν τ ο) (k : κ) (now : τ) : Option ν :=
  (s.live k).bind fun (v, deadline) => if now < deadline then some v else none

omit [DecidableEq κ] in
theorem live_of_read {s : OneTime κ ν τ ο} {k : κ} {now : τ} {v : ν}
    (h : s.read k now = some v) : ∃ d, s.live k = some (v, d) := by
  obtain ⟨⟨v', d⟩, hl, hv⟩ := Option.bind_eq_some_iff.mp h
  simp only at hv
  split at hv
  · cases hv
    exact ⟨d, hl⟩
  · cases hv

/-- `GETDEL k` by `o`: the value and the store without it. -/
def take (s : OneTime κ ν τ ο) (k : κ) (o : ο) (now : τ) : Option ν × OneTime κ ν τ ο :=
  (s.read k now,
    { live := Function.update s.live k none
      issued := s.issued
      takenBy :=
        if (s.read k now).isSome then Function.update s.takenBy k (some o) else s.takenBy
      issued_of_live := by
        intro k' v d h
        by_cases hk : k' = k
        · rw [hk, Function.update_self] at h
          cases h
        · rw [Function.update_of_ne hk] at h
          exact s.issued_of_live k' v d h
      untaken_of_live := by
        intro k' v d h
        have hk : k' ≠ k := by
          intro hk
          rw [hk, Function.update_self] at h
          cases h
        rw [Function.update_of_ne hk] at h
        split
        · rw [Function.update_of_ne hk]
          exact s.untaken_of_live k' v d h
        · exact s.untaken_of_live k' v d h
      issued_of_taken := by
        intro k' o' h
        split at h
        · next hv =>
            by_cases hk : k' = k
            · obtain ⟨v, hv⟩ := Option.isSome_iff_exists.mp hv
              obtain ⟨d, hl⟩ := live_of_read hv
              exact ⟨v, by rw [hk]; exact s.issued_of_live k v d hl⟩
            · rw [Function.update_of_ne hk] at h
              exact s.issued_of_taken k' o' h
        · exact s.issued_of_taken k' o' h })

end Operations

/-! ## Holding a value and spending a key -/

/-- `o` took the value `v` from under `k`. -/
structure Holds (s : OneTime κ ν τ ο) (o : ο) (k : κ) (v : ν) : Prop where
  issued : s.issued k = some v
  taken : s.takenBy k = some o

/-- `k` had a value and has none any more. -/
structure Spent (s : OneTime κ ν τ ο) (k : κ) : Prop where
  issued : s.issued k ≠ none
  gone : s.live k = none

/-- What holds of `s` and stays. -/
structure Later (s t : OneTime κ ν τ ο) : Prop where
  issued : ∀ k v, s.issued k = some v → t.issued k = some v
  taken : ∀ k o, s.takenBy k = some o → t.takenBy k = some o
  gone : ∀ k v, s.issued k = some v → s.live k = none → t.live k = none

variable {s t u : OneTime κ ν τ ο} {k : κ} {v : ν} {o o' : ο}

theorem Later.refl (s : OneTime κ ν τ ο) : s.Later s :=
  ⟨fun _ _ h => h, fun _ _ h => h, fun _ _ _ h => h⟩

theorem Later.trans (h : s.Later t) (h' : t.Later u) : s.Later u :=
  ⟨fun k v hv => h'.issued k v (h.issued k v hv), fun k o ho => h'.taken k o (h.taken k o ho),
    fun k v hv hl => h'.gone k v (h.issued k v hv) (h.gone k v hv hl)⟩

theorem Holds.later (h : s.Holds o k v) (hst : s.Later t) : t.Holds o k v :=
  ⟨hst.issued k v h.issued, hst.taken k o h.taken⟩

theorem Spent.later (h : s.Spent k) (hst : s.Later t) : t.Spent k := by
  obtain ⟨v, hv⟩ := Option.ne_none_iff_exists'.mp h.issued
  exact ⟨by rw [hst.issued k v hv]; exact Option.some_ne_none v, hst.gone k v hv h.gone⟩

/-! ## Ledgers -/

/-- Keys whose values were taken, each entered once. -/
structure Ledger (s : OneTime κ ν τ ο) (ks : List κ) : Prop where
  nodup : ks.Nodup
  taken : ∀ k ∈ ks, s.takenBy k ≠ none

/-- `o` may enter a key it has taken. -/
inductive Enters (t : OneTime κ ν τ ο) (o : ο) (ks : List κ) : List κ → Prop where
  | same : Enters t o ks ks
  | enter (k : κ) (hnew : k ∉ ks) (htaken : t.takenBy k = some o) : Enters t o ks (k :: ks)

theorem Ledger.advance {ks ks' : List κ} (h : s.Ledger ks) (hst : s.Later t)
    (hks : t.Enters o ks ks') : t.Ledger ks' := by
  have htaken : ∀ k ∈ ks, t.takenBy k ≠ none := by
    intro k hk
    obtain ⟨o', ho'⟩ := Option.ne_none_iff_exists'.mp (h.taken k hk)
    rw [hst.taken k o' ho']
    exact Option.some_ne_none o'
  cases hks with
  | same => exact ⟨h.nodup, htaken⟩
  | enter k hnew hk =>
      refine ⟨List.nodup_cons.mpr ⟨hnew, h.nodup⟩, ?_⟩
      intro k' hk'
      rcases List.mem_cons.mp hk' with rfl | hk'
      · rw [hk]
        exact Option.some_ne_none o
      · exact htaken k' hk'

/-- Nobody enters the key another holds. -/
theorem Enters.not_mem {ks ks' : List κ} (hks : t.Enters o ks ks') (hk : k ∉ ks)
    (h : t.takenBy k = some o') (hne : o' ≠ o) : k ∉ ks' := by
  cases hks with
  | same => exact hk
  | enter k₁ _ hk₁ =>
      intro hmem
      rcases List.mem_cons.mp hmem with rfl | hmem
      · exact hne (Option.some.inj (h.symm.trans hk₁))
      · exact hk hmem

variable [DecidableEq κ]

@[simp] theorem issued_put (s : OneTime κ ν τ ο) (k : κ) (v : ν) (d : τ) :
    (s.put k v d).issued = Function.update s.issued k (some v) := rfl

/-- A put under a new key disturbs nothing. -/
theorem later_put (hk : s.issued k = none) (v : ν) (d : τ) : s.Later (s.put k v d) := by
  have hne : ∀ k' v', s.issued k' = some v' → k' ≠ k := by
    rintro k' v' hv rfl
    rw [hk] at hv
    cases hv
  refine ⟨?_, ?_, ?_⟩
  · intro k' v' hv
    rw [issued_put, Function.update_of_ne (hne k' v' hv)]
    exact hv
  · intro k' o ho
    obtain ⟨v', hv⟩ := s.issued_of_taken k' o ho
    exact (Function.update_of_ne (hne k' v' hv) _ _).trans ho
  · intro k' v' hv hl
    exact (Function.update_of_ne (hne k' v' hv) _ _).trans hl

theorem live_put_self (s : OneTime κ ν τ ο) (k : κ) (v : ν) (d : τ) :
    (s.put k v d).live k = some (v, d) := Function.update_self ..

theorem live_put_of_ne {k' : κ} (hk : k' ≠ k) (s : OneTime κ ν τ ο) (v : ν) (d : τ) :
    (s.put k v d).live k' = s.live k' := Function.update_of_ne hk _ _

/-- A put under a new key replaces nothing that is live. -/
theorem live_put_of_new (hk : s.issued k = none) (v : ν) (d : τ) {k' : κ} {w : ν × τ}
    (hl : s.live k' = some w) : (s.put k v d).live k' = some w := by
  have hne : k' ≠ k := by
    rintro rfl
    rw [s.issued_of_live k' w.1 w.2 hl] at hk
    cases hk
  exact (live_put_of_ne hne s v d).trans hl

variable [LT τ] [DecidableLT τ] {now : τ}

theorem live_take_of_ne {k' : κ} (hk : k' ≠ k) (s : OneTime κ ν τ ο) (o : ο) (now : τ) :
    (s.take k o now).2.live k' = s.live k' := Function.update_of_ne hk _ _

omit [DecidableEq κ] in
theorem read_of_live {d : τ} (hl : s.live k = some (v, d)) (hnow : now < d) :
    s.read k now = some v := by
  unfold read
  rw [hl]
  exact if_pos hnow

@[simp] theorem issued_take (s : OneTime κ ν τ ο) (k : κ) (o : ο) (now : τ) :
    (s.take k o now).2.issued = s.issued := rfl

theorem later_take (s : OneTime κ ν τ ο) (k : κ) (o : ο) (now : τ) :
    s.Later (s.take k o now).2 := by
  refine ⟨fun _ _ h => h, ?_, ?_⟩
  · intro k' o' ho
    show (if (s.read k now).isSome then Function.update s.takenBy k (some o) else s.takenBy) k' =
      some o'
    split
    · next hv =>
        obtain ⟨v, hv⟩ := Option.isSome_iff_exists.mp hv
        obtain ⟨d, hl⟩ := live_of_read hv
        have hk : k' ≠ k := by
          rintro rfl
          rw [s.untaken_of_live k' v d hl] at ho
          cases ho
        rw [Function.update_of_ne hk]
        exact ho
    · exact ho
  · intro k' v _ hl
    by_cases hk : k' = k
    · rw [hk]
      exact Function.update_self ..
    · exact (Function.update_of_ne hk _ _).trans hl

/-- A take that returns a value is the first one. -/
theorem untaken_of_take (h : (s.take k o now).1 = some v) : s.takenBy k = none := by
  obtain ⟨d, hl⟩ := live_of_read h
  exact s.untaken_of_live k v d hl

theorem holds_take (h : (s.take k o now).1 = some v) : (s.take k o now).2.Holds o k v := by
  have hv : s.read k now = some v := h
  obtain ⟨d, hl⟩ := live_of_read hv
  refine ⟨s.issued_of_live k v d hl, ?_⟩
  show (if (s.read k now).isSome then Function.update s.takenBy k (some o) else s.takenBy) k =
    some o
  rw [hv, Option.isSome_some, if_pos rfl, Function.update_self]

theorem Ledger.not_mem_of_take {ks : List κ} (hks : s.Ledger ks)
    (h : (s.take k o now).1 = some v) : k ∉ ks :=
  fun hk => hks.taken k hk (untaken_of_take h)

/-- Whatever a take returns, the key is spent. -/
theorem spent_take (h : s.issued k ≠ none) (o : ο) (now : τ) : (s.take k o now).2.Spent k :=
  ⟨h, Function.update_self ..⟩

theorem Spent.take_eq_none (h : s.Spent k) (o : ο) (now : τ) : (s.take k o now).1 = none := by
  show s.read k now = none
  rw [read, h.gone]
  rfl

end OneTime

end TemisLab.Lib
