/-
  Tickets that are used once. A ticket is a value issued under a key and removed by the one
  redemption that succeeds; a refused redemption leaves the store as it is. `live` is the store and
  `log` is history, newest first: what was issued, and what was redeemed with what was presented.

  `Sound`: a live ticket was issued and not redeemed, a redemption met its condition and came after
  the issue of its ticket, and no key was redeemed twice.
  * `sound_issue`: under a key not issued before.
  * `sound_redeem`: of a live ticket, where the condition holds.

  `Exact`: the live tickets are just those that were issued and not redeemed (`exact_issue`,
  `exact_redeem`), where no key is issued twice.
-/
import Mathlib.Data.List.Nodup
import Mathlib.Data.List.Pairwise
import TemisLab.Lib.Slots

namespace TemisLab.Lib

variable {κ ν χ : Type*}

/-- What happened to a ticket. -/
inductive Punch (κ ν χ : Type*) where
  | issued (key : κ) (value : ν)
  | redeemed (key : κ) (value : ν) (presented : χ)
  deriving DecidableEq, Repr

/-- The key of an issue. -/
def Punch.key : Punch κ ν χ → Option κ
  | .issued key _ => some key
  | .redeemed _ _ _ => none

/-- The key of a redemption. -/
def Punch.spent : Punch κ ν χ → Option κ
  | .issued _ _ => none
  | .redeemed key _ _ => some key

structure Tickets (κ ν χ : Type*) where
  live : κ → Option ν
  log : List (Punch κ ν χ)

namespace Tickets

def empty : Tickets κ ν χ := ⟨fun _ => none, []⟩

/-- The keys that were issued. -/
def keys (t : Tickets κ ν χ) : List κ := t.log.filterMap Punch.key

/-- The keys that were redeemed. -/
def spent (t : Tickets κ ν χ) : List κ := t.log.filterMap Punch.spent

section Operations

variable [DecidableEq κ]

def issue (t : Tickets κ ν χ) (key : κ) (value : ν) : Tickets κ ν χ where
  live := Function.update t.live key (some value)
  log := .issued key value :: t.log

/-- The removal of a ticket that was read. -/
def redeem (t : Tickets κ ν χ) (key : κ) (value : ν) (presented : χ) : Tickets κ ν χ where
  live := Function.update t.live key none
  log := .redeemed key value presented :: t.log

end Operations

theorem mem_spent {t : Tickets κ ν χ} {key : κ} :
    key ∈ t.spent ↔ ∃ value presented, .redeemed key value presented ∈ t.log := by
  unfold spent
  rw [List.mem_filterMap]
  refine ⟨?_, ?_⟩
  · rintro ⟨punch, hmem, hkey⟩
    cases punch with
    | issued key' value => cases hkey
    | redeemed key' value presented =>
        cases hkey
        exact ⟨value, presented, hmem⟩
  · rintro ⟨value, presented, hmem⟩
    exact ⟨_, hmem, rfl⟩

/-- Entries of a list with the same image are one, where the images have no duplicates. -/
theorem eq_of_filterMap_nodup {α β : Type*} {f : α → Option β} {l : List α} {a b : α} {k : β}
    (h : (l.filterMap f).Nodup) (ha : a ∈ l) (hb : b ∈ l) (hfa : f a = some k)
    (hfb : f b = some k) : a = b := by
  by_contra hne
  have hpairs := List.pairwise_filterMap.mp h
  have : Std.Symm fun a b : α => ∀ k, f a = some k → ∀ k', f b = some k' → k ≠ k' :=
    ⟨fun a b hab k hk k' hk' => (hab k' hk' k hk).symm⟩
  exact hpairs.forall ha hb hne k hfa k hfb rfl

/-- What the log tells of tickets that ask for `ok`. -/
structure Sound (ok : ν → χ → Prop) (t : Tickets κ ν χ) : Prop where
  live : ∀ key value, t.live key = some value → .issued key value ∈ t.log ∧ key ∉ t.spent
  redeemed : ∀ key value presented, .redeemed key value presented ∈ t.log →
    ok value presented ∧
      [Punch.redeemed key value presented, .issued key value].Sublist t.log
  once : t.spent.Nodup

variable {ok : ν → χ → Prop} {t : Tickets κ ν χ}

theorem sound_empty : Sound ok (empty : Tickets κ ν χ) := by
  refine ⟨?_, ?_, List.nodup_nil⟩
  · intro key value h
    cases h
  · intro key value presented h
    cases h

/-- A redeemed ticket was issued. -/
theorem Sound.spent_subset (h : t.Sound ok) : t.spent ⊆ t.keys := by
  intro key hkey
  obtain ⟨value, presented, hmem⟩ := mem_spent.mp hkey
  have hsub := (h.redeemed key value presented hmem).2
  have hissued := hsub.subset (List.mem_cons_of_mem _ List.mem_cons_self)
  exact List.mem_filterMap.mpr ⟨_, hissued, rfl⟩

variable [DecidableEq κ]

theorem sound_issue (h : t.Sound ok) {key : κ} (hnew : key ∉ t.keys) (value : ν) :
    (t.issue key value).Sound ok := by
  have hunspent : key ∉ t.spent := fun hkey => hnew (h.spent_subset hkey)
  have hspent : (t.issue key value).spent = t.spent := rfl
  refine ⟨?_, ?_, by rw [hspent]; exact h.once⟩
  · intro key' value' hlive
    rw [hspent]
    rcases slot_set hlive with ⟨-, hlive⟩ | ⟨rfl, rfl⟩
    · obtain ⟨hmem, hn⟩ := h.live key' value' hlive
      exact ⟨List.mem_cons_of_mem _ hmem, hn⟩
    · exact ⟨List.mem_cons_self, hunspent⟩
  · intro key' value' presented hmem
    rcases List.mem_cons.mp hmem with he | hmem
    · cases he
    · obtain ⟨hok, hsub⟩ := h.redeemed key' value' presented hmem
      exact ⟨hok, hsub.cons _⟩

theorem sound_redeem (h : t.Sound ok) {key : κ} {value : ν} {presented : χ}
    (hlive : t.live key = some value) (hok : ok value presented) :
    (t.redeem key value presented).Sound ok := by
  obtain ⟨hissued, hunspent⟩ := h.live key value hlive
  have hspent : (t.redeem key value presented).spent = key :: t.spent := rfl
  refine ⟨?_, ?_, by rw [hspent]; exact List.nodup_cons.mpr ⟨hunspent, h.once⟩⟩
  · intro key' value' hlive'
    rw [hspent]
    obtain ⟨hk, hlive'⟩ := slot_clear hlive'
    obtain ⟨hmem, hn⟩ := h.live key' value' hlive'
    refine ⟨List.mem_cons_of_mem _ hmem, ?_⟩
    rw [List.mem_cons, not_or]
    exact ⟨hk, hn⟩
  · intro key' value' presented' hmem
    rcases List.mem_cons.mp hmem with he | hmem
    · cases he
      exact ⟨hok, (List.singleton_sublist.mpr hissued).cons_cons _⟩
    · obtain ⟨hok', hsub⟩ := h.redeemed key' value' presented' hmem
      exact ⟨hok', hsub.cons _⟩

/-- The live tickets are those the log has as issued and not as redeemed. -/
def Exact (t : Tickets κ ν χ) : Prop :=
  ∀ key value, t.live key = some value ↔ .issued key value ∈ t.log ∧ key ∉ t.spent

omit [DecidableEq κ] in
theorem exact_empty : (empty : Tickets κ ν χ).Exact := by
  intro key value
  constructor
  · intro h
    cases h
  · rintro ⟨hmem, -⟩
    cases hmem

theorem exact_issue (h : t.Exact) (hsub : t.spent ⊆ t.keys) {key : κ} (hnew : key ∉ t.keys)
    (value : ν) : (t.issue key value).Exact := by
  intro key' value'
  have hspent : (t.issue key value).spent = t.spent := rfl
  have hlog : Punch.issued key' value' ∈ (t.issue key value).log ↔
      (key' = key ∧ value' = value) ∨ .issued key' value' ∈ t.log := by
    unfold issue
    rw [List.mem_cons, Punch.issued.injEq]
  rw [hspent, hlog]
  by_cases hk : key' = key
  · -- the key is new, so the log has it once and nowhere redeemed
    subst hk
    have hlive : (t.issue key' value).live key' = some value := Function.update_self ..
    have hno : Punch.issued key' value' ∉ t.log := fun hmem =>
      hnew (List.mem_filterMap.mpr ⟨_, hmem, rfl⟩)
    have hunspent : key' ∉ t.spent := fun hmem => hnew (hsub hmem)
    rw [hlive, Option.some.injEq]
    refine ⟨fun he => ⟨Or.inl ⟨rfl, he.symm⟩, hunspent⟩, ?_⟩
    rintro ⟨⟨-, he⟩ | hmem, -⟩
    · exact he.symm
    · exact absurd hmem hno
  · have hlive : (t.issue key value).live key' = t.live key' := Function.update_of_ne hk ..
    rw [hlive, h key' value']
    simp [hk]

theorem exact_redeem (h : t.Exact) (key : κ) (value : ν) (presented : χ) :
    (t.redeem key value presented).Exact := by
  intro key' value'
  have hspent : (t.redeem key value presented).spent = key :: t.spent := rfl
  have hlog : Punch.issued key' value' ∈ (t.redeem key value presented).log ↔
      .issued key' value' ∈ t.log := by
    unfold redeem
    rw [List.mem_cons]
    simp
  rw [hspent, hlog, List.mem_cons, not_or]
  by_cases hk : key' = key
  · subst hk
    have hlive : (t.redeem key' value presented).live key' = none := Function.update_self ..
    rw [hlive]
    simp
  · have hlive : (t.redeem key value presented).live key' = t.live key' :=
      Function.update_of_ne hk ..
    rw [hlive, h key' value']
    simp [hk]

omit [DecidableEq κ] in
/-- Two redemptions of a key are one. -/
theorem Sound.unique (h : t.Sound ok) {key : κ} {value value' : ν} {presented presented' : χ}
    (hmem : .redeemed key value presented ∈ t.log)
    (hmem' : .redeemed key value' presented' ∈ t.log) :
    value = value' ∧ presented = presented' := by
  have he := eq_of_filterMap_nodup h.once hmem hmem' rfl rfl
  cases he
  exact ⟨rfl, rfl⟩

omit [DecidableEq κ] in
/-- Two issues under a key are one, where no key was issued twice. -/
theorem issued_unique (h : t.keys.Nodup) {key : κ} {value value' : ν}
    (hmem : .issued key value ∈ t.log) (hmem' : .issued key value' ∈ t.log) : value = value' := by
  have he := eq_of_filterMap_nodup h hmem hmem' rfl rfl
  cases he
  rfl

end Tickets

end TemisLab.Lib
