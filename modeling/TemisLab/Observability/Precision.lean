/-
  What `redact` changes of a JSON tree. A tree is looked at along paths of keys and indices, so the
  rule says of each place what is found there afterwards.

  * `Precise`: the same keys, lengths and order; `[REDACTED]` under a sensitive key and for a text
    with a marker; every other leaf as it was; and no place that was not there.
  * `redact_redact`: redacting again changes nothing, for any value.
  * `redact_precise`: both, for every JSON tree.
-/
import TemisLab.Observability.Redaction

namespace TemisLab.Observability

open TemisLab.Lib

/-! ## JSON trees -/

/-- What `json.loads` gives: lists and `dict`s of such values, with texts as keys, each once. -/
inductive IsJson : Value → Prop
  | null : IsJson .null
  | bool (b : Bool) : IsJson (.bool b)
  | int (n : ℤ) : IsJson (.int n)
  | float (literal : String) : IsJson (.float literal)
  | str (s : String) : IsJson (.str s)
  | list {values : List Value} (h : ∀ v ∈ values, IsJson v) : IsJson (.list values)
  | mapping {entries : List (String × Value)} (hkeys : (entries.map Prod.fst).Nodup)
      (h : ∀ e ∈ entries, IsJson e.2) :
      IsJson (.mapping true (entries.map fun e => (.str e.1, e.2)))

structure JsonTree where
  value : Value
  isJson : IsJson value

/-- A step into a list or a mapping. -/
inductive Segment where
  | index (i : ℕ)
  | key (text : String)
  deriving DecidableEq, Repr

/-- `value[i]`, `value[key]`. -/
def Value.child : Value → Segment → Option Value
  | .list values, .index i => values[i]?
  | .mapping _ entries, .key text => entries.lookup (.str text)
  | _, _ => none

/-- The value at a path. -/
def Value.get : Value → List Segment → Option Value
  | v, [] => some v
  | v, s :: path => (v.child s).bind fun w => w.get path

theorem get_append (v : Value) (path rest : List Segment) :
    v.get (path ++ rest) = (v.get path).bind fun w => w.get rest := by
  induction path generalizing v with
  | nil => rfl
  | cons s path ih =>
      simp only [List.cons_append, Value.get, Option.bind_assoc]
      exact congrArg (v.child s).bind (funext ih)

variable (py : Lower)

/-- The step goes under a sensitive key. -/
def Segment.sensitive : Segment → Bool
  | .index _ => false
  | .key text => Observability.sensitive py text

/-- No step of a path does. -/
def Open (path : List Segment) : Prop := ∀ s ∈ path, s.sensitive py = false

/-- What is found where `x` was: a text that is redacted if it has a marker, a container of the
    same size with the same keys in their order, or `x`. -/
def Shows (x y : Value) : Prop :=
  match x with
  | .str s => y = if marked py s then .str "[REDACTED]" else .str s
  | .list values => ∃ values', y = .list values' ∧ values'.length = values.length
  | .mapping isDict entries =>
      ∃ entries', y = .mapping isDict entries' ∧ entries'.map Prod.fst = entries.map Prod.fst
  | _ => y = x

/-- `w` is `v`, redacted by the rule and not further. -/
structure Precise (v w : Value) : Prop where
  shown : ∀ path x, Open py path → v.get path = some x →
    ∃ y, w.get path = some y ∧ Shows py x y
  hidden : ∀ path s x, Open py path → s.sensitive py = true → v.get (path ++ [s]) = some x →
    w.get (path ++ [s]) = some (.str "[REDACTED]")
  added : ∀ path y, w.get path = some y → ∃ x, v.get path = some x

/-! ## Redacting again -/

theorem redact_redacted : redact py (.str "[REDACTED]") = .str "[REDACTED]" := by
  rw [redact_str, marked_redacted]
  rfl

theorem redactUnder_redactUnder {key : String} {v : Value}
    (h : redact py (redact py v) = redact py v) :
    redactUnder py key (redactUnder py key v) = redactUnder py key v := by
  unfold redactUnder
  split
  · rfl
  · exact h

/-- Any value, with its tuples and with keys that are no texts. -/
theorem redact_redact (v : Value) : redact py (redact py v) = redact py v := by
  induction v using Value.induct with
  | str s =>
      rw [redact_str]
      split
      · exact redact_redacted py
      · next hs => rw [redact_str, if_neg hs]
  | list values ih =>
      rw [redact_list, redact_list, List.map_map]
      exact congrArg Value.list (List.map_congr_left ih)
  | mapping isDict entries ih =>
      rw [redact_mapping]
      generalize hkept : dictFrom (entries.map fun e => (e.1.text, e.2)) = kept
      have hkeys : (kept.map Prod.fst).Nodup := hkept ▸ nodup_dictFrom _
      have hih : ∀ e ∈ kept, redact py (redact py e.2) = redact py e.2 := by
        intro e he
        rw [← hkept] at he
        obtain ⟨e', he', rfl⟩ := List.mem_map.mp (mem_of_mem_dictFrom he)
        exact ih e' he'
      -- the keys are texts now, and differ
      have hpairs : (kept.map fun e => (Key.str e.1, redactUnder py e.1 e.2)).map
          (fun e => (e.1.text, e.2)) = kept.map fun e => (e.1, redactUnder py e.1 e.2) := by
        rw [List.map_map]
        rfl
      rw [redact_mapping, hpairs, dictFrom_map, dictFrom_of_nodup hkeys, List.map_map]
      refine congrArg (Value.mapping true) (List.map_congr_left ?_)
      intro e he
      exact congrArg (Prod.mk (Key.str e.1)) (redactUnder_redactUnder py (hih e he))
  | _ => rfl

/-! ## A tree, place by place -/

theorem isJson_redact {v : Value} (h : IsJson v) : IsJson (redact py v) := by
  induction h with
  | str s =>
      rw [redact_str]
      split
      · exact .str _
      · exact .str _
  | list h ih =>
      rw [redact_list]
      refine .list ?_
      intro w hw
      obtain ⟨v, hv, rfl⟩ := List.mem_map.mp hw
      exact ih v hv
  | @mapping entries hkeys h ih =>
      rw [redact_entries py hkeys]
      have hnodup : ((entries.map fun e => (e.1, redactUnder py e.1 e.2)).map Prod.fst).Nodup := by
        rw [List.map_map]
        exact hkeys
      have hmapping := IsJson.mapping hnodup ?_
      · rw [List.map_map] at hmapping
        exact hmapping
      · intro d hd
        obtain ⟨e, he, rfl⟩ := List.mem_map.mp hd
        unfold redactUnder
        dsimp only
        split
        · exact .str _
        · exact ih e he
  | null => exact .null
  | bool b => exact .bool b
  | int n => exact .int n
  | float literal => exact .float literal

/-- `redact` on trees. -/
def JsonTree.redact (t : JsonTree) : JsonTree :=
  ⟨Observability.redact py t.value, isJson_redact py t.isJson⟩

theorem lookup_entries (f : String → Value → Value) (entries : List (String × Value))
    (text : String) :
    (entries.map fun e => (Key.str e.1, f e.1 e.2)).lookup (.str text) =
      (entries.lookup text).map (f text) := by
  induction entries with
  | nil => rfl
  | cons e entries ih =>
      obtain ⟨key, v⟩ := e
      rw [List.map_cons]
      by_cases he : text = key
      · subst he
        rw [List.lookup_cons_self, List.lookup_cons_self]
        rfl
      · have hkey : (Key.str text == Key.str key) = false := by simp [he]
        have htext : (text == key) = false := by simp [he]
        rw [List.lookup_cons, List.lookup_cons, hkey, htext, ih]

/-- What a step finds after redaction. -/
theorem child_redact {v : Value} (h : IsJson v) (s : Segment) :
    (redact py v).child s =
      (v.child s).map fun x => if s.sensitive py then .str "[REDACTED]" else redact py x := by
  cases h with
  | str text =>
      rw [redact_str]
      split <;> rfl
  | list h =>
      rw [redact_list]
      cases s with
      | index i =>
          simp only [Value.child, List.getElem?_map]
          rfl
      | key text => rfl
  | mapping hkeys h =>
      rw [redact_entries py hkeys]
      cases s with
      | index i => rfl
      | key text =>
          simp only [Value.child]
          rw [lookup_entries (redactUnder py), lookup_entries fun _ v => v, Option.map_map]
          rfl
  | _ => rfl

theorem isJson_child {v x : Value} {s : Segment} (h : IsJson v) (hx : v.child s = some x) :
    IsJson x := by
  cases h with
  | list h =>
      cases s with
      | index i => exact h x (List.mem_of_getElem? hx)
      | key text => cases hx
  | mapping hkeys h =>
      cases s with
      | index i => cases hx
      | key text =>
          simp only [Value.child] at hx
          rw [lookup_entries fun _ v => v] at hx
          obtain ⟨y, hy, rfl⟩ := Option.map_eq_some_iff.mp hx
          obtain ⟨pre, post, hentries, -⟩ := List.lookup_eq_some_iff.mp hy
          rw [hentries] at h
          exact h (text, y) (List.mem_append_right _ List.mem_cons_self)
  | _ => cases s <;> cases hx

/-- An open path finds the same value, redacted. -/
theorem get_redact {v : Value} (h : IsJson v) {path : List Segment} (hopen : Open py path) :
    (redact py v).get path = (v.get path).map (redact py) := by
  induction path generalizing v with
  | nil => rfl
  | cons s path ih =>
      obtain ⟨hs, hpath⟩ := List.forall_mem_cons.mp hopen
      simp only [Value.get]
      rw [child_redact py h, hs]
      cases hx : v.child s with
      | none => rfl
      | some x => exact ih (isJson_child h hx) hpath

theorem isJson_get {v x : Value} {path : List Segment} (h : IsJson v) (hx : v.get path = some x) :
    IsJson x := by
  induction path generalizing v with
  | nil =>
      cases hx
      exact h
  | cons s path ih =>
      obtain ⟨w, hw, hx⟩ := Option.bind_eq_some_iff.mp hx
      exact ih (isJson_child h hw) hx

theorem shows_redact {x : Value} (h : IsJson x) : Shows py x (redact py x) := by
  cases h with
  | str s => exact redact_str py s
  | list h => exact ⟨_, redact_list py _, List.length_map _⟩
  | mapping hkeys h =>
      refine ⟨_, redact_entries py hkeys, ?_⟩
      rw [List.map_map, List.map_map]
      rfl
  | _ => rfl

/-- Nothing stands in a redacted text. -/
theorem get_redacted {path : List Segment} {y : Value}
    (h : (Value.str "[REDACTED]").get path = some y) : path = [] := by
  cases path with
  | nil => rfl
  | cons s path => cases h

/-- A redacted tree has no place of its own. -/
theorem get_of_redact {v y : Value} (h : IsJson v) {path : List Segment}
    (hy : (redact py v).get path = some y) : ∃ x, v.get path = some x := by
  induction path generalizing v with
  | nil => exact ⟨v, rfl⟩
  | cons s path ih =>
      simp only [Value.get] at hy ⊢
      rw [child_redact py h] at hy
      cases hx : v.child s with
      | none =>
          rw [hx] at hy
          cases hy
      | some x =>
          rw [hx, Option.map_some, Option.bind_some] at hy
          rw [Option.bind_some]
          split at hy
          · rw [get_redacted hy]
            exact ⟨x, rfl⟩
          · exact ih (isJson_child h hx) hy

/-- For every JSON tree: `redact` keeps its keys, lengths and order, puts `[REDACTED]` under every
    sensitive key and for every text with a marker, leaves every other leaf as it is, adds
    nothing; and redacting again changes nothing. -/
theorem redact_precise (t : JsonTree) :
    Precise py t.value (t.redact py).value ∧ (t.redact py).redact py = t.redact py := by
  have hagain : (t.redact py).redact py = t.redact py := by
    unfold JsonTree.redact
    simp only [redact_redact]
  refine ⟨⟨?_, ?_, ?_⟩, hagain⟩
  · intro path x hopen hx
    refine ⟨redact py x, ?_, shows_redact py (isJson_get t.isJson hx)⟩
    rw [JsonTree.redact, get_redact py t.isJson hopen, hx]
    rfl
  · intro path s x hopen hs hx
    rw [get_append] at hx
    obtain ⟨w, hw, hx⟩ := Option.bind_eq_some_iff.mp hx
    obtain ⟨x', hx', -⟩ := Option.bind_eq_some_iff.mp hx
    rw [JsonTree.redact, get_append, get_redact py t.isJson hopen, hw]
    simp only [Option.map_some, Option.bind_some, Value.get]
    rw [child_redact py (isJson_get t.isJson hw), hx', hs]
    rfl
  · exact fun path y hy => get_of_redact py t.isJson hy

/-- A key with a marker, and a text with one under a key without. -/
example : redact asciiLower (.mapping true [(.str "payload", .mapping true
      [(.str "Code", .list [.int 1]), (.str "profile", .list [.str "csrf", .str "ok", .null])])]) =
    .mapping true [(.str "payload", .mapping true
      [(.str "Code", .str "[REDACTED]"),
        (.str "profile", .list [.str "[REDACTED]", .str "ok", .null])])] := by rfl

end TemisLab.Observability
