/-
  `redact` and `StructuredLogger.event` (`observability.py`): what a log line carries.

  `redact` goes into mappings and lists. A tuple it hands through, and `json.dumps` writes it as a
  list (`dumped`), so what a tuple holds is in the line as it was.

  * `clean_dumped`: a document is clean exactly if the value it was written from is bare of secrets.
  * `bare_redact`: a redacted value is bare exactly if the tuples that `redact` comes upon are.
  * `event_clean_iff`: the log line.
-/
import TemisLab.Lib.Json
import TemisLab.Lib.PyText

namespace TemisLab.Observability

open TemisLab.Lib

/-! ## Values -/

/-- A key of a mapping. -/
inductive Key where
  | str (text : String)
  | int (n : ℤ)
  | float (literal : String)
  | bool (b : Bool)
  | null
  /-- A key that `json.dumps` refuses, with its `str`. -/
  | other (text : String)
  deriving DecidableEq, Repr

/-- `str(key)`. -/
def Key.text : Key → String
  | .str text => text
  | .int n => toString n
  | .float literal => literal
  | .bool b => if b then "True" else "False"
  | .null => "None"
  | .other text => text

/-- The name `json.dumps` writes for a key. -/
def Key.name : Key → Option String
  | .str text => some text
  | .int n => some (toString n)
  | .float literal => some literal
  | .bool b => some (if b then "true" else "false")
  | .null => some "null"
  | .other _ => none

/-- A field of an event. `isDict` is false for a mapping that is no `dict`. -/
inductive Value where
  | null
  | bool (b : Bool)
  | int (n : ℤ)
  | float (literal : String)
  | str (s : String)
  | list (values : List Value)
  | tuple (values : List Value)
  | mapping (isDict : Bool) (entries : List (Key × Value))

/-- Induction over the values in a value. -/
theorem Value.induct {motive : Value → Prop} (null : motive .null) (bool : ∀ b, motive (.bool b))
    (int : ∀ n, motive (.int n)) (float : ∀ literal, motive (.float literal))
    (str : ∀ s, motive (.str s))
    (list : ∀ values, (∀ v ∈ values, motive v) → motive (.list values))
    (tuple : ∀ values, (∀ v ∈ values, motive v) → motive (.tuple values))
    (mapping : ∀ isDict entries, (∀ e ∈ entries, motive e.2) → motive (.mapping isDict entries))
    (v : Value) : motive v := by
  refine Value.rec (motive_1 := motive) (motive_2 := fun values => ∀ v ∈ values, motive v)
    (motive_3 := fun entries => ∀ e ∈ entries, motive e.2) (motive_4 := fun e => motive e.2)
    null bool int float str list tuple mapping ?_ ?_ ?_ ?_ ?_ v
  · intro v hv
    cases hv
  · intro v values hv hvalues w hw
    rcases List.mem_cons.mp hw with rfl | hw
    · exact hv
    · exact hvalues w hw
  · intro e he
    cases he
  · intro e entries he hentries d hd
    rcases List.mem_cons.mp hd with rfl | hd
    · exact he
    · exact hentries d hd
  · intro key v hv
    exact hv

/-! ## The redactor -/

/-- `SENSITIVE_MARKERS`. -/
def sensitiveMarkers : List String :=
  ["authorization", "cookie", "password", "secret", "token", "code", "email"]

/-- `SENSITIVE_VALUE_MARKERS`. -/
def sensitiveValueMarkers : List String :=
  ["bearer ", "token=", "password=", "code=", "refresh_token", "cookie:", "__host-", "session=",
    "state=", "code_verifier=", "csrf"]

/-- `str.lower`, which on ASCII texts maps A to Z. -/
structure Lower where
  lower : String → String
  ascii : ∀ s, (∀ c ∈ s.toList, c.toNat < 128) → lower s = String.ofList (s.toList.map Char.toLower)

/-- The lower case of ASCII. -/
def asciiLower : Lower := ⟨fun s => String.ofList (s.toList.map Char.toLower), fun _ _ => rfl⟩

variable (py : Lower)

/-- `any(marker in str(key).lower() for marker in SENSITIVE_MARKERS)`. -/
def sensitive (key : String) : Bool :=
  sensitiveMarkers.any fun m => PyText.contains m (py.lower key)

/-- `any(marker in value.lower() for marker in SENSITIVE_VALUE_MARKERS)`. -/
def marked (s : String) : Bool := sensitiveValueMarkers.any fun m => PyText.contains m (py.lower s)

mutual

/-- `redact`. -/
def redact : Value → Value
  | .mapping _ entries =>
      .mapping true ((dictFrom (redactEntries entries)).map fun e => (.str e.1, e.2))
  | .list values => .list (redactList values)
  | .str s => if marked py s then .str "[REDACTED]" else .str s
  | .null => .null
  | .bool b => .bool b
  | .int n => .int n
  | .float literal => .float literal
  | .tuple values => .tuple values

def redactList : List Value → List Value
  | [] => []
  | v :: values => redact v :: redactList values

def redactEntries : List (Key × Value) → List (String × Value)
  | [] => []
  | (key, v) :: entries =>
      (key.text, if sensitive py key.text then .str "[REDACTED]" else redact v) ::
        redactEntries entries

end

mutual

/-- The document that `json.loads` gives for what `json.dumps` writes, but for the order of the
    entries; `none` is a `TypeError`. The one that `sort_keys` raises where keys of two types stand
    in a mapping under a tuple is left out: elsewhere `redact` has made the keys texts. -/
def dumped : Value → Option Json
  | .null => some .null
  | .bool b => some (.bool b)
  | .int n => some (.int n)
  | .float literal => some (.float literal)
  | .str s => some (.str s)
  | .list values => (dumpedList values).map .list
  | .tuple values => (dumpedList values).map .list
  | .mapping isDict entries => if isDict then (dumpedEntries entries).map .dict else none

def dumpedList : List Value → Option (List Json)
  | [] => some []
  | v :: values =>
      match dumped v, dumpedList values with
      | some doc, some docs => some (doc :: docs)
      | _, _ => none

def dumpedEntries : List (Key × Value) → Option (List (String × Json))
  | [] => some []
  | (key, v) :: entries =>
      match key.name, dumped v, dumpedEntries entries with
      | some name, some doc, some docs => some ((name, doc) :: docs)
      | _, _, _ => none

end

/-- The record of `StructuredLogger.event`. -/
def eventRecord (service name outcome requestId : String) (fields : List (String × Value)) :
    Value :=
  .mapping true ((dictFrom ([("service", .str service), ("event", .str name),
    ("outcome", .str outcome), ("request_id", .str requestId)] ++ fields)).map
      fun e => (.str e.1, e.2))

/-- The document in the line that `StructuredLogger.event` hands to its sink. -/
def event (service name outcome requestId : String) (fields : List (String × Value)) :
    Option Json :=
  dumped (redact py (eventRecord service name outcome requestId fields))

/-! ## What is in a value -/

/-- A value at any depth of another. -/
inductive Value.Within : Value → Value → Prop
  | here (v : Value) : Within v v
  | item {x v : Value} {values : List Value} (hmem : v ∈ values) (h : Within x v) :
      Within x (.list values)
  | part {x v : Value} {values : List Value} (hmem : v ∈ values) (h : Within x v) :
      Within x (.tuple values)
  | entry {x v : Value} {key : Key} {isDict : Bool} {entries : List (Key × Value)}
      (hmem : (key, v) ∈ entries) (h : Within x v) : Within x (.mapping isDict entries)

/-- A value that `redact` comes upon: in a list, or under a key that is not sensitive. -/
inductive Reached : Value → Value → Prop
  | here (v : Value) : Reached v v
  | item {x v : Value} {values : List Value} (hmem : v ∈ values) (h : Reached x v) :
      Reached x (.list values)
  | entry {x v : Value} {key : String} {isDict : Bool} {entries : List (Key × Value)}
      (hmem : (key, v) ∈ dictFrom (entries.map fun e => (e.1.text, e.2)))
      (hkey : sensitive py key = false) (h : Reached x v) : Reached x (.mapping isDict entries)

/-- A document without secrets: no text in it has a marker, and what stands under a sensitive key
    is `[REDACTED]`. -/
def Clean (doc : Json) : Prop :=
  (∀ s, Json.Within (.str s) doc → marked py s = false) ∧
    ∀ entries e, Json.Within (.dict entries) doc → e ∈ entries → sensitive py e.1 = true →
      e.2 = .str "[REDACTED]"

/-- The same of a value, with the names that its keys are written under. -/
def Bare (v : Value) : Prop :=
  (∀ s, Value.Within (.str s) v → marked py s = false) ∧
    ∀ isDict entries e, Value.Within (.mapping isDict entries) v → e ∈ entries →
      (∃ name, e.1.name = some name ∧ sensitive py name = true) → e.2 = .str "[REDACTED]"

theorem clean_list {docs : List Json} : Clean py (.list docs) ↔ ∀ doc ∈ docs, Clean py doc := by
  unfold Clean
  simp only [Json.within_list, reduceCtorEq, false_or]
  constructor
  · intro h doc hdoc
    exact ⟨fun s hs => h.1 s ⟨doc, hdoc, hs⟩,
      fun entries e hw => h.2 entries e ⟨doc, hdoc, hw⟩⟩
  · intro h
    refine ⟨?_, ?_⟩
    · rintro s ⟨doc, hdoc, hs⟩
      exact (h doc hdoc).1 s hs
    · rintro entries e ⟨doc, hdoc, hw⟩
      exact (h doc hdoc).2 entries e hw

theorem clean_dict {entries : List (String × Json)} :
    Clean py (.dict entries) ↔ ∀ e ∈ entries,
      (sensitive py e.1 = true → e.2 = .str "[REDACTED]") ∧ Clean py e.2 := by
  unfold Clean
  simp only [Json.within_dict, reduceCtorEq, false_or, Json.dict.injEq]
  constructor
  · intro h e he
    exact ⟨h.2 entries e (Or.inl rfl) he, fun s hs => h.1 s ⟨e, he, hs⟩,
      fun entries' e' hw => h.2 entries' e' (Or.inr ⟨e, he, hw⟩)⟩
  · intro h
    refine ⟨?_, ?_⟩
    · rintro s ⟨e, he, hs⟩
      exact (h e he).2.1 s hs
    · rintro entries' e' (rfl | ⟨e, he, hw⟩)
      · exact fun he' => (h e' he').1
      · exact (h e he).2.2 entries' e' hw

theorem clean_str {s : String} : Clean py (.str s) ↔ marked py s = false := by
  unfold Clean
  constructor
  · intro h
    exact h.1 s (.here _)
  · intro h
    refine ⟨?_, ?_⟩
    · intro s' hs
      cases hs
      exact h
    · intro entries e hw
      cases hw

theorem bare_list {values : List Value} : Bare py (.list values) ↔ ∀ v ∈ values, Bare py v := by
  unfold Bare
  constructor
  · intro h v hv
    exact ⟨fun s hs => h.1 s (.item hv hs),
      fun isDict entries e hw => h.2 _ entries e (.item hv hw)⟩
  · intro h
    refine ⟨?_, ?_⟩
    · intro s hs
      cases hs with
      | item hmem hs => exact (h _ hmem).1 s hs
    · intro isDict entries e hw
      cases hw with
      | item hmem hw => exact (h _ hmem).2 _ entries e hw

theorem bare_tuple {values : List Value} : Bare py (.tuple values) ↔ ∀ v ∈ values, Bare py v := by
  unfold Bare
  constructor
  · intro h v hv
    exact ⟨fun s hs => h.1 s (.part hv hs),
      fun isDict entries e hw => h.2 _ entries e (.part hv hw)⟩
  · intro h
    refine ⟨?_, ?_⟩
    · intro s hs
      cases hs with
      | part hmem hs => exact (h _ hmem).1 s hs
    · intro isDict entries e hw
      cases hw with
      | part hmem hw => exact (h _ hmem).2 _ entries e hw

theorem bare_mapping {isDict : Bool} {entries : List (Key × Value)} :
    Bare py (.mapping isDict entries) ↔ ∀ e ∈ entries,
      ((∃ name, e.1.name = some name ∧ sensitive py name = true) → e.2 = .str "[REDACTED]") ∧
        Bare py e.2 := by
  unfold Bare
  constructor
  · intro h e he
    exact ⟨h.2 isDict entries e (.here _) he, fun s hs => h.1 s (.entry he hs),
      fun isDict' entries' e' hw => h.2 _ entries' e' (.entry he hw)⟩
  · intro h
    refine ⟨?_, ?_⟩
    · intro s hs
      cases hs with
      | entry hmem hs => exact (h _ hmem).2.1 s hs
    · intro isDict' entries' e' hw
      cases hw with
      | here => exact fun he' => (h e' he').1
      | entry hmem hw => exact (h _ hmem).2.2 _ entries' e' hw

theorem bare_str {s : String} : Bare py (.str s) ↔ marked py s = false := by
  unfold Bare
  constructor
  · intro h
    exact h.1 s (.here _)
  · intro h
    refine ⟨?_, ?_⟩
    · intro s' hs
      cases hs
      exact h
    · intro isDict entries e hw
      cases hw

/-! ## The document of a value -/

theorem dumpedList_some {values : List Value} {docs : List Json}
    (h : dumpedList values = some docs) :
    List.Forall₂ (fun v doc => dumped v = some doc) values docs := by
  induction values generalizing docs with
  | nil =>
      cases h
      exact .nil
  | cons v values ih =>
      unfold dumpedList at h
      split at h
      · next doc docs' hdoc hdocs =>
          cases h
          exact .cons hdoc (ih hdocs)
      · cases h

theorem dumpedEntries_some {entries : List (Key × Value)} {docs : List (String × Json)}
    (h : dumpedEntries entries = some docs) :
    List.Forall₂ (fun e d => e.1.name = some d.1 ∧ dumped e.2 = some d.2) entries docs := by
  induction entries generalizing docs with
  | nil =>
      cases h
      exact .nil
  | cons e entries ih =>
      obtain ⟨key, v⟩ := e
      unfold dumpedEntries at h
      split at h
      · next name doc docs' hname hdoc hdocs =>
          cases h
          exact .cons ⟨hname, hdoc⟩ (ih hdocs)
      · cases h

/-- A property of the parts of a container holds of both sides. -/
theorem forall_iff_of_forall₂ {α β : Type*} {R : α → β → Prop} {P : α → Prop} {Q : β → Prop}
    {as : List α} {bs : List β} (h : List.Forall₂ R as bs)
    (hiff : ∀ a ∈ as, ∀ b, R a b → (Q b ↔ P a)) : (∀ b ∈ bs, Q b) ↔ ∀ a ∈ as, P a := by
  induction h with
  | nil => simp
  | cons hr _ ih =>
      have hhead := hiff _ List.mem_cons_self _ hr
      have htail := ih fun a ha => hiff a (List.mem_cons_of_mem _ ha)
      rw [List.forall_mem_cons, List.forall_mem_cons, hhead, htail]

/-- A text is written as itself, and nothing else is written as a text. -/
theorem dumped_eq_str {v : Value} {doc : Json} (h : dumped v = some doc) (s : String) :
    doc = .str s ↔ v = .str s := by
  cases v with
  | str t =>
      cases h
      simp
  | mapping isDict entries =>
      unfold dumped at h
      split at h
      · obtain ⟨docs, -, rfl⟩ := Option.map_eq_some_iff.mp h
        simp
      · cases h
  | list values =>
      unfold dumped at h
      obtain ⟨docs, -, rfl⟩ := Option.map_eq_some_iff.mp h
      simp
  | tuple values =>
      unfold dumped at h
      obtain ⟨docs, -, rfl⟩ := Option.map_eq_some_iff.mp h
      simp
  | _ =>
      cases h
      simp

/-- A document is clean exactly if the value it was written from is bare. -/
theorem clean_dumped {v : Value} {doc : Json} (h : dumped v = some doc) :
    Clean py doc ↔ Bare py v := by
  induction v using Value.induct generalizing doc with
  | str s =>
      cases h
      rw [clean_str, bare_str]
  | list values ih =>
      unfold dumped at h
      obtain ⟨docs, hdocs, rfl⟩ := Option.map_eq_some_iff.mp h
      rw [clean_list, bare_list]
      exact forall_iff_of_forall₂ (dumpedList_some hdocs) fun v hv d hd => ih v hv hd
  | tuple values ih =>
      unfold dumped at h
      obtain ⟨docs, hdocs, rfl⟩ := Option.map_eq_some_iff.mp h
      rw [clean_list, bare_tuple]
      exact forall_iff_of_forall₂ (dumpedList_some hdocs) fun v hv d hd => ih v hv hd
  | mapping isDict entries ih =>
      unfold dumped at h
      split at h
      · obtain ⟨docs, hdocs, rfl⟩ := Option.map_eq_some_iff.mp h
        rw [clean_dict, bare_mapping]
        refine forall_iff_of_forall₂ (dumpedEntries_some hdocs) ?_
        rintro e he d ⟨hname, hd⟩
        rw [hname, dumped_eq_str hd, ih e he hd]
        simp
      · cases h
  | _ =>
      cases h
      refine ⟨fun _ => ⟨?_, ?_⟩, fun _ => ⟨?_, ?_⟩⟩
      · intro s hs
        cases hs
      · intro isDict entries e hw
        cases hw
      · intro s hs
        cases hs
      · intro entries e hw
        cases hw

/-! ## What redaction leaves -/

theorem marked_redacted : marked py "[REDACTED]" = false := by
  have hascii : ("[REDACTED]".toList.all fun c => decide (c.toNat < 128)) = true := by decide
  unfold marked
  rw [py.ascii _ fun c hc => of_decide_eq_true (List.all_eq_true.mp hascii c hc)]
  decide

theorem redactList_eq (values : List Value) : redactList py values = values.map (redact py) := by
  induction values with
  | nil => rfl
  | cons v values ih =>
      unfold redactList
      rw [ih]
      rfl

theorem redact_str (s : String) :
    redact py (.str s) = if marked py s then .str "[REDACTED]" else .str s := by
  unfold redact
  rfl

theorem redact_list (values : List Value) :
    redact py (.list values) = .list (values.map (redact py)) := by
  unfold redact
  rw [redactList_eq]

/-- The value that `redact` puts under a key. -/
def redactUnder (key : String) (v : Value) : Value :=
  if sensitive py key then .str "[REDACTED]" else redact py v

theorem redactEntries_eq (entries : List (Key × Value)) :
    redactEntries py entries =
      (entries.map fun e => (e.1.text, e.2)).map fun e => (e.1, redactUnder py e.1 e.2) := by
  induction entries with
  | nil => rfl
  | cons e entries ih =>
      obtain ⟨key, v⟩ := e
      unfold redactEntries
      rw [ih]
      rfl

theorem redact_mapping (isDict : Bool) (entries : List (Key × Value)) :
    redact py (.mapping isDict entries) =
      .mapping true ((dictFrom (entries.map fun e => (e.1.text, e.2))).map
        fun e => (.str e.1, redactUnder py e.1 e.2)) := by
  unfold redact
  rw [redactEntries_eq, dictFrom_map, List.map_map]
  rfl

/-- A mapping with different texts as keys keeps its entries. -/
theorem redact_entries {entries : List (String × Value)} (hkeys : (entries.map Prod.fst).Nodup) :
    redact py (.mapping true (entries.map fun e => (.str e.1, e.2))) =
      .mapping true (entries.map fun e => (.str e.1, redactUnder py e.1 e.2)) := by
  have hpairs : (entries.map fun e => (Key.str e.1, e.2)).map (fun e => (e.1.text, e.2)) =
      entries := by
    rw [List.map_map]
    exact List.map_id entries
  rw [redact_mapping, hpairs, dictFrom_of_nodup hkeys]

theorem reached_list {x : Value} {values : List Value} :
    Reached py x (.list values) ↔ x = .list values ∨ ∃ v ∈ values, Reached py x v := by
  constructor
  · intro h
    cases h with
    | here => exact Or.inl rfl
    | item hmem h => exact Or.inr ⟨_, hmem, h⟩
  · rintro (rfl | ⟨v, hmem, h⟩)
    · exact .here _
    · exact .item hmem h

theorem reached_mapping {x : Value} {isDict : Bool} {entries : List (Key × Value)} :
    Reached py x (.mapping isDict entries) ↔ x = .mapping isDict entries ∨
      ∃ e ∈ dictFrom (entries.map fun e => (e.1.text, e.2)),
        sensitive py e.1 = false ∧ Reached py x e.2 := by
  constructor
  · intro h
    cases h with
    | here => exact Or.inl rfl
    | entry hmem hkey h => exact Or.inr ⟨_, hmem, hkey, h⟩
  · rintro (rfl | ⟨e, hmem, hkey, h⟩)
    · exact .here _
    · exact .entry hmem hkey h

/-- A redacted value is bare exactly if the tuples that `redact` comes upon are. -/
theorem bare_redact (v : Value) :
    Bare py (redact py v) ↔ ∀ values, Reached py (.tuple values) v → Bare py (.tuple values) := by
  induction v using Value.induct with
  | str s =>
      have hbare : Bare py (redact py (.str s)) := by
        rw [redact_str]
        split
        · exact (bare_str py).mpr (marked_redacted py)
        · next hs => exact (bare_str py).mpr (Bool.eq_false_iff.mpr hs)
      refine ⟨fun _ values hr => ?_, fun _ => hbare⟩
      cases hr
  | list values ih =>
      rw [redact_list, bare_list]
      constructor
      · intro h items hr
        rcases (reached_list py).mp hr with hno | ⟨v, hv, hr⟩
        · cases hno
        · exact (ih v hv).mp (h _ (List.mem_map_of_mem hv)) items hr
      · intro h v hv
        obtain ⟨w, hw, rfl⟩ := List.mem_map.mp hv
        exact (ih w hw).mpr fun items hr => h items (.item hw hr)
  | tuple values ih =>
      constructor
      · intro h items hr
        cases hr
        exact h
      · intro h
        exact h values (.here _)
  | mapping isDict entries ih =>
      -- an entry that is kept is one of the mapping's
      have hih : ∀ e ∈ dictFrom (entries.map fun e => (e.1.text, e.2)),
          (Bare py (redact py e.2) ↔
            ∀ items, Reached py (.tuple items) e.2 → Bare py (.tuple items)) := by
        intro e he
        obtain ⟨e', he', rfl⟩ := List.mem_map.mp (mem_of_mem_dictFrom he)
        exact ih e' he'
      rw [redact_mapping, bare_mapping]
      constructor
      · intro h items hr
        rcases (reached_mapping py).mp hr with hno | ⟨e, he, hkey, hr⟩
        · cases hno
        · have hentry := (h _ (List.mem_map_of_mem he)).2
          unfold redactUnder at hentry
          rw [if_neg (by simp [hkey])] at hentry
          exact (hih e he).mp hentry items hr
      · intro h d hd
        obtain ⟨e, he, rfl⟩ := List.mem_map.mp hd
        unfold redactUnder
        cases hkey : sensitive py e.1 with
        | true => exact ⟨fun _ => rfl, (bare_str py).mpr (marked_redacted py)⟩
        | false =>
            refine ⟨?_, ?_⟩
            · rintro ⟨name, hname, hs⟩
              cases hname
              rw [hkey] at hs
              cases hs
            · exact (hih e he).mpr fun items hr => h items (.entry he hkey hr)
  | _ =>
      constructor
      · intro _ values hr
        cases hr
      · intro _
        refine ⟨?_, ?_⟩
        · intro s hs
          cases hs
        · intro isDict entries e hw
          cases hw

/-! ## The log line -/

/-- A line carries no marked secret exactly if none of the tuples that `redact` comes upon in the
    event holds one. -/
theorem event_clean_iff (service name outcome requestId : String)
    (fields : List (String × Value)) {doc : Json}
    (h : event py service name outcome requestId fields = some doc) :
    Clean py doc ↔
      ∀ values, Reached py (.tuple values) (eventRecord service name outcome requestId fields) →
        Bare py (.tuple values) := by
  rw [clean_dumped py h, bare_redact]

/-- The line of a request with two errors in a tuple. -/
theorem event_clean_tuple :
    Clean asciiLower (.dict [("service", .str "sso"), ("event", .str "http.request"),
        ("outcome", .str "error"), ("request_id", .str "req-1"),
        ("errors", .list [.str "safe", .int 500])]) ↔
      ∀ values, Reached asciiLower (.tuple values) (eventRecord "sso" "http.request" "error" "req-1"
          [("errors", .tuple [.str "safe", .int 500])]) →
        Bare asciiLower (.tuple values) :=
  event_clean_iff asciiLower "sso" "http.request" "error" "req-1"
    [("errors", .tuple [.str "safe", .int 500])] rfl

/-- A secret in a tuple is in the line. -/
theorem event_leaks_tuple :
    ∃ doc, event asciiLower "sso" "token.exchange" "rejected" "req-1"
        [("errors", .tuple [.str "Bearer nested-secret"])] = some doc ∧ ¬ Clean asciiLower doc := by
  refine ⟨.dict [("service", .str "sso"), ("event", .str "token.exchange"),
    ("outcome", .str "rejected"), ("request_id", .str "req-1"),
    ("errors", .list [.str "Bearer nested-secret"])], rfl, ?_⟩
  intro h
  have herrors := ((clean_dict asciiLower).mp h ("errors", .list [.str "Bearer nested-secret"])
    (by simp)).2
  have hsecret := (clean_list asciiLower).mp herrors (.str "Bearer nested-secret") (by simp)
  have hmarked : marked asciiLower "Bearer nested-secret" = true := by decide
  rw [clean_str, hmarked] at hsecret
  cases hsecret

end TemisLab.Observability
