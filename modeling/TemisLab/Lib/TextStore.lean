/-
  A server of texts under keys (Redis with `decode_responses`): `SET` with an expiry, `GET`,
  `GETDEL` and `DEL`; and what is kept there: dictionaries of texts, `json.dumps(d)`, and
  dataclasses of texts, `json.dumps(asdict(a))` and `C(**json.loads(text))`.

  Several stores of typed values share one server where their keys differ: `Shows` is what the
  server has under the keys of one of them.

  * `read_keep`: a dataclass is read back from what is kept of it.
  * `construct_texts`: what `C(**d)` makes of any dictionary of texts.
-/
import TemisLab.Lib.JsonText
import TemisLab.Lib.OneTime

namespace TemisLab.Lib

/-! ## The server -/

/-- Texts with their deadlines. -/
abbrev Texts (κ τ : Type*) := κ → Option (String × τ)

namespace Texts

variable {κ τ ν : Type*}

def empty : Texts κ τ := fun _ => none

/-- `GET k` at `now`. -/
def get [LT τ] [DecidableLT τ] (r : Texts κ τ) (k : κ) (now : τ) : Option String :=
  (r k).bind fun (text, deadline) => if now < deadline then some text else none

section Operations

variable [DecidableEq κ]

/-- `SET k text` with an expiry. -/
def set (r : Texts κ τ) (k : κ) (text : String) (deadline : τ) : Texts κ τ :=
  Function.update r k (some (text, deadline))

/-- `DEL k`. -/
def delete (r : Texts κ τ) (k : κ) : Texts κ τ := Function.update r k none

/-- `GETDEL k` at `now`. -/
def getdel [LT τ] [DecidableLT τ] (r : Texts κ τ) (k : κ) (now : τ) : Option String × Texts κ τ :=
  (r.get k now, r.delete k)

end Operations

/-- Under the keys of `on`, the server has the values of `live` as texts. -/
def Shows (r : Texts κ τ) (on : κ → Prop) (encode : ν → String) (live : κ → Option (ν × τ)) :
    Prop :=
  ∀ k, on k → r k = (live k).map fun (v, d) => (encode v, d)

section Shows

variable {r : Texts κ τ} {on : κ → Prop} {encode : ν → String} {live : κ → Option (ν × τ)} {k : κ}

theorem shows_empty : (empty : Texts κ τ).Shows on encode fun _ => none := fun _ _ => rfl

theorem Shows.get [LT τ] [DecidableLT τ] (h : r.Shows on encode live) (hk : on k) (now : τ) :
    r.get k now =
      ((live k).bind fun (v, d) => if now < d then some v else none).map encode := by
  unfold Texts.get
  rw [h k hk]
  cases live k with
  | none => rfl
  | some p =>
      dsimp only [Option.map_some, Option.bind_some]
      split <;> rfl

variable [DecidableEq κ]

theorem Shows.set (h : r.Shows on encode live) (k : κ) (v : ν) (d : τ) :
    (r.set k (encode v) d).Shows on encode (Function.update live k (some (v, d))) := by
  intro k' hk'
  by_cases hk : k' = k
  · subst hk
    rw [Texts.set, Function.update_self, Function.update_self]
    rfl
  · rw [Texts.set, Function.update_of_ne hk, Function.update_of_ne hk]
    exact h k' hk'

theorem Shows.delete (h : r.Shows on encode live) (k : κ) :
    (r.delete k).Shows on encode (Function.update live k none) := by
  intro k' hk'
  by_cases hk : k' = k
  · subst hk
    rw [Texts.delete, Function.update_self, Function.update_self]
    rfl
  · rw [Texts.delete, Function.update_of_ne hk, Function.update_of_ne hk]
    exact h k' hk'

/-- A text under the key of another store does not show. -/
theorem Shows.set_other (h : r.Shows on encode live) (hk : ¬ on k) (text : String) (d : τ) :
    (r.set k text d).Shows on encode live := by
  intro k' hk'
  have hne : k' ≠ k := fun he => hk (he ▸ hk')
  rw [Texts.set, Function.update_of_ne hne]
  exact h k' hk'

theorem Shows.delete_other (h : r.Shows on encode live) (hk : ¬ on k) :
    (r.delete k).Shows on encode live := by
  intro k' hk'
  have hne : k' ≠ k := fun he => hk (he ▸ hk')
  rw [Texts.delete, Function.update_of_ne hne]
  exact h k' hk'

end Shows

end Texts

/-! ## Dictionaries of texts -/

/-- `d` as a JSON value. -/
def jsonOf (d : List (String × String)) : Json := .dict (d.map fun (key, s) => (key, .str s))

/-- The texts of a dictionary whose values are texts. -/
def textsOf : Json → Option (List (String × String))
  | .dict entries => entries.mapM fun (key, v) => v.asStr.map fun s => (key, s)
  | _ => none

@[simp] theorem textsOf_jsonOf (d : List (String × String)) : textsOf (jsonOf d) = some d := by
  show (d.map fun (key, s) => (key, Json.str s)).mapM _ = _
  induction d with
  | nil => rfl
  | cons e d ih =>
      rw [List.map_cons, List.mapM_cons, ih]
      rfl

/-- `json.dumps(d)`. -/
def dumpsTexts (d : List (String × String)) : String :=
  String.ofList (JsonText.dumps .default (jsonOf d))

/-- `json.loads(text)`. -/
def loadsText (text : String) : Except JsonText.DecodeError Json := JsonText.loads text.toList

theorem loadsText_dumpsTexts {d : List (String × String)} (h : (d.map Prod.fst).Nodup) :
    loadsText (dumpsTexts d) = .ok (jsonOf d) := by
  unfold loadsText dumpsTexts
  rw [String.toList_ofList]
  exact JsonText.loads_dumps .default (JsonText.plain_texts h)

/-! ## Dataclasses of texts -/

/-- Why a text is not read: `json.loads` raises, `C(**value)` raises a `TypeError`, or there is a
    value that is no text. The last is no error of Python, and no value here. -/
inductive ReadError where
  | decode (error : JsonText.DecodeError)
  | typeError
  | notText
  deriving DecidableEq, Repr

/-- A dataclass with its fields in order, all of them texts. -/
structure Dataclass (α : Type) where
  fields : List String
  values : α → List String
  /-- `C(*values)`. -/
  ofValues : List String → Option α
  nodup : fields.Nodup
  length_values : ∀ a, (values a).length = fields.length
  ofValues_values : ∀ a, ofValues (values a) = some a

/-- The values of `d` under the names, in their order. -/
def pick {β : Type} (d : List (String × β)) : List String → Option (List β)
  | [] => some []
  | name :: names =>
      match d.lookup name, pick d names with
      | some v, some values => some (v :: values)
      | _, _ => none

theorem pick_map {β γ : Type} (f : β → γ) (d : List (String × β)) (names : List String) :
    pick (d.map fun (key, v) => (key, f v)) names = (pick d names).map fun vs => vs.map f := by
  have hlookup : ∀ name, (d.map fun (key, v) => (key, f v)).lookup name =
      (d.lookup name).map f := by
    intro name
    induction d with
    | nil => rfl
    | cons e d ih =>
        rw [List.map_cons, List.lookup_cons, List.lookup_cons, ih]
        split <;> rfl
  induction names with
  | nil => rfl
  | cons name names ih =>
      unfold pick
      rw [hlookup, ih]
      cases d.lookup name with
      | none => rfl
      | some v =>
          cases pick d names with
          | none => rfl
          | some values => rfl

/-- Another name in front does not matter. -/
theorem pick_cons_of_not_mem {β : Type} {name : String} {names : List String} (v : β)
    (d : List (String × β)) (h : name ∉ names) : pick ((name, v) :: d) names = pick d names := by
  induction names with
  | nil => rfl
  | cons name' names ih =>
      have hne : (name' == name) = false := by
        rw [beq_eq_false_iff_ne]
        exact fun he => h (he ▸ List.mem_cons_self)
      unfold pick
      rw [List.lookup_cons, hne, ih fun hmem => h (List.mem_cons_of_mem _ hmem)]

theorem pick_zip {β : Type} {names : List String} (h : names.Nodup) {values : List β}
    (hlength : values.length = names.length) : pick (names.zip values) names = some values := by
  induction names generalizing values with
  | nil => rw [List.length_eq_zero_iff.mp hlength]; rfl
  | cons name names ih =>
      cases values with
      | nil => cases hlength
      | cons v values =>
          obtain ⟨hnew, hnodup⟩ := List.nodup_cons.mp h
          unfold pick
          rw [List.zip_cons_cons, List.lookup_cons_self, pick_cons_of_not_mem v _ hnew,
            ih hnodup (Nat.succ.inj hlength)]

namespace Dataclass

variable {α : Type} (c : Dataclass α)

/-- `asdict(a)`. -/
def asdict (a : α) : List (String × String) := c.fields.zip (c.values a)

/-- The values of a dictionary with just the fields as its keys. -/
def args {β : Type} (d : List (String × β)) : Option (List β) :=
  if d.length = c.fields.length then pick d c.fields else none

/-- `C(**value)`. -/
def construct : Json → Except ReadError α
  | .dict entries =>
      match c.args entries with
      | none => .error .typeError
      | some values =>
          match values.mapM Json.asStr with
          | none => .error .notText
          | some texts =>
              match c.ofValues texts with
              | none => .error .typeError
              | some a => .ok a
  | _ => .error .typeError

/-- `json.dumps(asdict(a))`. -/
def keep (a : α) : String := dumpsTexts (c.asdict a)

/-- `C(**json.loads(text))`. -/
def read (text : String) : Except ReadError α :=
  match loadsText text with
  | .error e => .error (.decode e)
  | .ok v => c.construct v

variable {c}

theorem nodup_asdict (a : α) : ((c.asdict a).map Prod.fst).Nodup := by
  unfold asdict
  rw [List.map_fst_zip (Nat.le_of_eq (c.length_values a).symm)]
  exact c.nodup

/-- A dictionary of texts is a value if it has the fields as its keys. -/
theorem construct_texts (d : List (String × String)) :
    c.construct (jsonOf d) = match (c.args d).bind c.ofValues with
      | none => .error .typeError
      | some a => .ok a := by
  have hargs : c.args (d.map fun (key, s) => (key, Json.str s)) =
      (c.args d).map fun texts => texts.map .str := by
    unfold args
    rw [List.length_map, pick_map]
    split <;> rfl
  have htexts : ∀ texts : List String, (texts.map Json.str).mapM Json.asStr = some texts := by
    intro texts
    induction texts with
    | nil => rfl
    | cons s texts ih =>
        rw [List.map_cons, List.mapM_cons, ih]
        rfl
  show (match c.args (d.map fun (key, s) => (key, Json.str s)) with
    | none => _
    | some values => _) = _
  rw [hargs]
  cases c.args d with
  | none => rfl
  | some texts =>
      dsimp only [Option.map_some, Option.bind_some]
      rw [htexts]

theorem construct_asdict (a : α) : c.construct (jsonOf (c.asdict a)) = .ok a := by
  have hlength : (c.asdict a).length = c.fields.length := by
    rw [asdict, List.length_zip, c.length_values, Nat.min_self]
  have hargs : c.args (c.asdict a) = some (c.values a) := by
    unfold args
    rw [if_pos hlength]
    exact pick_zip c.nodup (c.length_values a)
  rw [construct_texts, hargs, Option.bind_some, c.ofValues_values]

/-- What is kept is read back. -/
@[simp] theorem read_keep (a : α) : c.read (c.keep a) = .ok a := by
  unfold read keep
  rw [loadsText_dumpsTexts (nodup_asdict a)]
  exact construct_asdict a

end Dataclass

end TemisLab.Lib
