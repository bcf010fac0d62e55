/-
  The middleware that `install_observability` puts around an application (`observability.py`): the
  id of a request, and where it shows: in `current_request_id`, in the log line, and in the header
  of the answer.

  Requests are tasks of one server. The context variable has a value for each task; metrics and log
  are shared. A request enters (all that is done before `await call_next`) and leaves with what the
  handler came to: an answer, an `Exception`, or a `BaseException` that is none, such as a
  cancellation, which `except Exception` lets through.

  * `marked_hex`: a generated id has no marker.
  * `inv_step`: a task that waits sees its own id, and what a request left behind is `Told`.
  * `correlated_iff`: line and answer have the same id exactly if the redactor leaves the id alone.
-/
import Mathlib.Data.Finset.Dedup
import Mathlib.Data.List.Sort
import TemisLab.Lib.Raising
import TemisLab.Lib.Slots
import TemisLab.Lib.Trace
import TemisLab.Observability.Redaction

namespace TemisLab.Observability

open TemisLab.Lib

/-! ## Headers -/

/-- The header fields of a message, names in lower case and values decoded as Latin-1. -/
abbrev Headers := List (String × String)

/-- `headers[name] = value`: the first field of the name is replaced and the others go, a new field
    is the last one. -/
def setHeader (name value : String) : Headers → Headers
  | [] => [(name, value)]
  | field :: rest =>
      if field.1 = name then (name, value) :: rest.filter fun field => field.1 ≠ name
      else field :: setHeader name value rest

theorem lookup_setHeader (name value : String) (headers : Headers) :
    (setHeader name value headers).lookup name = some value := by
  induction headers with
  | nil => simp [setHeader]
  | cons field rest ih =>
      unfold setHeader
      split
      · exact List.lookup_cons_self
      · next hname =>
          have hne : (name == field.1) = false := beq_eq_false_iff_ne.mpr (Ne.symm hname)
          rw [List.lookup_cons, hne]
          exact ih

/-! ## The id of a request -/

/-- The digits of `UUID.hex`. -/
def hexDigits : List Char :=
  ['0', '1', '2', '3', '4', '5', '6', '7', '8', '9', 'a', 'b', 'c', 'd', 'e', 'f']

/-- What `uuid4()` draws, by its `hex`. -/
structure Uuid where
  hex : String
  length : hex.length = 32
  digits : ∀ c ∈ hex.toList, c ∈ hexDigits

structure Request where
  path : String
  headers : Headers
  deriving DecidableEq, Repr

/-- `request.headers.get("x-request-id", "")`. -/
def Request.supplied (request : Request) : String :=
  (request.headers.lookup "x-request-id").getD ""

/-- `supplied.isascii() and 0 < len(supplied) <= 64`. -/
def accepted (supplied : String) : Bool :=
  (supplied.toList.all fun c => decide (c.toNat < 128)) && decide (0 < supplied.length) &&
    decide (supplied.length ≤ 64)

def requestId (request : Request) (drawn : Uuid) : String :=
  if accepted request.supplied then request.supplied else drawn.hex

/-- `_route_name`. -/
def routeName (path : String) : String :=
  (([("authorize", "authorize"), ("token", "token"), ("callback", "callback"),
    ("refresh", "refresh"), ("login", "login"), ("session", "session"), ("logout", "logout"),
    ("reports", "reports")].find? fun e => PyText.contains e.1 path).map Prod.snd).getD "other"

/-! ## Metrics and log -/

/-- `METRIC_LABELS`. -/
def metricLabels : List (String × List (String × List String)) :=
  [("temis_auth_requests_total",
      [("route", ["authorize", "token", "callback", "refresh", "login", "session", "logout",
        "reports", "other"]),
       ("outcome", ["success", "rejected", "error"])]),
   ("temis_dependency_health",
      [("dependency", ["postgres", "redis", "jwks"]), ("state", ["up", "down"])])]

/-- `Metrics._values`. -/
abbrev Metrics := String × List (String × String) → ℕ

/-- What the metrics and the sink of the logger hold. -/
structure Sinks where
  metrics : Metrics
  lines : List Json

/-- What `observe` raises. -/
inductive Raised where
  | handler (name : String)
  | interrupt
  | valueError (text : String)
  | typeError
  deriving DecidableEq, Repr

/-- `tuple(sorted(labels.items()))`; the labels have different names. -/
def sortedLabels (labels : List (String × String)) : List (String × String) :=
  labels.insertionSort fun a b => a.1 ≤ b.1

/-- `self._values[(name, tuple(sorted(labels.items())))] += 1`. -/
def Sinks.counted (s : Sinks) (name : String) (labels : List (String × String)) : Sinks :=
  { s with
    metrics := Function.update s.metrics (name, sortedLabels labels)
      (s.metrics (name, sortedLabels labels) + 1) }

/-- `Metrics.increment`. -/
def increment (name : String) (labels : List (String × String)) : Raising Raised Sinks PUnit :=
  match metricLabels.lookup name with
  | none => throw (.valueError "unknown metric or label schema")
  | some allowed =>
      if (labels.map Prod.fst).toFinset ≠ (allowed.map Prod.fst).toFinset then
        throw (.valueError "unknown metric or label schema")
      else if labels.any fun l => !((allowed.lookup l.1).getD []).contains l.2 then
        throw (.valueError "high-cardinality label value")
      else modify fun s => s.counted name labels

variable (py : Lower)

/-- `StructuredLogger.event`: the line goes to the sink. -/
def logEvent (service name outcome requestId : String) (fields : List (String × Value)) :
    Raising Raised Sinks Unit :=
  match event py service name outcome requestId fields with
  | none => throw .typeError
  | some line => modify fun s => { s with lines := s.lines ++ [line] }

/-! ## The middleware -/

structure Reply where
  status : ℕ
  headers : Headers
  deriving DecidableEq, Repr

/-- What `await call_next(request)` comes to. -/
inductive Handled where
  | reply (reply : Reply)
  | exception (name : String)
  | interrupt
  deriving DecidableEq, Repr

/-- A request in `call_next`. `saved` is what the token of the context variable restores. -/
structure Waiting where
  request : Request
  drawn : Uuid
  requestId : String
  route : String
  saved : Option String

/-- The rest of `observe`; `elapsed` is the literal of the rounded duration. -/
def conclude (service : String) (w : Waiting) (handled : Handled) (elapsed : String) :
    Raising Raised Sinks Reply :=
  match handled with
  | .reply reply => do
      let outcome := if reply.status < 400 then "success" else "rejected"
      increment "temis_auth_requests_total" [("route", w.route), ("outcome", outcome)]
      logEvent py service "http.request" outcome w.requestId
        [("route", .str w.route), ("status", .int reply.status), ("duration_ms", .float elapsed)]
      pure { reply with headers := setHeader "x-request-id" w.requestId reply.headers }
  | .exception name => do
      increment "temis_auth_requests_total" [("route", w.route), ("outcome", "error")]
      logEvent py service "http.request" "error" w.requestId [("route", .str w.route)]
      throw (.handler name)
  | .interrupt => throw .interrupt

/-- A request that is through: what its handler saw and came to, the duration that was measured, the
    lines that were logged for it, and how it ended. -/
structure Finished where
  request : Request
  drawn : Uuid
  handled : Handled
  elapsed : String
  visible : Option String
  lines : List Json
  ended : Except Raised Reply

structure Server where
  /-- `_request_id` in each task. -/
  context : ℕ → Option String
  tasks : ℕ → Option Waiting
  sinks : Sinks
  finished : List Finished

def Server.start : Server := ⟨fun _ => none, fun _ => none, ⟨fun _ => 0, []⟩, []⟩

/-- `current_request_id()` in a task. -/
def Server.currentRequestId (s : Server) (task : ℕ) : Option String := s.context task

/-- What happens: a request comes in, with the id it would be given, or its handler is done. -/
inductive Event where
  | enter (task : ℕ) (request : Request) (drawn : Uuid)
  | leave (task : ℕ) (handled : Handled) (elapsed : String)

def Server.enter (s : Server) (task : ℕ) (request : Request) (drawn : Uuid) : Server :=
  match s.tasks task with
  | some _ => s
  | none => { s with
      context := Function.update s.context task (some (requestId request drawn))
      tasks := Function.update s.tasks task (some {
        request, drawn
        requestId := requestId request drawn
        route := routeName request.path
        saved := s.context task }) }

def Server.leave (service : String) (s : Server) (task : ℕ) (handled : Handled)
    (elapsed : String) : Server :=
  match s.tasks task with
  | none => s
  | some w =>
      let concluded := (conclude py service w handled elapsed).on s.sinks
      { context := Function.update s.context task w.saved
        tasks := Function.update s.tasks task none
        sinks := concluded.2
        finished := s.finished ++ [{
          request := w.request
          drawn := w.drawn
          handled
          elapsed
          visible := s.currentRequestId task
          lines := concluded.2.lines.drop s.sinks.lines.length
          ended := concluded.1 }] }

def step (service : String) (s : Server) : Event → Server
  | .enter task request drawn => s.enter task request drawn
  | .leave task handled elapsed => s.leave py service task handled elapsed

/-! ## Correlation -/

/-- The `request_id` of a line. -/
def loggedId : Json → Option String
  | .dict entries => Dict.str entries "request_id"
  | _ => none

/-- The id that belongs to a request from outside the log: that of the answer's header, or the one
    its handler saw if there is no answer. -/
def Finished.shownId (f : Finished) : Option String :=
  match f.ended with
  | .ok reply => reply.headers.lookup "x-request-id"
  | .error _ => f.visible

/-- The lines of a request have the id of its answer. -/
def Finished.Correlates (f : Finished) : Prop := ∀ line ∈ f.lines, loggedId line = f.shownId

/-! ## What the redactor does to an id -/

/-- A text as the redactor leaves it. -/
def shown (s : String) : String := if marked py s then "[REDACTED]" else s

theorem shown_eq_iff (s : String) : shown py s = s ↔ marked py s = false := by
  unfold shown
  cases hmarked : marked py s with
  | false => simp
  | true =>
      -- the replacement itself has no marker
      refine iff_of_false ?_ nofun
      intro hs
      rw [if_pos rfl] at hs
      rw [← hs, marked_redacted] at hmarked
      cases hmarked

theorem hex_lower : (hexDigits.all fun c => decide (c.toNat < 128 ∧ c.toLower = c)) = true := by
  decide

/-- Every marker has a character that is no hexadecimal digit. -/
theorem marker_not_hex :
    (sensitiveValueMarkers.all fun m => m.toList.any fun c => !hexDigits.contains c) = true := by
  decide

theorem lower_hex {s : String} (h : ∀ c ∈ s.toList, c ∈ hexDigits) : py.lower s = s := by
  have hhex : ∀ c ∈ s.toList, c.toNat < 128 ∧ c.toLower = c := fun c hc =>
    of_decide_eq_true (List.all_eq_true.mp hex_lower c (h c hc))
  rw [py.ascii s fun c hc => (hhex c hc).1, List.map_congr_left fun c hc => (hhex c hc).2,
    List.map_id', String.ofList_toList]

/-- A generated id has no marker. -/
theorem marked_hex (drawn : Uuid) : marked py drawn.hex = false := by
  unfold marked
  rw [lower_hex py drawn.digits, List.any_eq_false]
  intro m hm hcontains
  obtain ⟨c, hc, hnot⟩ := List.any_eq_true.mp (List.all_eq_true.mp marker_not_hex m hm)
  have hdigit := drawn.digits c (PyText.mem_of_contains hcontains hc)
  rw [List.contains_iff_mem.mpr hdigit] at hnot
  cases hnot

theorem marked_requestId (request : Request) (drawn : Uuid) :
    marked py (requestId request drawn) = false ↔
      (accepted request.supplied = true → marked py request.supplied = false) := by
  unfold requestId
  cases accepted request.supplied with
  | true => simp
  | false => simp [marked_hex]

/-! ## The line of a request -/

/-- A key of ASCII characters is looked at as by ASCII's lower case. -/
theorem sensitive_ascii {key : String}
    (h : (key.toList.all fun c => decide (c.toNat < 128)) = true) :
    sensitive py key = sensitive asciiLower key := by
  unfold sensitive
  rw [py.ascii key fun c hc => of_decide_eq_true (List.all_eq_true.mp h c hc)]
  rfl

theorem dumpedEntries_isSome {entries : List (String × Value)}
    (h : ∀ e ∈ entries, (dumped e.2).isSome = true) :
    (dumpedEntries (entries.map fun e => (.str e.1, e.2))).isSome = true := by
  induction entries with
  | nil => rfl
  | cons e entries ih =>
      obtain ⟨doc, hdoc⟩ := Option.isSome_iff_exists.mp (h e List.mem_cons_self)
      obtain ⟨docs, hdocs⟩ := Option.isSome_iff_exists.mp
        (ih fun e' he' => h e' (List.mem_cons_of_mem _ he'))
      rw [List.map_cons, dumpedEntries, hdoc, hdocs]
      rfl

theorem lookup_dumped {entries : List (String × Value)} {docs : List (String × Json)}
    (h : dumpedEntries (entries.map fun e => (.str e.1, e.2)) = some docs) (key : String) :
    docs.lookup key = (entries.lookup key).bind dumped := by
  induction entries generalizing docs with
  | nil =>
      cases h
      rfl
  | cons e entries ih =>
      rw [List.map_cons, dumpedEntries] at h
      split at h
      · next name doc rest hname hdoc hrest =>
          cases h
          cases hname
          rw [List.lookup_cons, List.lookup_cons, ih hrest]
          split
          · exact hdoc.symm
          · rfl
      · cases h

/-- Under a sensitive key anything can be written. -/
theorem dumped_under {v : Value} (key : String) (h : (dumped (redact py v)).isSome = true) :
    (dumped (redactUnder py key v)).isSome = true := by
  unfold redactUnder
  split
  · rfl
  · exact h

theorem dumped_text (key s : String) : (dumped (redactUnder py key (.str s))).isSome = true := by
  refine dumped_under py key ?_
  rw [redact_str]
  split <;> rfl

/-- The key `request_id` is not sensitive. -/
theorem redactUnder_requestId (s : String) :
    redactUnder py "request_id" (.str s) = .str (shown py s) := by
  unfold redactUnder shown
  rw [sensitive_ascii py (by decide), if_neg (by decide), redact_str]
  split <;> rfl

/-- An event with fields that can be written makes one line, which has the redacted id. -/
theorem event_line (service name outcome requestId : String) {fields : List (String × Value)}
    (hkeys : (["service", "event", "outcome", "request_id"] ++ fields.map Prod.fst).Nodup)
    (hfields : ∀ e ∈ fields, (dumped (redactUnder py e.1 e.2)).isSome = true) :
    ∃ line, event py service name outcome requestId fields = some line ∧
      loggedId line = some (shown py requestId) := by
  let texts : List (String × String) :=
    [("service", service), ("event", name), ("outcome", outcome), ("request_id", requestId)]
  let entries : List (String × Value) := texts.map (fun e => (e.1, .str e.2)) ++ fields
  have hnodup : (entries.map Prod.fst).Nodup := hkeys
  have hrecord : redact py (eventRecord service name outcome requestId fields) =
      .mapping true ((entries.map fun e => (e.1, redactUnder py e.1 e.2)).map
        fun e => (.str e.1, e.2)) := by
    show redact py (.mapping true ((dictFrom entries).map fun e => (.str e.1, e.2))) = _
    rw [dictFrom_of_nodup hnodup, redact_entries py hnodup, List.map_map]
    rfl
  have hwritten : ∀ e ∈ entries.map fun e => (e.1, redactUnder py e.1 e.2),
      (dumped e.2).isSome = true := by
    rw [List.forall_mem_map]
    intro e he
    rcases List.mem_append.mp he with htext | hfield
    · obtain ⟨t, -, rfl⟩ := List.mem_map.mp htext
      exact dumped_text py t.1 t.2
    · exact hfields e hfield
  obtain ⟨docs, hdocs⟩ := Option.isSome_iff_exists.mp (dumpedEntries_isSome hwritten)
  refine ⟨.dict docs, ?_, ?_⟩
  · unfold event
    rw [hrecord, dumped, if_pos rfl, hdocs]
    rfl
  · have hid : (entries.map fun e => (e.1, redactUnder py e.1 e.2)).lookup "request_id" =
        some (.str (shown py requestId)) := by
      rw [← redactUnder_requestId]
      rfl
    show (docs.lookup "request_id").bind Json.asStr = _
    rw [lookup_dumped hdocs, hid]
    rfl

/-! ## One request -/

theorem routeName_mem (path : String) :
    routeName path ∈ ["authorize", "token", "callback", "refresh", "login", "session", "logout",
      "reports", "other"] := by
  unfold routeName
  cases hfind : List.find? _ _ with
  | none => simp
  | some e =>
      have hmem := List.mem_of_find?_eq_some hfind
      simp only [List.mem_cons, List.not_mem_nil, or_false] at hmem
      rcases hmem with rfl | rfl | rfl | rfl | rfl | rfl | rfl | rfl <;> simp

/-- The labels of the middleware are in the schema, so that counting a request raises nothing. -/
theorem increment_request {route outcome : String} (s : Sinks)
    (hroute : route ∈ ["authorize", "token", "callback", "refresh", "login", "session", "logout",
      "reports", "other"]) (houtcome : outcome ∈ ["success", "rejected", "error"]) :
    (increment "temis_auth_requests_total" [("route", route), ("outcome", outcome)]).on s =
      (.ok ⟨⟩,
        s.counted "temis_auth_requests_total" [("route", route), ("outcome", outcome)]) := by
  have hlookup : metricLabels.lookup "temis_auth_requests_total" =
      some [("route", ["authorize", "token", "callback", "refresh", "login", "session", "logout",
        "reports", "other"]), ("outcome", ["success", "rejected", "error"])] := rfl
  unfold increment
  rw [hlookup]
  dsimp only
  rw [if_neg (by simp), if_neg ?_]
  · rfl
  · rw [Bool.not_eq_true, List.any_eq_false]
    intro l hl
    simp only [List.mem_cons, List.not_mem_nil, or_false] at hl
    rw [Bool.not_eq_true, Bool.not_eq_false']
    rcases hl with rfl | rfl
    · exact List.contains_iff_mem.mpr hroute
    · exact List.contains_iff_mem.mpr houtcome

/-- The rest of a request: an answer gets the header and an exception goes on, each with one line;
    an interrupt goes on without. -/
theorem conclude_on (service : String) {w : Waiting} (handled : Handled) (elapsed : String)
    (s : Sinks) (hroute : w.route = routeName w.request.path) :
    (handled = .interrupt ∧ (conclude py service w handled elapsed).on s = (.error .interrupt, s)) ∨
      (handled ≠ .interrupt ∧ ∃ line,
        ((conclude py service w handled elapsed).on s).2.lines = s.lines ++ [line] ∧
          loggedId line = some (shown py w.requestId) ∧
          ∀ reply, ((conclude py service w handled elapsed).on s).1 = .ok reply →
            reply.headers.lookup "x-request-id" = some w.requestId) := by
  have hmem := routeName_mem w.request.path
  rw [← hroute] at hmem
  cases handled with
  | interrupt => exact Or.inl ⟨rfl, rfl⟩
  | exception name =>
      have hfields : ∀ e ∈ [("route", Value.str w.route)],
          (dumped (redactUnder py e.1 e.2)).isSome = true := by simp [dumped_text]
      obtain ⟨line, hline, hid⟩ :=
        event_line py service "http.request" "error" w.requestId (by simp) hfields
      have hcount := increment_request s hmem (List.mem_of_elem_eq_true (a := "error") rfl)
      refine Or.inr ⟨by simp, line, ?_⟩
      unfold conclude logEvent
      simp only [Raising.on_bind, hcount, hline, Raising.on_modify]
      refine ⟨rfl, hid, ?_⟩
      intro reply hreply
      cases hreply
  | reply reply =>
      have houtcome : (if reply.status < 400 then "success" else "rejected") ∈
          ["success", "rejected", "error"] := by
        split <;> simp
      have hfields : ∀ e ∈ [("route", Value.str w.route), ("status", .int reply.status),
          ("duration_ms", .float elapsed)], (dumped (redactUnder py e.1 e.2)).isSome = true := by
        have hstatus := dumped_under py (v := .int reply.status) "status"
          (by unfold redact; rfl)
        have hduration := dumped_under py (v := .float elapsed) "duration_ms"
          (by unfold redact; rfl)
        simp [dumped_text, hstatus, hduration]
      obtain ⟨line, hline, hid⟩ := event_line py service "http.request"
        (if reply.status < 400 then "success" else "rejected") w.requestId (by simp) hfields
      have hcount := increment_request s hmem houtcome
      refine Or.inr ⟨by simp, line, ?_⟩
      unfold conclude logEvent
      simp only [Raising.on_bind, hcount, hline, Raising.on_modify]
      refine ⟨rfl, hid, ?_⟩
      intro reply' hreply
      cases hreply
      exact lookup_setHeader "x-request-id" w.requestId reply.headers

/-! ## Runs -/

/-- What a request leaves behind: its id outside the log, and a line with the id as the redactor
    leaves it, unless it was interrupted. -/
structure Told (f : Finished) : Prop where
  shownId : f.shownId = some (requestId f.request f.drawn)
  lines : (f.handled = .interrupt ∧ f.lines = []) ∨ (f.handled ≠ .interrupt ∧
    ∃ line, f.lines = [line] ∧ loggedId line = some (shown py (requestId f.request f.drawn)))

/-- A request that waits for its handler. -/
structure Seen (s : Server) (task : ℕ) (w : Waiting) : Prop where
  requestId : w.requestId = requestId w.request w.drawn
  route : w.route = routeName w.request.path
  visible : s.currentRequestId task = some w.requestId

/-- Other tasks do not change what a task sees. -/
theorem Seen.frame {s s' : Server} {task : ℕ} {w : Waiting} (h : Seen s task w)
    (hcontext : s'.context task = s.context task) : Seen s' task w :=
  ⟨h.requestId, h.route, hcontext.trans h.visible⟩

structure Inv (s : Server) : Prop where
  waiting : ∀ task w, s.tasks task = some w → Seen s task w
  finished : ∀ f ∈ s.finished, Told py f

theorem inv_start : Inv py .start := ⟨nofun, nofun⟩

theorem inv_enter {s : Server} (h : Inv py s) (task : ℕ) (request : Request) (drawn : Uuid) :
    Inv py (s.enter task request drawn) := by
  unfold Server.enter
  split
  · exact h
  · refine ⟨?_, h.finished⟩
    intro task' w hw
    rcases slot_set hw with ⟨hne, hw⟩ | ⟨rfl, rfl⟩
    · exact (h.waiting task' w hw).frame (Function.update_of_ne hne _ _)
    · exact ⟨rfl, rfl, Function.update_self _ _ _⟩

/-- What a waiting request leaves behind. -/
theorem told_leave {service : String} {s : Server} {task : ℕ} {w : Waiting} (hw : Seen s task w)
    (handled : Handled) (elapsed : String) :
    Told py {
      request := w.request
      drawn := w.drawn
      handled
      elapsed
      visible := s.currentRequestId task
      lines := ((conclude py service w handled elapsed).on s.sinks).2.lines.drop
        s.sinks.lines.length
      ended := ((conclude py service w handled elapsed).on s.sinks).1 } := by
  rcases conclude_on py service handled elapsed s.sinks hw.route with
    ⟨rfl, hon⟩ | ⟨hhandled, line, hlines, hid, hheader⟩
  · rw [hon]
    refine ⟨?_, Or.inl ⟨rfl, List.drop_length⟩⟩
    rw [← hw.requestId]
    exact hw.visible
  · refine ⟨?_, Or.inr ⟨hhandled, line, ?_, ?_⟩⟩
    · rw [← hw.requestId]
      unfold Finished.shownId
      split
      · next reply hended => exact hheader reply hended
      · exact hw.visible
    · show List.drop _ _ = _
      rw [hlines, List.drop_left]
    · rw [← hw.requestId]
      exact hid

theorem inv_leave {service : String} {s : Server} (h : Inv py s) (task : ℕ) (handled : Handled)
    (elapsed : String) : Inv py (s.leave py service task handled elapsed) := by
  unfold Server.leave
  split
  · exact h
  · next w hw =>
      refine ⟨?_, ?_⟩
      · intro task' w' hw'
        obtain ⟨hne, hw'⟩ := slot_clear hw'
        exact (h.waiting task' w' hw').frame (Function.update_of_ne hne _ _)
      · intro f hf
        rcases List.mem_append.mp hf with hold | hnew
        · exact h.finished f hold
        · rw [List.mem_singleton.mp hnew]
          exact told_leave py (h.waiting task w hw) handled elapsed

theorem inv_step {service : String} {s : Server} (h : Inv py s) (event : Event) :
    Inv py (step py service s event) := by
  cases event with
  | enter task request drawn => exact inv_enter py h task request drawn
  | leave task handled elapsed => exact inv_leave py h task handled elapsed

/-- In every run, the line of a request and its answer have the same id exactly if the request was
    interrupted or the header that was accepted as its id has no marker. -/
theorem correlated_iff (service : String) (events : List Event) {f : Finished}
    (hf : f ∈ (run (step py service) .start events).finished) :
    f.Correlates ↔ f.handled = .interrupt ∨
      (accepted f.request.supplied = true → marked py f.request.supplied = false) := by
  have hinv : Inv py (run (step py service) .start events) :=
    run_always _ (Inv py) (fun _ event h => inv_step py h event) (inv_start py) events
  have htold := hinv.finished f hf
  unfold Finished.Correlates
  rcases htold.lines with ⟨hinterrupt, hlines⟩ | ⟨hhandled, line, hlines, hid⟩
  · rw [hlines]
    exact iff_of_true nofun (Or.inl hinterrupt)
  · rw [hlines, List.forall_mem_singleton, hid, htold.shownId, Option.some_inj, shown_eq_iff,
      marked_requestId]
    exact (or_iff_right hhandled).symm

/-! ## Samples -/

def sampleUuid : Uuid where
  hex := "6f1c2a9be04d47d8a3b57e90c1f2d364"
  length := by decide
  digits := fun c hc => List.contains_iff_mem.mp (List.all_eq_true.mp
    (by decide : ("6f1c2a9be04d47d8a3b57e90c1f2d364".toList.all fun c => hexDigits.contains c) =
      true) c hc)

/-- Two requests at once. The one with a header is answered after the other one has failed. -/
def sampleEvents (supplied : String) : List Event :=
  [.enter 0 ⟨"/oauth/token", [("host", "sso.lab"), ("x-request-id", supplied)]⟩ sampleUuid,
    .enter 1 ⟨"/login", [("host", "sso.lab")]⟩ sampleUuid,
    .leave 1 (.exception "DependencyUnavailable") "3.07",
    .leave 0 (.reply ⟨200, [("content-type", "application/json")]⟩) "0.52"]

/-- What the answered one leaves behind if its line has the id `logged`. -/
def sampleFinished (supplied logged : String) : Finished where
  request := ⟨"/oauth/token", [("host", "sso.lab"), ("x-request-id", supplied)]⟩
  drawn := sampleUuid
  handled := .reply ⟨200, [("content-type", "application/json")]⟩
  elapsed := "0.52"
  visible := some supplied
  lines := [.dict [("service", .str "sso"), ("event", .str "http.request"),
    ("outcome", .str "success"), ("request_id", .str logged), ("route", .str "token"),
    ("status", .int 200), ("duration_ms", .float "0.52")]]
  ended := .ok ⟨200, [("content-type", "application/json"), ("x-request-id", supplied)]⟩

theorem correlated_fixed :
    (sampleFinished "req-fixed" "req-fixed").Correlates ↔
      (sampleFinished "req-fixed" "req-fixed").handled = .interrupt ∨
        (accepted "req-fixed" = true → marked asciiLower "req-fixed" = false) :=
  correlated_iff asciiLower "sso" (sampleEvents "req-fixed")
    (List.mem_cons_of_mem _ List.mem_cons_self)

/-- An accepted id that is redacted in the line and not in the answer. -/
theorem csrf_uncorrelated :
    accepted "csrf-1" = true ∧
      sampleFinished "csrf-1" "[REDACTED]" ∈
        (run (step asciiLower "sso") .start (sampleEvents "csrf-1")).finished ∧
      ¬ (sampleFinished "csrf-1" "[REDACTED]").Correlates := by
  refine ⟨by decide, List.mem_cons_of_mem _ List.mem_cons_self, ?_⟩
  intro h
  have hid := h _ List.mem_cons_self
  revert hid
  decide

end TemisLab.Observability
