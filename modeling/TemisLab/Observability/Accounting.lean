/-
  What the counters, the log and the requests of the middleware say of each other (`observe`,
  `StructuredLogger.event`, `Metrics.increment` in `observability.py`).

  * `event_request`: the record of a request, entry by entry.
  * `conclude_sinks`: what a request adds to the counters and the log.
  * `requests_accounted`: however requests overlap, each counter is the number of the requests that
    ended so, and the log has the record of each of them, in the order in which they ended. The id
    in a record is the one that the redactor shows (`shown`).
-/
import TemisLab.Observability.Middleware

namespace TemisLab.Observability

open TemisLab.Lib

/-- The outcome of a request; an interrupted one has none. -/
def Handled.outcome : Handled → Option String
  | .reply r => some (if r.status < 400 then "success" else "rejected")
  | .exception _ => some "error"
  | .interrupt => none

/-- The fields of the event after the route. -/
def Handled.fields (elapsed : String) : Handled → List (String × Json)
  | .reply r => [("status", .int r.status), ("duration_ms", .float elapsed)]
  | _ => []

/-- A name and sorted labels. -/
abbrev Series := String × List (String × String)

def requestSeries (route outcome : String) : Series :=
  ("temis_auth_requests_total", [("outcome", outcome), ("route", route)])

/-- The series a request is counted in. -/
def Finished.series (f : Finished) : Option Series :=
  f.handled.outcome.map (requestSeries (routeName f.request.path))

variable (py : Lower)

/-- The record of a request. -/
def record (service outcome id route : String) (fields : List (String × Json)) : Json :=
  .dict ([("service", .str (shown py service)), ("event", .str "http.request"),
    ("outcome", .str outcome), ("request_id", .str (shown py id)), ("route", .str route)] ++ fields)

/-- The records of a request: one, or none if it was interrupted. -/
def Finished.records (service : String) (f : Finished) : List Json :=
  f.handled.outcome.toList.map fun outcome =>
    record py service outcome (requestId f.request f.drawn) (routeName f.request.path)
      (f.handled.fields f.elapsed)

/-! ## One request -/

/-- A text without a marker is shown as it is. -/
theorem shown_plain {s : String} (hascii : (s.toList.all fun c => decide (c.toNat < 128)) = true)
    (h : marked asciiLower s = false) : shown py s = s := by
  refine (shown_eq_iff py s).mpr ?_
  unfold marked at h ⊢
  rw [py.ascii s fun c hc => of_decide_eq_true (List.all_eq_true.mp hascii c hc)]
  exact h

theorem shown_route (path : String) : shown py (routeName path) = routeName path := by
  have hmem := routeName_mem path
  simp only [List.mem_cons, List.not_mem_nil, or_false] at hmem
  rcases hmem with h | h | h | h | h | h | h | h | h <;> rw [h] <;>
    exact shown_plain py (by decide) (by decide)

theorem shown_outcome {handled : Handled} {outcome : String} (h : handled.outcome = some outcome) :
    shown py outcome = outcome ∧ outcome ∈ ["success", "rejected", "error"] := by
  have hmem : outcome ∈ ["success", "rejected", "error"] := by
    cases handled with
    | reply reply =>
        cases h
        split <;> simp
    | exception name =>
        cases h
        simp
    | interrupt => cases h
  refine ⟨?_, hmem⟩
  simp only [List.mem_cons, List.not_mem_nil, or_false] at hmem
  rcases hmem with h | h | h <;> rw [h] <;> exact shown_plain py (by decide) (by decide)

/-- A value under a key that is not sensitive. -/
theorem redactUnder_plain {key : String}
    (hascii : (key.toList.all fun c => decide (c.toNat < 128)) = true)
    (hkey : sensitive asciiLower key = false) (v : Value) :
    redactUnder py key v = redact py v := by
  unfold redactUnder
  rw [sensitive_ascii py hascii, hkey]
  exact if_neg Bool.false_ne_true

theorem dumped_redact_str (s : String) :
    dumped (redact py (.str s)) = some (.str (shown py s)) := by
  rw [redact_str]
  unfold shown
  split <;> rfl

/-- The fields that `observe` gives. -/
def Handled.values (elapsed : String) : Handled → List (String × Value)
  | .reply r => [("status", .int r.status), ("duration_ms", .float elapsed)]
  | _ => []

/-- The record before it is redacted. -/
def observed (service outcome id route : String) (fields : List (String × Value)) :
    List (String × Value) :=
  [("service", .str service), ("event", .str "http.request"), ("outcome", .str outcome),
    ("request_id", .str id), ("route", .str route)] ++ fields

/-- What is written of a field. -/
structure Writes (e : String × Value) (d : String × Json) : Prop where
  key : e.1 = d.1
  value : dumped (redactUnder py e.1 e.2) = some d.2

theorem writes_text {key : String}
    (hascii : (key.toList.all fun c => decide (c.toNat < 128)) = true)
    (hkey : sensitive asciiLower key = false) {s t : String} (h : shown py s = t) :
    Writes py (key, .str s) (key, .str t) := by
  refine ⟨rfl, ?_⟩
  dsimp only
  rw [redactUnder_plain py hascii hkey, dumped_redact_str, h]

/-- A mapping of fields is written field by field. -/
theorem dumped_fields {entries : List (String × Value)} {docs : List (String × Json)}
    (hkeys : (entries.map Prod.fst).Nodup) (h : List.Forall₂ (Writes py) entries docs) :
    dumped (redact py (.mapping true (entries.map fun e => (.str e.1, e.2)))) =
      some (.dict docs) := by
  have hdocs : dumpedEntries (entries.map fun e => (.str e.1, redactUnder py e.1 e.2)) =
      some docs := by
    clear hkeys
    induction h with
    | nil => rfl
    | cons hw _ ih =>
        rw [List.map_cons, dumpedEntries, ih, hw.value, hw.key]
        rfl
  rw [redact_entries py hkeys, dumped, if_pos rfl, hdocs]
  rfl

theorem writes_fields (handled : Handled) (elapsed : String) :
    List.Forall₂ (Writes py) (handled.values elapsed) (handled.fields elapsed) := by
  cases handled with
  | reply reply =>
      refine .cons ⟨rfl, ?_⟩ (.cons ⟨rfl, ?_⟩ .nil)
      · dsimp only
        rw [redactUnder_plain py (by decide) (by decide)]
        unfold redact
        rfl
      · dsimp only
        rw [redactUnder_plain py (by decide) (by decide)]
        unfold redact
        rfl
  | exception name => exact .nil
  | interrupt => exact .nil

/-- The record of a request, entry by entry. -/
theorem event_request (service : String) {handled : Handled} {outcome : String}
    (houtcome : handled.outcome = some outcome) (id path elapsed : String) :
    event py service "http.request" outcome id
        (("route", .str (routeName path)) :: handled.values elapsed) =
      some (record py service outcome id (routeName path) (handled.fields elapsed)) := by
  have hkeys : ((observed service outcome id (routeName path) (handled.values elapsed)).map
      Prod.fst).Nodup := by
    cases handled with
    | reply reply => exact (by decide : ["service", "event", "outcome", "request_id", "route",
        "status", "duration_ms"].Nodup)
    | exception name => exact (by decide : ["service", "event", "outcome", "request_id",
        "route"].Nodup)
    | interrupt => cases houtcome
  have hwrites : List.Forall₂ (Writes py)
      (observed service outcome id (routeName path) (handled.values elapsed))
      ([("service", .str (shown py service)), ("event", .str "http.request"),
        ("outcome", .str outcome), ("request_id", .str (shown py id)),
        ("route", .str (routeName path))] ++ handled.fields elapsed) :=
    .cons (writes_text py (by decide) (by decide) rfl)
      (.cons (writes_text py (by decide) (by decide) (shown_plain py (by decide) (by decide)))
        (.cons (writes_text py (by decide) (by decide) (shown_outcome py houtcome).1)
          (.cons (writes_text py (by decide) (by decide) rfl)
            (.cons (writes_text py (by decide) (by decide) (shown_route py path))
              (writes_fields py handled elapsed)))))
  have hrecord : eventRecord service "http.request" outcome id
      (("route", .str (routeName path)) :: handled.values elapsed) =
        .mapping true ((observed service outcome id (routeName path)
          (handled.values elapsed)).map fun e => (.str e.1, e.2)) := by
    show Value.mapping true ((dictFrom (observed service outcome id (routeName path)
      (handled.values elapsed))).map fun e => (.str e.1, e.2)) = _
    rw [dictFrom_of_nodup hkeys]
  unfold event
  rw [hrecord, dumped_fields py hkeys hwrites]
  rfl

theorem sortedLabels_request (route outcome : String) :
    sortedLabels [("route", route), ("outcome", outcome)] =
      [("outcome", outcome), ("route", route)] := by
  have hle : ¬ "route" ≤ "outcome" := by decide
  unfold sortedLabels
  simp only [List.insertionSort_cons, List.insertionSort_nil, List.orderedInsert_nil,
    List.orderedInsert_cons, if_neg hle]

theorem counted_request (s : Sinks) (route outcome : String) :
    s.counted "temis_auth_requests_total" [("route", route), ("outcome", outcome)] =
      { s with
        metrics := Function.update s.metrics (requestSeries route outcome)
          (s.metrics (requestSeries route outcome) + 1) } := by
  unfold Sinks.counted
  rw [sortedLabels_request]
  rfl

/-- What a request adds to the counters and the log: nothing if it was interrupted. -/
theorem conclude_sinks (service : String) {w : Waiting} (handled : Handled) (elapsed : String)
    (s : Sinks) (hroute : w.route = routeName w.request.path) :
    ((conclude py service w handled elapsed).on s).2 =
      match handled.outcome with
      | none => s
      | some outcome =>
          { metrics := Function.update s.metrics (requestSeries w.route outcome)
              (s.metrics (requestSeries w.route outcome) + 1)
            lines := s.lines ++
              [record py service outcome w.requestId w.route (handled.fields elapsed)] } := by
  have hmem := routeName_mem w.request.path
  cases houtcome : handled.outcome with
  | none =>
      cases handled with
      | reply reply => cases houtcome
      | exception name => cases houtcome
      | interrupt => rfl
  | some outcome =>
      have hcount := increment_request s hmem (shown_outcome py houtcome).2
      have hline := event_request py service houtcome w.requestId w.request.path elapsed
      rw [← hroute] at hcount hline
      cases handled with
      | reply reply =>
          cases houtcome
          unfold conclude logEvent
          simp only [Raising.on_bind, hcount, counted_request]
          simp only [Handled.values] at hline
          rw [hline]
          rfl
      | exception name =>
          cases houtcome
          unfold conclude logEvent
          simp only [Raising.on_bind, hcount, counted_request]
          simp only [Handled.values] at hline
          rw [hline]
          rfl
      | interrupt => cases houtcome

/-! ## Runs -/

/-- What is known of a request that waits. -/
structure Waiting.Kept (w : Waiting) : Prop where
  requestId : w.requestId = Observability.requestId w.request w.drawn
  route : w.route = routeName w.request.path

/-- The counters count the requests, and the log has their records. `P` is what is known of what the
    handlers come to and of the durations. -/
structure Accounted (P : Handled → String → Prop) (service : String) (s : Server) : Prop where
  waiting : ∀ task w, s.tasks task = some w → w.Kept
  metrics : ∀ k, s.sinks.metrics k = (s.finished.filterMap Finished.series).count k
  lines : s.sinks.lines = s.finished.flatMap Finished.lines
  records : ∀ f ∈ s.finished, P f.handled f.elapsed ∧ f.lines = f.records py service

variable {P : Handled → String → Prop} {service : String} {s : Server}

theorem accounted_start : Accounted py P service .start where
  waiting _ _ h := by cases h
  metrics _ := rfl
  lines := rfl
  records _ h := by cases h

theorem Accounted.enter (h : Accounted py P service s) (task : ℕ) (request : Request)
    (drawn : Uuid) : Accounted py P service (s.enter task request drawn) := by
  unfold Server.enter
  split
  · exact h
  · refine ⟨?_, h.metrics, h.lines, h.records⟩
    intro task' w hw
    rcases slot_set hw with ⟨-, hw⟩ | ⟨-, rfl⟩
    · exact h.waiting task' w hw
    · exact ⟨rfl, rfl⟩

theorem Accounted.leave (h : Accounted py P service s) (task : ℕ) (handled : Handled)
    {elapsed : String} (helapsed : P handled elapsed) :
    Accounted py P service (s.leave py service task handled elapsed) := by
  unfold Server.leave
  split
  · exact h
  · next w hw =>
      have hkept := h.waiting task w hw
      have hsinks := conclude_sinks py service handled elapsed s.sinks hkept.route
      have hseries : ∀ visible lines ended,
          (⟨w.request, w.drawn, handled, elapsed, visible, lines, ended⟩ : Finished).series =
            handled.outcome.map (requestSeries w.route) := by
        intro visible lines ended
        rw [hkept.route]
        rfl
      have hrecords : ∀ visible lines ended,
          (⟨w.request, w.drawn, handled, elapsed, visible, lines, ended⟩ : Finished).records py
            service = handled.outcome.toList.map fun outcome =>
              record py service outcome w.requestId w.route (handled.fields elapsed) := by
        intro visible lines ended
        rw [hkept.route, hkept.requestId]
        rfl
      cases houtcome : handled.outcome with
      | none =>
          rw [houtcome] at hsinks hseries hrecords
          dsimp only at hsinks
          refine ⟨fun task' w' hw' => h.waiting task' w' (slot_clear hw').2, ?_, ?_, ?_⟩
          · intro k
            dsimp only
            rw [List.filterMap_append, List.filterMap_cons_none (hseries _ _ _),
              List.filterMap_nil, List.append_nil, hsinks]
            exact h.metrics k
          · dsimp only
            rw [List.flatMap_append, hsinks, List.drop_length, List.flatMap_singleton,
              List.append_nil]
            exact h.lines
          · intro f hf
            rcases List.mem_append.mp hf with hold | hnew
            · exact h.records f hold
            · rw [List.mem_singleton.mp hnew]
              refine ⟨helapsed, ?_⟩
              rw [hrecords, hsinks]
              exact List.drop_length
      | some outcome =>
          rw [houtcome] at hsinks hseries hrecords
          dsimp only at hsinks
          refine ⟨fun task' w' hw' => h.waiting task' w' (slot_clear hw').2, ?_, ?_, ?_⟩
          · intro k
            dsimp only
            rw [List.filterMap_append, List.filterMap_cons_some (hseries _ _ _),
              List.filterMap_nil, List.count_append, List.count_singleton, hsinks, ← h.metrics]
            by_cases hk : k = requestSeries w.route outcome
            · subst hk
              simp
            · simp [hk, Ne.symm hk]
          · dsimp only
            rw [List.flatMap_append, hsinks, List.drop_left, List.flatMap_singleton, h.lines]
          · intro f hf
            rcases List.mem_append.mp hf with hold | hnew
            · exact h.records f hold
            · rw [List.mem_singleton.mp hnew]
              refine ⟨helapsed, ?_⟩
              rw [hrecords, hsinks]
              exact List.drop_left

/-- `P` holds of what the handlers come to. -/
def Timed (P : Handled → String → Prop) : Event → Prop
  | .leave _ handled elapsed => P handled elapsed
  | .enter _ _ _ => True

theorem accounted_step (s : Server) (event : Event) (h : Accounted py P service s)
    (htimed : Timed P event) : Accounted py P service (step py service s event) := by
  cases event with
  | enter task request drawn => exact h.enter py task request drawn
  | leave task handled elapsed => exact h.leave py task handled htimed

theorem accounted_run {events : List Event} (h : ∀ event ∈ events, Timed P event) :
    Accounted py P service (run (step py service) .start events) := by
  refine run_invariant (step py service) (Accounted py P service) (accounted_step py)
    (accounted_start py) ((along_iff (step py service) .start events).mpr ?_)
  intro pre event post hevents
  exact h event (hevents ▸ List.mem_append_right pre List.mem_cons_self)

/-- However requests overlap: each counter is the number of the requests that ended so, and the log
    has the records of the requests, in the order in which they ended. -/
theorem requests_accounted (service : String) (events : List Event) :
    let s := run (step py service) .start events
    (∀ k, s.sinks.metrics k = (s.finished.filterMap Finished.series).count k) ∧
      s.sinks.lines = s.finished.flatMap (Finished.records py service) := by
  intro s
  have h : Accounted py (fun _ _ => True) service s := by
    refine accounted_run py ?_
    intro event _
    cases event <;> trivial
  refine ⟨h.metrics, ?_⟩
  rw [h.lines]
  exact List.flatMap_congr fun f hf => (h.records f hf).2

end TemisLab.Observability
