import YoutubeFactory.Observability.Tallies

/-!
# HTTP metrics

`MetricsMiddleware` of `app/middleware/metrics.py`, with its instruments of
`app/observability/instruments.py`.

Many requests are served at the same time.  The middleware awaits nothing but `call_next`, so of a
request there are two steps, the one before this and the one after it, and in between anything may
happen to the other ones.

Whatever the interleaving, the instruments show what there is to show, up to the cap of their
series (`http_metrics_exact`).  A gauge that was refused a series when a request came in is refused
it when this goes, so that nothing stays in flight.
-/

namespace YoutubeFactory.Observability

open Python (PyFloat FloatAddition)

/-! ## Instruments -/

structure HttpInstruments where
  requestsTotal : Counter
  requestDuration : Histogram
  inProgress : Gauge
  exceptionsTotal : Counter

namespace HttpInstruments

def init : Except MetricError HttpInstruments := do
  let requestsTotal ← Counter.init "http_requests_total" ["method", "route", "status"]
  let requestDuration ← Histogram.init "http_request_duration_seconds" ["method", "route"]
    DEFAULT_BUCKETS
  let inProgress ← Gauge.init "http_requests_in_progress" ["method"]
  let exceptionsTotal ← Counter.init "http_request_exceptions_total" ["route", "exception"]
  pure { requestsTotal, requestDuration, inProgress, exceptionsTotal }

/-- The instruments at first. -/
def fresh : HttpInstruments where
  requestsTotal :=
    { name := "http_requests_total", labelnames := ["method", "route", "status"]
      overflowed := false, values := .empty }
  requestDuration :=
    { name := "http_request_duration_seconds", labelnames := ["method", "route"]
      overflowed := false, buckets := DEFAULT_BUCKETS ++ [.inf], values := .empty }
  inProgress :=
    { name := "http_requests_in_progress", labelnames := ["method"]
      overflowed := false, values := .empty }
  exceptionsTotal :=
    { name := "http_request_exceptions_total", labelnames := ["route", "exception"]
      overflowed := false, values := .empty }

theorem init_eq : init = .ok fresh := by
  have hduration : Histogram.init "http_request_duration_seconds" ["method", "route"]
      DEFAULT_BUCKETS = .ok fresh.requestDuration := by
    have hascending : ¬ (DEFAULT_BUCKETS.filter fun b => !b.isInf) ≠
        Histogram.sorted (DEFAULT_BUCKETS.filter fun b => !b.isInf) := by decide +kernel
    have hmetric : Metric.init "http_request_duration_seconds" ["method", "route"] =
        .ok ⟨"http_request_duration_seconds", ["method", "route"], false⟩ := rfl
    rw [Histogram.init, hmetric, Except.ok_bind, if_neg (by decide), if_neg (by decide)]
    dsimp only
    rw [if_neg hascending]
    rfl
  rw [init, hduration]
  rfl

end HttpInstruments

/-! ## The middleware -/

/-- `UNMATCHED_ROUTE` -/
def UNMATCHED_ROUTE : String := "__unmatched__"

/-- What the router leaves in the scope of a request, of which only texts count: the path of the
effective route's context, and the path format of the route. -/
structure Scope where
  contextPath : Option String
  pathFormat : Option String

/-- `matched_route` -/
def matchedRoute (scope : Scope) : String :=
  match scope.contextPath with
  | some path => if path ≠ "" then path else scope.pathFormat.getD UNMATCHED_ROUTE
  | none => scope.pathFormat.getD UNMATCHED_ROUTE

/-- `status_class` -/
def statusClass (statusCode : Nat) : String := toString (statusCode / 100) ++ "xx"

/-- What comes back of `call_next`.  A cancellation is not an `Exception`. -/
inductive Outcome where
  | returned (statusCode : Nat)
  | raised (exception : String)
  | cancelled
deriving DecidableEq

/-- What an instrument raises. -/
inductive InstrumentError where
  | counter (error : CounterError)
  | metric (error : MetricError)

/-- Instruments are left as they are when something is raised. -/
abbrev InstrumentM := ExceptT InstrumentError (StateM HttpInstruments)

namespace HttpInstruments

variable [FloatAddition]

/-- `http_requests_in_progress.inc(1.0, method=method)` -/
def started (method : String) : InstrumentM Unit := fun s =>
  match s.inProgress.inc (.finite 1) [("method", method)] with
  | .ok inProgress => (.ok (), { s with inProgress })
  | .error e => (.error (.metric e), s)

/-- `http_requests_in_progress.dec(1.0, method=method)` -/
def stopped (method : String) : InstrumentM Unit := fun s =>
  match s.inProgress.dec (.finite 1) [("method", method)] with
  | .ok inProgress => (.ok (), { s with inProgress })
  | .error e => (.error (.metric e), s)

/-- `http_request_exceptions_total.inc(1.0, route=route, exception=exception)` -/
def incExceptions (route exception : String) : InstrumentM Unit := fun s =>
  match s.exceptionsTotal.inc (.finite 1) [("route", route), ("exception", exception)] with
  | .ok exceptionsTotal => (.ok (), { s with exceptionsTotal })
  | .error e => (.error (.counter e), s)

/-- `http_requests_total.inc(1.0, method=method, route=route, status=status)` -/
def incRequests (method route status : String) : InstrumentM Unit := fun s =>
  match s.requestsTotal.inc (.finite 1)
      [("method", method), ("route", route), ("status", status)] with
  | .ok requestsTotal => (.ok (), { s with requestsTotal })
  | .error e => (.error (.counter e), s)

/-- `http_request_duration_seconds.observe(elapsed, method=method, route=route)` -/
def observeDuration (elapsed : PyFloat) (method route : String) : InstrumentM Unit := fun s =>
  match s.requestDuration.observe elapsed [("method", method), ("route", route)] with
  | .ok requestDuration => (.ok (), { s with requestDuration })
  | .error e => (.error (.metric e), s)

/-- The branches `except` and `else` of `dispatch`. -/
def recordOutcome (method : String) (scope : Scope) (elapsed : PyFloat) : Outcome → InstrumentM Unit
  | .raised exception => do
      let route := matchedRoute scope
      incExceptions route exception
      incRequests method route "5xx"
      observeDuration elapsed method route
  | .returned statusCode => do
      let route := matchedRoute scope
      incRequests method route (statusClass statusCode)
      observeDuration elapsed method route
  | .cancelled => pure ()

/-- What `dispatch` does after `call_next`. -/
def finish (method : String) (scope : Scope) (elapsed : PyFloat) (outcome : Outcome) :
    InstrumentM Unit := do
  try recordOutcome method scope elapsed outcome
  finally stopped method

end HttpInstruments

/-! ## The server -/

/-- A request that has been served. -/
structure Served where
  method : String
  route : String
  elapsed : PyFloat
  outcome : Outcome

/-- The instruments, the methods of the requests that are being served, and what has been
served. -/
structure Server where
  instruments : HttpInstruments
  inFlight : List String
  served : List Served

/-- A request comes in, or what has been awaited for one that is being served comes back. -/
inductive ServerEvent where
  | enter (method : String)
  | leave (index : Nat) (scope : Scope) (elapsed : PyFloat) (outcome : Outcome)

namespace Server

def fresh : Server := ⟨.fresh, [], []⟩

def step [FloatAddition] (s : Server) : ServerEvent → Server
  | .enter method =>
      match (HttpInstruments.started method).run s.instruments with
      | (.ok _, instruments) =>
          { s with instruments, inFlight := s.inFlight ++ [method] }
      | (.error _, instruments) => { s with instruments }
  | .leave index scope elapsed outcome =>
      match s.inFlight[index]? with
      | none => s
      | some method =>
          { instruments :=
              ((HttpInstruments.finish method scope elapsed outcome).run s.instruments).2
            inFlight := s.inFlight.eraseIdx index
            served := s.served ++ [⟨method, matchedRoute scope, elapsed, outcome⟩] }

end Server

/-! ## What there is to show -/

/-- The series that a request is counted in. -/
def Served.status? (r : Served) : Option LabelKey :=
  match r.outcome with
  | .returned statusCode => some [r.method, r.route, statusClass statusCode]
  | .raised _ => some [r.method, r.route, "5xx"]
  | .cancelled => none

/-- The series that its duration is observed in. -/
def Served.timed? (r : Served) : Option LabelKey :=
  match r.outcome with
  | .cancelled => none
  | _ => some [r.method, r.route]

/-- The series that its exception is counted in. -/
def Served.exception? (r : Served) : Option LabelKey :=
  match r.outcome with
  | .raised exception => some [r.route, exception]
  | _ => none

namespace Served

variable (r : Served) {key : LabelKey}

theorem length_status (h : r.status? = some key) : key.length = 3 := by
  unfold status? at h
  split at h <;> cases h <;> rfl

theorem length_timed (h : r.timed? = some key) : key.length = 2 := by
  unfold timed? at h
  split at h <;> cases h
  rfl

theorem length_exception (h : r.exception? = some key) : key.length = 2 := by
  unfold exception? at h
  split at h <;> cases h
  rfl

end Served

namespace Server

variable (s : Server)

def inFlightTally (key : LabelKey) : PyFloat :=
  number (s.inFlight.countP fun method => [method] = key)

def requestsTally (key : LabelKey) : PyFloat :=
  number (s.served.countP fun r => r.status? = some key)

def exceptionsTally (key : LabelKey) : PyFloat :=
  number (s.served.countP fun r => r.exception? = some key)

/-- The durations of the requests of a series. -/
def durations (key : LabelKey) : List PyFloat :=
  (s.served.filter fun r => r.timed? = some key).map Served.elapsed

/-- The instruments show what there is to show. -/
structure Exact [FloatAddition] : Prop where
  inProgress : Capped.Tracks MAX_SERIES_PER_METRIC 0 s.instruments.inProgress.values
    s.inFlightTally
  requests : Capped.Tracks MAX_SERIES_PER_METRIC 0 s.instruments.requestsTotal.values
    s.requestsTally
  exceptions : Capped.Tracks MAX_SERIES_PER_METRIC 0 s.instruments.exceptionsTotal.values
    s.exceptionsTally
  durations : Capped.Tracks MAX_SERIES_PER_METRIC
    (.forBuckets s.instruments.requestDuration.buckets) s.instruments.requestDuration.values
    fun key => .of s.instruments.requestDuration.buckets (s.durations key)

end Server

/-! ## Instruments that are ready -/

namespace HttpInstruments

variable {instruments : HttpInstruments}

/-- The instruments have the labels that they are called with. -/
structure Ready (instruments : HttpInstruments) : Prop where
  requestsTotal : instruments.requestsTotal.labelnames = ["method", "route", "status"]
  requestDuration : instruments.requestDuration.labelnames = ["method", "route"]
  inProgress : instruments.inProgress.labelnames = ["method"]
  exceptionsTotal : instruments.exceptionsTotal.labelnames = ["route", "exception"]

theorem key_method (h : instruments.Ready) (method : String) :
    instruments.inProgress.key [("method", method)] = .ok [method] :=
  @Metric.key_zip _ _ h.inProgress (by decide) [method] rfl

variable [FloatAddition]

/-- The instruments after one call of the gauge. -/
def gauged (instruments : HttpInstruments) (call : GaugeCall) : HttpInstruments :=
  { instruments with inProgress := instruments.inProgress.step call }

/-- The instruments with a request recorded, and after it. -/
def recorded (instruments : HttpInstruments) (r : Served) : HttpInstruments :=
  { instruments with
    requestsTotal := instruments.requestsTotal.countAt r.status?
    requestDuration := instruments.requestDuration.observeAt r.elapsed r.timed?
    exceptionsTotal := instruments.exceptionsTotal.countAt r.exception? }

def after (instruments : HttpInstruments) (r : Served) : HttpInstruments :=
  (instruments.recorded r).gauged (.dec (.finite 1) [("method", r.method)])

theorem Ready.gauged (h : instruments.Ready) (call : GaugeCall) : (instruments.gauged call).Ready :=
  ⟨h.requestsTotal, h.requestDuration, (Gauge.step_spec _ _).2.1.trans h.inProgress,
    h.exceptionsTotal⟩

theorem Ready.recorded (h : instruments.Ready) (r : Served) : (instruments.recorded r).Ready where
  requestsTotal := (Counter.countAt_labelnames _).trans h.requestsTotal
  requestDuration := (Histogram.observeAt_spec _ _).1.trans h.requestDuration
  inProgress := h.inProgress
  exceptionsTotal := (Counter.countAt_labelnames _).trans h.exceptionsTotal

theorem started_eq (h : instruments.Ready) (method : String) :
    (started method).run instruments =
      (.ok (), instruments.gauged (.inc (.finite 1) [("method", method)])) := by
  show started method instruments = _
  rw [started, Gauge.inc_eq (key_method h method)]
  rfl

theorem stopped_eq (h : instruments.Ready) (method : String) :
    stopped method instruments =
      (.ok (), instruments.gauged (.dec (.finite 1) [("method", method)])) := by
  rw [stopped, Gauge.dec_eq (key_method h method)]
  rfl

theorem incExceptions_eq (h : instruments.Ready) (route exception : String) :
    incExceptions route exception instruments =
      (.ok (), { instruments with
        exceptionsTotal := instruments.exceptionsTotal.countAt (some [route, exception]) }) := by
  have hlabels : [("route", route), ("exception", exception)] =
      instruments.exceptionsTotal.labelnames.zip [route, exception] := by
    rw [h.exceptionsTotal]
    rfl
  have hkey : instruments.exceptionsTotal.key [("route", route), ("exception", exception)] =
      .ok [route, exception] :=
    @Metric.key_zip _ _ h.exceptionsTotal (by decide) [route, exception] rfl
  rw [incExceptions, Counter.inc_eq hkey, Counter.countAt, ← hlabels]

theorem incRequests_eq (h : instruments.Ready) (method route status : String) :
    incRequests method route status instruments =
      (.ok (), { instruments with
        requestsTotal := instruments.requestsTotal.countAt (some [method, route, status]) }) := by
  have hlabels : [("method", method), ("route", route), ("status", status)] =
      instruments.requestsTotal.labelnames.zip [method, route, status] := by
    rw [h.requestsTotal]
    rfl
  have hkey : instruments.requestsTotal.key
      [("method", method), ("route", route), ("status", status)] = .ok [method, route, status] :=
    @Metric.key_zip _ _ h.requestsTotal (by decide) [method, route, status] rfl
  rw [incRequests, Counter.inc_eq hkey, Counter.countAt, ← hlabels]

theorem observeDuration_eq (h : instruments.Ready) (elapsed : PyFloat) (method route : String) :
    observeDuration elapsed method route instruments =
      (.ok (), { instruments with
        requestDuration :=
          instruments.requestDuration.observeAt elapsed (some [method, route]) }) := by
  have hlabels : [("method", method), ("route", route)] =
      instruments.requestDuration.labelnames.zip [method, route] := by
    rw [h.requestDuration]
    rfl
  have hkey : instruments.requestDuration.key [("method", method), ("route", route)] =
      .ok [method, route] :=
    @Metric.key_zip _ _ h.requestDuration (by decide) [method, route] rfl
  rw [observeDuration, Histogram.observe_eq hkey, Histogram.observeAt, ← hlabels]

omit [FloatAddition] in
/-- One step after the other, and the last one in any case. -/
theorem bind_eq {first : InstrumentM Unit} {rest : Unit → InstrumentM Unit}
    {instruments' : HttpInstruments} (h : first instruments = (.ok (), instruments')) :
    (first >>= rest) instruments = rest () instruments' := by
  simp only [bind, ExceptT.bind, ExceptT.mk, StateT.bind, ExceptT.bindCont, h]

omit [FloatAddition] in
theorem tryFinally_eq {first last : InstrumentM Unit} {instruments' instruments'' : HttpInstruments}
    (hfirst : first instruments = (.ok (), instruments'))
    (hlast : last instruments' = (.ok (), instruments'')) :
    (tryFinally first last : InstrumentM Unit) instruments = (.ok (), instruments'') := by
  simp only [tryFinally, MonadFinally.tryFinally', ExceptT.mk, Functor.map, ExceptT.map, bind,
    StateT.bind, hfirst, hlast]
  rfl

/-- What is recorded of a request raises nothing. -/
theorem recordOutcome_eq (h : instruments.Ready) (method : String) (scope : Scope)
    (elapsed : PyFloat) (outcome : Outcome) :
    recordOutcome method scope elapsed outcome instruments =
      (.ok (), instruments.recorded ⟨method, matchedRoute scope, elapsed, outcome⟩) := by
  cases outcome with
  | returned statusCode =>
      have hready : HttpInstruments.Ready { instruments with
          requestsTotal := instruments.requestsTotal.countAt
            (some [method, matchedRoute scope, statusClass statusCode]) } :=
        { h with requestsTotal := (Counter.countAt_labelnames _).trans h.requestsTotal }
      show (incRequests _ _ _ >>= fun _ => observeDuration _ _ _) instruments = _
      rw [bind_eq (incRequests_eq h ..)]
      exact observeDuration_eq hready ..
  | raised exception =>
      have hexceptions : HttpInstruments.Ready { instruments with
          exceptionsTotal := instruments.exceptionsTotal.countAt
            (some [matchedRoute scope, exception]) } :=
        { h with exceptionsTotal := (Counter.countAt_labelnames _).trans h.exceptionsTotal }
      have hrequests : HttpInstruments.Ready { instruments with
          requestsTotal := instruments.requestsTotal.countAt
            (some [method, matchedRoute scope, "5xx"])
          exceptionsTotal := instruments.exceptionsTotal.countAt
            (some [matchedRoute scope, exception]) } :=
        { hexceptions with requestsTotal := (Counter.countAt_labelnames _).trans h.requestsTotal }
      show (incExceptions _ _ >>= fun _ => incRequests _ _ _ >>= fun _ => observeDuration _ _ _)
        instruments = _
      rw [bind_eq (incExceptions_eq h ..), bind_eq (incRequests_eq hexceptions ..)]
      exact observeDuration_eq hrequests ..
  | cancelled => rfl

theorem finish_eq (h : instruments.Ready) (method : String) (scope : Scope) (elapsed : PyFloat)
    (outcome : Outcome) :
    (finish method scope elapsed outcome).run instruments =
      (.ok (), instruments.after ⟨method, matchedRoute scope, elapsed, outcome⟩) :=
  tryFinally_eq (recordOutcome_eq h ..) (stopped_eq (h.recorded _) method)

end HttpInstruments

/-! ## Runs -/

namespace Server

variable [FloatAddition] {s : Server}

/-- The state of a server, with its instruments ready. -/
structure Sound (s : Server) : Prop where
  ready : s.instruments.Ready
  exact : s.Exact

/-- How many requests have come in. -/
def entered (s : Server) : Nat := s.inFlight.length + s.served.length

theorem sound_fresh : Sound fresh where
  ready := ⟨rfl, rfl, rfl, rfl⟩
  exact := {
    inProgress := .empty fun _ => rfl
    requests := .empty fun _ => rfl
    exceptions := .empty fun _ => rfl
    durations := .empty fun _ => Bucketed.of_nil _ }

/-- A request comes in. -/
theorem Sound.enter (h : s.Sound) (hroom : s.entered < 2 ^ 53) (method : String) :
    (s.step (.enter method)).Sound := by
  rw [step, HttpInstruments.started_eq h.ready]
  refine ⟨h.ready.gauged _, ?_, h.exact.requests, h.exact.exceptions, h.exact.durations⟩
  refine Gauge.tracks_step h.exact.inProgress (HttpInstruments.key_method h.ready method) ?_ ?_
  · have hfew : s.inFlight.countP (fun m => [m] = [method]) < 2 ^ 53 :=
      Nat.lt_of_le_of_lt (List.countP_le_length.trans (Nat.le_add_right _ _)) hroom
    simp only [inFlightTally, GaugeCall.change]
    rw [number_succ hfew]
    simp
  · intro key hne
    simp [inFlightTally, Ne.symm hne]

/-- A request that is being served comes back. -/
theorem Sound.leave (h : s.Sound) (hroom : s.entered ≤ 2 ^ 53) (index : Nat) (scope : Scope)
    (elapsed : PyFloat) (outcome : Outcome) :
    (s.step (.leave index scope elapsed outcome)).Sound := by
  rw [step]
  cases hget : s.inFlight[index]? with
  | none => exact h
  | some method =>
      dsimp only
      rw [HttpInstruments.finish_eq h.ready]
      generalize hr : (⟨method, matchedRoute scope, elapsed, outcome⟩ : Served) = r
      obtain ⟨hindex, hmethod⟩ := List.getElem?_eq_some_iff.mp hget
      have hperm : (method :: s.inFlight.eraseIdx index).Perm s.inFlight :=
        hmethod ▸ List.getElem_cons_eraseIdx_perm hindex
      have hserved : s.served.length < 2 ^ 53 := by
        unfold entered at hroom
        omega
      refine ⟨(h.ready.recorded r).gauged _, ?_, ?_, ?_, ?_⟩
      · have hkey : (s.instruments.recorded r).inProgress.key [("method", r.method)] =
            .ok [r.method] := HttpInstruments.key_method h.ready r.method
        have hfew : (s.inFlight.eraseIdx index).countP (fun m => [m] = [method]) < 2 ^ 53 := by
          have hcount := List.countP_le_length (p := fun m => [m] = [method])
            (l := s.inFlight.eraseIdx index)
          have hlength := hperm.length_eq
          rw [List.length_cons] at hlength
          unfold entered at hroom
          omega
        refine Gauge.tracks_step h.exact.inProgress hkey ?_ fun key hne => ?_
        · subst hr
          simp only [inFlightTally, GaugeCall.change]
          rw [← hperm.countP_eq, List.countP_cons_of_pos (by simp), number_pred hfew]
        · subst hr
          simp [inFlightTally, ← hperm.countP_eq, Ne.symm hne]
      · refine Counter.tracks_countAt h.exact.requests ?_ hserved fun key hkey => ?_
        · rw [h.ready.requestsTotal]
          decide
        · rw [h.ready.requestsTotal, r.length_status hkey]
          rfl
      · refine Counter.tracks_countAt h.exact.exceptions ?_ hserved fun key hkey => ?_
        · rw [h.ready.exceptionsTotal]
          decide
        · rw [h.ready.exceptionsTotal, r.length_exception hkey]
          rfl
      · have hbuckets := (@Histogram.observeAt_spec _ s.instruments.requestDuration r.elapsed
          r.timed?).2
        show Capped.Tracks _ (.forBuckets (Histogram.observeAt ..).buckets)
          (Histogram.observeAt ..).values fun key =>
            .of (Histogram.observeAt ..).buckets (((s.served ++ [r]).filter _).map _)
        rw [hbuckets]
        refine Histogram.tracks_observeAt h.exact.durations ?_ fun key hkey => ?_
        · rw [h.ready.requestDuration]
          decide
        · rw [h.ready.requestDuration, r.length_timed hkey]
          rfl

theorem entered_step (h : s.Sound) (event : ServerEvent) :
    (s.step event).entered ≤ s.entered + 1 := by
  cases event with
  | enter method =>
      rw [step, HttpInstruments.started_eq h.ready]
      simp only [entered, List.length_append, List.length_singleton]
      omega
  | leave index scope elapsed outcome =>
      rw [step]
      cases hget : s.inFlight[index]? with
      | none => exact Nat.le_succ _
      | some method =>
          have hlength := List.length_eraseIdx_le s.inFlight index
          simp only [entered, List.length_append, List.length_singleton]
          omega

theorem Sound.step (h : s.Sound) (hroom : s.entered < 2 ^ 53) (event : ServerEvent) :
    (s.step event).Sound := by
  cases event with
  | enter method => exact h.enter hroom method
  | leave index scope elapsed outcome => exact h.leave hroom.le index scope elapsed outcome

/-- Every event brings at most one request. -/
theorem sound_run (events : List ServerEvent) (hfew : events.length ≤ 2 ^ 53) :
    (Run.run step fresh events).Sound ∧ (Run.run step fresh events).entered ≤ events.length := by
  induction events using List.reverseRecOn with
  | nil => exact ⟨sound_fresh, Nat.zero_le _⟩
  | append_singleton events event ih =>
      rw [List.length_append, List.length_singleton] at hfew ⊢
      obtain ⟨hsound, hentered⟩ := ih (Nat.le_of_succ_le hfew)
      rw [Run.run_append, Run.run_cons, Run.run_nil]
      exact ⟨hsound.step (Nat.lt_of_le_of_lt hentered hfew) event,
        (entered_step hsound event).trans (Nat.succ_le_succ hentered)⟩

end Server

/-- In every interleaving of requests, as long as whole numbers are added exactly, the instruments
show what there is to show, and the gauge of a method is zero when none of its requests is in
flight. -/
theorem http_metrics_exact [FloatAddition] (events : List ServerEvent)
    (hfew : events.length ≤ 2 ^ 53) :
    (Run.run Server.step .fresh events).Exact ∧
    ∀ method, method ∉ (Run.run Server.step .fresh events).inFlight →
      (Run.run Server.step .fresh events).instruments.inProgress.value [("method", method)] =
        .ok 0 := by
  obtain ⟨hsound, -⟩ := Server.sound_run events hfew
  refine ⟨hsound.exact, fun method hidle => ?_⟩
  rw [Gauge.value, HttpInstruments.key_method hsound.ready, Except.ok_bind]
  cases hget : (Run.run Server.step .fresh events).instruments.inProgress.values.get? [method] with
  | none => rfl
  | some shown =>
      have hnone : (Run.run Server.step .fresh events).inFlight.countP
          (fun m => [m] = [method]) = 0 :=
        List.countP_eq_zero.mpr fun m hm heq => by
          simp only [List.cons.injEq, and_true, decide_eq_true_eq] at heq
          exact hidle (heq ▸ hm)
      rw [hsound.exact.inProgress.shown [method] shown hget, Server.inFlightTally, hnone]
      rfl

/-- Two requests of one method, of which the second raises before the first is answered. -/
def twoRequests : List ServerEvent :=
  [.enter "GET", .enter "GET", .leave 1 ⟨none, some "/a"⟩ (.finite 2) (.raised "OSError"),
    .leave 0 ⟨none, some "/a"⟩ (.finite 1) (.returned 200)]

theorem http_metrics_exact_two :
    (Run.run Server.step .fresh twoRequests).Exact ∧
      (Run.run Server.step .fresh twoRequests).durations ["GET", "/a"] = [.finite 2, .finite 1] ∧
      (Run.run Server.step .fresh twoRequests).instruments.inProgress.value
        [("method", "GET")] = .ok 0 := by
  obtain ⟨hexact, hidle⟩ := http_metrics_exact twoRequests (by decide)
  exact ⟨hexact, by decide +kernel, hidle "GET" (by decide +kernel)⟩

end YoutubeFactory.Observability
