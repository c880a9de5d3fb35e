import YoutubeFactory.Observability.Spans
import YoutubeFactory.Observability.Tallies
import YoutubeFactory.Storage.Local

/-!
# The metered storage

`MeteredStorageClient` of `app/core/storage/metered.py` around any client, with its instruments of
`app/observability/instruments.py`.  The wrapped client opens no spans of its own.  How long each
call takes is part of a run.

Wrapped and not, a client does the same (`metered_exact`), and what the instruments show of an
operation is how often it was called.
-/

namespace YoutubeFactory.Storage

open Observability
open Python (PyFloat FloatAddition)

/-! ## Clients -/

/-- `StorageClient`.  A call leaves what it has written, returned or raised. -/
structure StorageClient (State Exc : Type) where
  put : String → Bytes → String → State → Except Exc StoredObject × State
  get : String → State → Except Exc Bytes × State
  delete : String → State → Except Exc Unit × State
  presignUrl : String → Nat → State → Except Exc String × State
  healthCheck : State → Except Exc Bool × State

/-- A call of the protocol. -/
inductive ClientCall where
  | put (key : String) (data : Bytes) (contentType : String)
  | get (key : String)
  | delete (key : String)
  | presignUrl (key : String) (expiresIn : Nat)
  | healthCheck

/-- `operation` -/
def ClientCall.operation : ClientCall → String
  | .put .. => "put"
  | .get _ => "get"
  | .delete _ => "delete"
  | .presignUrl .. => "presign_url"
  | .healthCheck => "health_check"

/-- What one call of a client returns. -/
def StorageClient.call {State Exc : Type} (client : StorageClient State Exc) (s : State) :
    ClientCall → Except Exc Answer × State
  | .put key data contentType => (client.put key data contentType s).map (·.map .stored) id
  | .get key => (client.get key s).map (·.map .bytes) id
  | .delete key => (client.delete key s).map (·.map fun _ => .done) id
  | .presignUrl key expiresIn => (client.presignUrl key expiresIn s).map (·.map .url) id
  | .healthCheck => (client.healthCheck s).map (·.map .flag) id

namespace LocalStorageProvider

variable (provider : LocalStorageProvider)

/-- A call that raises leaves the files as they were. -/
def kept {α : Type} (files : Files) (result : Except StorageFault (α × Files)) :
    Except StorageFault α × Files :=
  match result with
  | .ok (value, files) => (.ok value, files)
  | .error e => (.error e, files)

def client : StorageClient Files StorageFault where
  put key data contentType files := kept files (provider.put files key data contentType)
  get key files := (provider.get files key, files)
  delete key files := kept files ((provider.delete files key).map fun files => ((), files))
  presignUrl key _ files := (.ok (provider.presignUrl key), files)
  healthCheck files := (.ok (provider.healthCheck files), files)

/-- The call of the provider. -/
def storageCall : ClientCall → StorageCall
  | .put key data contentType => .put key data contentType
  | .get key => .get key
  | .delete key => .delete key
  | .presignUrl key _ => .presignUrl key
  | .healthCheck => .healthCheck

theorem client_call (files : Files) (call : ClientCall) :
    provider.client.call files call = provider.step files (storageCall call) := by
  cases call with
  | put key data contentType =>
      show (kept files (provider.put files key data contentType)).map _ id = settle files _
      cases provider.put files key data contentType <;> rfl
  | get key =>
      show (provider.get files key, files).map _ id = settle files _
      cases provider.get files key <;> rfl
  | delete key =>
      show (kept files ((provider.delete files key).map _)).map _ id = settle files _
      cases provider.delete files key <;> rfl
  | presignUrl key expiresIn => rfl
  | healthCheck => rfl

end LocalStorageProvider

/-! ## Instruments -/

/-- `storage_operations_total` and `storage_operation_duration_seconds` -/
structure Instruments where
  operations : Counter
  durations : Histogram

def Instruments.init : Except MetricError Instruments := do
  let operations ← Counter.init "storage_operations_total" ["backend", "operation", "outcome"]
  let durations ← Histogram.init "storage_operation_duration_seconds" ["backend", "operation"]
    DEFAULT_BUCKETS
  pure { operations, durations }

/-- The instruments at first. -/
def Instruments.fresh : Instruments where
  operations :=
    { name := "storage_operations_total", labelnames := ["backend", "operation", "outcome"]
      overflowed := false, values := .empty }
  durations :=
    { name := "storage_operation_duration_seconds", labelnames := ["backend", "operation"]
      overflowed := false, buckets := DEFAULT_BUCKETS ++ [.inf], values := .empty }

theorem Instruments.init_operations :
    Counter.init "storage_operations_total" ["backend", "operation", "outcome"] =
      .ok fresh.operations := rfl

theorem Instruments.init_durations :
    Histogram.init "storage_operation_duration_seconds" ["backend", "operation"] DEFAULT_BUCKETS =
      .ok fresh.durations := by
  have hascending : ¬ (DEFAULT_BUCKETS.filter fun b => !b.isInf) ≠
      Histogram.sorted (DEFAULT_BUCKETS.filter fun b => !b.isInf) := by decide +kernel
  have hmetric : Metric.init "storage_operation_duration_seconds" ["backend", "operation"] =
      .ok ⟨"storage_operation_duration_seconds", ["backend", "operation"], false⟩ := rfl
  rw [Histogram.init, hmetric, Except.ok_bind, if_neg (by decide), if_neg (by decide)]
  dsimp only
  rw [if_neg hascending]
  rfl

theorem Instruments.init_eq : Instruments.init = .ok .fresh := by
  rw [init, init_operations, init_durations]
  rfl

/-- What a call of the wrapper raises. -/
inductive MeteredFault (Exc : Type) where
  | client (exc : Exc)
  | operations (error : CounterError)
  | durations (error : MetricError)

/-- The labels of an operation. -/
def durationLabels (backend operation : String) : Labels :=
  [("backend", backend), ("operation", operation)]

def operationLabels (backend operation outcome : String) : Labels :=
  [("backend", backend), ("operation", operation), ("outcome", outcome)]

/-- `_record` -/
def Instruments.record {Exc : Type} (instruments : Instruments)
    (backend operation outcome : String) (elapsed : PyFloat) :
    Except (MeteredFault Exc) Unit × Instruments :=
  match instruments.operations.inc (.finite 1) (operationLabels backend operation outcome) with
  | .error e => (.error (.operations e), instruments)
  | .ok operations =>
      match instruments.durations.observe elapsed (durationLabels backend operation) with
      | .error e => (.error (.durations e), { instruments with operations })
      | .ok durations => (.ok (), { operations, durations })

/-! ## The wrapper -/

/-- The wrapped client, the instruments and the spans of the process. -/
structure Process (State V : Type) where
  client : State
  instruments : Instruments
  tracing : Tracing V

/-- What the wrapper is set up with.  Of what a client raises, `except Exception` takes what is an
`Exception`, and a cancellation is not. -/
structure MeteredStorageClient (State Exc V : Type) where
  client : StorageClient State Exc
  backend : String
  isException : Exc → Bool
  describe : MeteredFault Exc → String
  ids : IdSource
  /-- The values of the attributes. -/
  text : String → V
  number : Nat → V

namespace MeteredStorageClient

variable {State Exc V : Type} (metered : MeteredStorageClient State Exc V)

/-- A result of the client, with its outcome recorded. -/
def timed {α : Type} (operation : String) (outcome : α → String) (elapsed : PyFloat)
    (result : Except Exc α × State) (s : Process State V) :
    Except (MeteredFault Exc) α × Process State V :=
  let s := { s with client := result.2 }
  match result.1 with
  | .ok value =>
      let (recorded, instruments) :=
        s.instruments.record metered.backend operation (outcome value) elapsed
      (recorded.map fun _ => value, { s with instruments })
  | .error exc =>
      if metered.isException exc = true then
        let (recorded, instruments) :=
          s.instruments.record metered.backend operation "error" elapsed
        (recorded.bind fun _ => .error (.client exc), { s with instruments })
      else (.error (.client exc), s)

/-- A call inside a span. -/
def spanned {α : Type} (args : SpanArgs V)
    (result : Except (MeteredFault Exc) α × Process State V) :
    Except (MeteredFault Exc) α × Process State V :=
  let traced := startSpan metered.ids metered.describe args
    (fun _ tracing => (result.1.map fun _ => (), tracing)) result.2.tracing
  (result.1, { result.2 with tracing := traced.2 })

/-- The span of an operation. -/
def span (name : String) (attributes : List (String × V)) : SpanArgs V where
  name
  kind := "client"
  attributes := ("storage.backend", metered.text metered.backend) :: attributes

variable (elapsed : PyFloat) (s : Process State V)

def put (key : String) (data : Bytes) (contentType : String) :
    Except (MeteredFault Exc) StoredObject × Process State V :=
  metered.spanned (metered.span "storage.put" [("storage.size", metered.number data.length)])
    (metered.timed "put" (fun _ => "success") elapsed
      (metered.client.put key data contentType s.client) s)

def get (key : String) : Except (MeteredFault Exc) Bytes × Process State V :=
  metered.spanned (metered.span "storage.get" [])
    (metered.timed "get" (fun _ => "success") elapsed (metered.client.get key s.client) s)

def delete (key : String) : Except (MeteredFault Exc) Unit × Process State V :=
  metered.spanned (metered.span "storage.delete" [])
    (metered.timed "delete" (fun _ => "success") elapsed (metered.client.delete key s.client) s)

def presignUrl (key : String) (expiresIn : Nat) :
    Except (MeteredFault Exc) String × Process State V :=
  metered.timed "presign_url" (fun _ => "success") elapsed
    (metered.client.presignUrl key expiresIn s.client) s

def healthCheck : Except (MeteredFault Exc) Bool × Process State V :=
  metered.timed "health_check" (fun healthy => if healthy then "success" else "unhealthy") elapsed
    (metered.client.healthCheck s.client) s

/-- A call that takes so long. -/
def step (s : Process State V) (call : ClientCall × PyFloat) :
    Except (MeteredFault Exc) Answer × Process State V :=
  match call with
  | (.put key data contentType, elapsed) =>
      (metered.put elapsed s key data contentType).map (·.map .stored) id
  | (.get key, elapsed) => (metered.get elapsed s key).map (·.map .bytes) id
  | (.delete key, elapsed) => (metered.delete elapsed s key).map (·.map fun _ => .done) id
  | (.presignUrl key expiresIn, elapsed) =>
      (metered.presignUrl elapsed s key expiresIn).map (·.map .url) id
  | (.healthCheck, elapsed) => (metered.healthCheck elapsed s).map (·.map .flag) id

/-! ## What is recorded -/

/-- The outcome of a result, unless the call was cancelled. -/
def outcomeOf : Except Exc Answer → Option String
  | .ok (.flag false) => some "unhealthy"
  | .ok _ => some "success"
  | .error exc => if metered.isException exc = true then some "error" else none

/-- A call with what the client made of it, and how long it took. -/
structure Entry (Exc : Type) where
  call : ClientCall
  result : Except Exc Answer
  elapsed : PyFloat

/-- The calls of a run of the client. -/
def entries (s : State) (calls : List (ClientCall × PyFloat)) : List (Entry Exc) :=
  (calls.zip (Noninterference.outputs metered.client.call s (calls.map Prod.fst))).map
    fun e => ⟨e.1.1, e.2, e.1.2⟩

end MeteredStorageClient

/-! ## Instruments that are ready -/

/-- The instruments have the labels that they are called with. -/
structure Instruments.Ready (instruments : Instruments) : Prop where
  operations : instruments.operations.labelnames = ["backend", "operation", "outcome"]
  durations : instruments.durations.labelnames = ["backend", "operation"]

theorem key_operationLabels {metric : Metric} (backend operation outcome : String)
    (h : metric.labelnames = ["backend", "operation", "outcome"]) :
    metric.key (operationLabels backend operation outcome) = .ok [backend, operation, outcome] :=
  @Metric.key_zip _ _ h (by decide) [backend, operation, outcome] rfl

theorem key_durationLabels {metric : Metric} (backend operation : String)
    (h : metric.labelnames = ["backend", "operation"]) :
    metric.key (durationLabels backend operation) = .ok [backend, operation] :=
  @Metric.key_zip _ _ h (by decide) [backend, operation] rfl

namespace Instruments

variable {instruments : Instruments} (backend operation outcome : String) (elapsed : PyFloat)

/-- The instruments after an operation is recorded. -/
def recorded (instruments : Instruments) : Instruments where
  operations := instruments.operations.step
    ⟨.finite 1, operationLabels backend operation outcome⟩
  durations := instruments.durations.step ⟨elapsed, durationLabels backend operation⟩

theorem record_eq {Exc : Type} (h : instruments.Ready) :
    (instruments.record backend operation outcome elapsed :
        Except (MeteredFault Exc) Unit × Instruments) =
      (.ok (), instruments.recorded backend operation outcome elapsed) := by
  rw [record, Counter.inc_eq (key_operationLabels backend operation outcome h.operations)]
  dsimp only
  rw [Histogram.observe_eq (key_durationLabels backend operation h.durations)]
  rfl

theorem recorded_ready (h : instruments.Ready) :
    (instruments.recorded backend operation outcome elapsed).Ready where
  operations := (Counter.step_spec instruments.operations _).2.1.trans h.operations
  durations := (Histogram.step_spec instruments.durations _).labelnames.trans h.durations

end Instruments

/-! ## One call -/

namespace MeteredStorageClient

variable {State Exc V : Type} (metered : MeteredStorageClient State Exc V)

/-- What is recorded of a call. -/
def record (instruments : Instruments) (entry : Entry Exc) : Instruments :=
  match metered.outcomeOf entry.result with
  | some outcome =>
      instruments.recorded metered.backend entry.call.operation outcome entry.elapsed
  | none => instruments

/-- The span that is logged of a call, if it is in one. -/
def spanOf (entry : Entry Exc) : List (String × SpanStatus) :=
  let status := match entry.result with
    | .ok _ => SpanStatus.ok
    | .error _ => .error
  match entry.call with
  | .put .. => [("storage.put", status)]
  | .get _ => [("storage.get", status)]
  | .delete _ => [("storage.delete", status)]
  | .presignUrl .. | .healthCheck => []

/-- What a call is for the process: what it is for the client, recorded, and in its span. -/
structure Steps (s s' : Process State V) (entry : Entry Exc) (left : State)
    (answer : Except (MeteredFault Exc) Answer) : Prop where
  answer : answer = entry.result.mapError .client
  client : s'.client = left
  instruments : s'.instruments = metered.record s.instruments entry
  vars : s'.tracing.vars = s.tracing.vars
  logged : ∃ spans, s'.tracing.logged = s.tracing.logged ++ spans ∧
    spans.map (fun span => (span.name, span.status)) = spanOf entry

variable {metered} {s : Process State V}

theorem timed_spec {α : Type} {wrap : α → Answer} {outcome : α → String} (call : ClientCall)
    (hready : s.instruments.Ready)
    (houtcome : ∀ a, metered.outcomeOf (.ok (wrap a)) = some (outcome a)) (elapsed : PyFloat)
    (result : Except Exc α × State) :
    metered.timed call.operation outcome elapsed result s =
      (result.1.mapError .client, { s with
        client := result.2
        instruments := metered.record s.instruments ⟨call, result.1.map wrap, elapsed⟩ }) := by
  obtain ⟨result, left⟩ := result
  cases result with
  | ok a =>
      simp only [timed, record, Except.ok_map, houtcome, Instruments.record_eq _ _ _ _ hready]
      rfl
  | error exc =>
      by_cases hexc : metered.isException exc = true
      · simp only [timed, record, Except.error_map, outcomeOf, if_pos hexc,
          Instruments.record_eq _ _ _ _ hready]
        rfl
      · simp only [timed, record, Except.error_map, outcomeOf, if_neg hexc]
        rfl

/-- A call outside a span. -/
theorem steps_timed {α : Type} (wrap : α → Answer) (outcome : α → String) (call : ClientCall)
    (hready : s.instruments.Ready)
    (houtcome : ∀ a, metered.outcomeOf (.ok (wrap a)) = some (outcome a)) (elapsed : PyFloat)
    (result : Except Exc α × State)
    (hspan : ∀ result : Except Exc Answer, spanOf ⟨call, result, elapsed⟩ = []) :
    metered.Steps s (metered.timed call.operation outcome elapsed result s).2
      ⟨call, result.1.map wrap, elapsed⟩ result.2
      ((metered.timed call.operation outcome elapsed result s).1.map wrap) := by
  rw [timed_spec call hready houtcome]
  refine ⟨?_, rfl, rfl, rfl, [], (List.append_nil _).symm, (hspan _).symm⟩
  cases result.1 <;> rfl

/-- A call inside one. -/
theorem steps_spanned {α : Type} {wrap : α → Answer} {outcome : α → String} (call : ClientCall)
    (hready : s.instruments.Ready)
    (houtcome : ∀ a, metered.outcomeOf (.ok (wrap a)) = some (outcome a)) (elapsed : PyFloat)
    (result : Except Exc α × State) (args : SpanArgs V)
    (hspan : ∀ result : Except Exc Answer, spanOf ⟨call, result, elapsed⟩ =
      [(args.name, match result with
        | .ok _ => SpanStatus.ok
        | .error _ => .error)]) :
    metered.Steps s
      (metered.spanned args (metered.timed call.operation outcome elapsed result s)).2
      ⟨call, result.1.map wrap, elapsed⟩ result.2
      ((metered.spanned args
        (metered.timed call.operation outcome elapsed result s)).1.map wrap) := by
  rw [timed_spec call hready houtcome]
  obtain ⟨result, left⟩ := result
  cases result with
  | ok a => exact ⟨rfl, rfl, rfl, rfl, [_], rfl, (hspan (.ok (wrap a))).symm⟩
  | error exc => exact ⟨rfl, rfl, rfl, rfl, [_], rfl, (hspan (.error exc)).symm⟩

/-- A call of the wrapper is one of the client. -/
theorem step_spec (hready : s.instruments.Ready) (call : ClientCall) (elapsed : PyFloat) :
    metered.Steps s (metered.step s (call, elapsed)).2
      ⟨call, (metered.client.call s.client call).1, elapsed⟩
      (metered.client.call s.client call).2 (metered.step s (call, elapsed)).1 := by
  cases call with
  | put key data contentType =>
      exact steps_spanned (.put key data contentType) hready (fun _ => rfl) elapsed _ _ fun _ => rfl
  | get key => exact steps_spanned (.get key) hready (fun _ => rfl) elapsed _ _ fun _ => rfl
  | delete key => exact steps_spanned (.delete key) hready (fun _ => rfl) elapsed _ _ fun _ => rfl
  | presignUrl key expiresIn =>
      exact steps_timed .url (fun _ => "success") (.presignUrl key expiresIn) hready
        (fun _ => rfl) elapsed _ fun _ => rfl
  | healthCheck =>
      refine steps_timed .flag (fun healthy => if healthy then "success" else "unhealthy")
        .healthCheck hready (fun healthy => ?_) elapsed _ fun _ => rfl
      cases healthy <;> rfl

theorem record_ready {instruments : Instruments} (hready : instruments.Ready)
    (entry : Entry Exc) : (metered.record instruments entry).Ready := by
  unfold record
  split
  · exact Instruments.recorded_ready _ _ _ _ hready
  · exact hready

/-! ## A run -/

/-- The increments that a list of entries makes. -/
def increments (metered : MeteredStorageClient State Exc V) (entries : List (Entry Exc)) :
    List Increment :=
  entries.filterMap fun entry => (metered.outcomeOf entry.result).map fun outcome =>
    ⟨.finite 1, operationLabels metered.backend entry.call.operation outcome⟩

def observations (metered : MeteredStorageClient State Exc V) (entries : List (Entry Exc)) :
    List Observation :=
  entries.filterMap fun entry => (metered.outcomeOf entry.result).map fun _ =>
    ⟨entry.elapsed, durationLabels metered.backend entry.call.operation⟩

theorem foldl_record (entries : List (Entry Exc)) (instruments : Instruments) :
    entries.foldl metered.record instruments =
      { operations := Run.run Counter.step instruments.operations (metered.increments entries)
        durations := Run.run Histogram.step instruments.durations
          (metered.observations entries) } := by
  induction entries generalizing instruments with
  | nil => rfl
  | cons entry entries ih =>
      rw [List.foldl_cons, ih]
      unfold increments observations record
      cases h : metered.outcomeOf entry.result with
      | none => simp [h]
      | some outcome => simp [h, Instruments.recorded]

/-- What a run is for the process. -/
structure RunsAs (metered : MeteredStorageClient State Exc V) (s : Process State V)
    (calls : List (ClientCall × PyFloat)) (s' : Process State V) : Prop where
  answers : Noninterference.outputs metered.step s calls =
    (metered.entries s.client calls).map fun entry => entry.result.mapError .client
  client : s'.client =
    Run.run (fun s call => (metered.client.call s call).2) s.client (calls.map Prod.fst)
  instruments : s'.instruments = (metered.entries s.client calls).foldl metered.record s.instruments
  vars : s'.tracing.vars = s.tracing.vars
  logged : ∃ spans, s'.tracing.logged = s.tracing.logged ++ spans ∧
    spans.map (fun span => (span.name, span.status)) =
      (metered.entries s.client calls).flatMap spanOf

theorem runsAs (hready : s.instruments.Ready) (calls : List (ClientCall × PyFloat)) :
    metered.RunsAs s calls (Run.run (fun s call => (metered.step s call).2) s calls) := by
  induction calls generalizing s with
  | nil => exact ⟨rfl, rfl, rfl, rfl, [], (List.append_nil _).symm, rfl⟩
  | cons call calls ih =>
      obtain ⟨call, elapsed⟩ := call
      have hstep := metered.step_spec (s := s) hready call elapsed
      have hentries : metered.entries s.client ((call, elapsed) :: calls) =
          ⟨call, (metered.client.call s.client call).1, elapsed⟩ ::
            metered.entries (metered.step s (call, elapsed)).2.client calls := by
        rw [hstep.client]
        rfl
      have hnext : (metered.step s (call, elapsed)).2.instruments.Ready := by
        rw [hstep.instruments]
        exact record_ready hready _
      have hrun := ih hnext
      obtain ⟨first, hfirst, hfirst'⟩ := hstep.logged
      obtain ⟨rest, hrest, hrest'⟩ := hrun.logged
      refine ⟨?_, ?_, ?_, hrun.vars.trans hstep.vars, first ++ rest, ?_, ?_⟩
      · rw [Noninterference.outputs, hentries, List.map_cons, hstep.answer, hrun.answers]
      · rw [Run.run_cons, hrun.client, hstep.client]
        rfl
      · rw [Run.run_cons, hrun.instruments, hentries, List.foldl_cons, hstep.instruments]
      · rw [Run.run_cons, hrest, hfirst, List.append_assoc]
      · rw [hentries, List.flatMap_cons, List.map_append, hfirst', hrest']

/-! ## What the instruments show -/

/-- All label sets that there can be. -/
def operationKeys (backend : String) : List LabelKey :=
  ["put", "get", "delete", "presign_url", "health_check"].flatMap fun operation =>
    ["success", "unhealthy", "error"].map fun outcome => [backend, operation, outcome]

def durationKeys (backend : String) : List LabelKey :=
  ["put", "get", "delete", "presign_url", "health_check"].map fun operation =>
    [backend, operation]

theorem length_operationKeys_le (backend : String) :
    (operationKeys backend).length ≤ MAX_SERIES_PER_METRIC := by
  simp [operationKeys, MAX_SERIES_PER_METRIC]

theorem length_durationKeys_le (backend : String) :
    (durationKeys backend).length ≤ MAX_SERIES_PER_METRIC := by
  simp [durationKeys, MAX_SERIES_PER_METRIC]

/-- Increments by one count exactly. -/
theorem total_replicate_one (n : Nat) :
    FloatAddition.total (List.replicate n (PyFloat.finite 1)) = .finite n := by
  induction n with
  | zero => rfl
  | succ n ih =>
      rw [List.replicate_succ', FloatAddition.total_concat, ih, Nat.cast_succ]
      rfl

theorem outcome_mem {result : Except Exc Answer} {outcome : String}
    (h : metered.outcomeOf result = some outcome) :
    outcome ∈ ["success", "unhealthy", "error"] := by
  unfold outcomeOf at h
  split at h
  · cases h
    simp
  · cases h
    simp
  · split at h
    · cases h
      simp
    · cases h

theorem operation_mem (call : ClientCall) :
    call.operation ∈ ["put", "get", "delete", "presign_url", "health_check"] := by
  cases call <;> simp [ClientCall.operation]

theorem increments_eq (entries : List (Entry Exc)) (operation outcome : String) :
    Instruments.fresh.operations.increments [metered.backend, operation, outcome]
        (metered.increments entries) =
      List.replicate (entries.countP fun entry => entry.call.operation = operation ∧
        metered.outcomeOf entry.result = some outcome) (.finite 1) := by
  have hpositive : ¬ (PyFloat.finite 1 < 0) := by decide
  unfold Counter.increments increments
  induction entries with
  | nil => rfl
  | cons entry entries ih =>
      cases hresult : metered.outcomeOf entry.result with
      | none => simpa [hresult] using ih
      | some found =>
          have hkey : Instruments.fresh.operations.key
              (operationLabels metered.backend entry.call.operation found) = _ :=
            key_operationLabels metered.backend entry.call.operation found rfl
          by_cases hsame : entry.call.operation = operation ∧ found = outcome
          · obtain ⟨rfl, rfl⟩ := hsame
            simpa [hresult, hkey, hpositive, List.replicate_succ] using ih
          · simpa [hresult, hkey, hpositive, hsame] using ih

theorem observed_length (entries : List (Entry Exc)) (operation : String) :
    (Instruments.fresh.durations.observed [metered.backend, operation]
        (metered.observations entries)).length =
      entries.countP fun entry => entry.call.operation = operation ∧
        (metered.outcomeOf entry.result).isSome = true := by
  unfold Histogram.observed Histogram.ofSeries observations
  rw [List.length_map, ← List.countP_eq_length_filter]
  induction entries with
  | nil => rfl
  | cons entry entries ih =>
      cases hresult : metered.outcomeOf entry.result with
      | none => simpa [hresult] using ih
      | some found =>
          have hkey : Instruments.fresh.durations.key
              (durationLabels metered.backend entry.call.operation) = _ :=
            key_durationLabels metered.backend entry.call.operation rfl
          by_cases hsame : entry.call.operation = operation
          · subst hsame
            simpa [hresult, hkey, List.countP_cons] using ih
          · simpa [hresult, hkey, hsame, List.countP_cons] using ih

/-- A client does the same whether it is wrapped or not, and the spans and the context variables
are left in order.  From the start, each operation and outcome has been counted as often as there
were such calls, and each operation has been timed as often as it was not cancelled. -/
theorem metered_exact (hinit : Instruments.init = .ok s.instruments)
    (calls : List (ClientCall × PyFloat)) :
    metered.RunsAs s calls (Run.run (fun s call => (metered.step s call).2) s calls) ∧
      ∀ operation,
        (∀ outcome, (Run.run (fun s call => (metered.step s call).2) s
            calls).instruments.operations.value
              (operationLabels metered.backend operation outcome) =
            .ok (.finite ((metered.entries s.client calls).countP fun entry =>
              entry.call.operation = operation ∧
                metered.outcomeOf entry.result = some outcome))) ∧
        (Run.run (fun s call => (metered.step s call).2) s calls).instruments.durations.count
            (durationLabels metered.backend operation) =
          .ok ((metered.entries s.client calls).countP fun entry =>
            entry.call.operation = operation ∧
              (metered.outcomeOf entry.result).isSome = true) := by
  have hfresh : s.instruments = .fresh := by
    rw [Instruments.init_eq] at hinit
    exact (Except.ok.inj hinit).symm
  have hready : s.instruments.Ready := by
    rw [hfresh]
    exact ⟨rfl, rfl⟩
  have hrun := metered.runsAs hready calls
  refine ⟨hrun, fun operation => ?_⟩
  rw [hrun.instruments, foldl_record, hfresh]
  have hoperations : ∀ call ∈ metered.increments (metered.entries s.client calls), ∀ key,
      Instruments.fresh.operations.key call.labels = .ok key →
        key ∈ operationKeys metered.backend := by
    intro call hcall key hkey
    obtain ⟨entry, -, hentry⟩ := List.mem_filterMap.mp hcall
    obtain ⟨outcome, houtcome, rfl⟩ := Option.map_eq_some_iff.mp hentry
    rw [key_operationLabels _ _ _ rfl] at hkey
    cases hkey
    exact List.mem_flatMap.mpr ⟨_, operation_mem entry.call,
      List.mem_map_of_mem (outcome_mem houtcome)⟩
  have hdurations : ∀ call ∈ metered.observations (metered.entries s.client calls), ∀ key,
      Instruments.fresh.durations.key call.labels = .ok key →
        key ∈ durationKeys metered.backend := by
    intro call hcall key hkey
    obtain ⟨entry, -, hentry⟩ := List.mem_filterMap.mp hcall
    obtain ⟨outcome, -, rfl⟩ := Option.map_eq_some_iff.mp hentry
    rw [key_durationLabels _ _ rfl] at hkey
    cases hkey
    exact List.mem_map_of_mem (operation_mem entry.call)
  constructor
  · intro outcome
    rw [Counter.value_run Instruments.init_operations (length_operationKeys_le metered.backend)
      (List.nil_subset _) hoperations (key_operationLabels metered.backend operation outcome rfl),
      increments_eq, total_replicate_one]
  · rw [Histogram.count_run_few Instruments.init_durations
      (length_durationKeys_le metered.backend) (List.nil_subset _) hdurations
      (key_durationLabels metered.backend operation rfl), observed_length]

/-- The local storage of the bare file system, wrapped. -/
def meteredMedia : MeteredStorageClient Files StorageFault String where
  client := LocalStorageProvider.mediaProvider.client
  backend := "local"
  isException _ := true
  describe _ := "fault"
  ids := ⟨fun n => s!"t{n}", fun n => s!"s{n}"⟩
  text := id
  number := toString

/-- Of two reads one finds nothing. -/
theorem metered_exact_media :
    (Run.run (fun s call => (meteredMedia.step s call).2)
        ⟨LocalStorageProvider.bareFiles.withDirs ["srv", "media"], .fresh, ⟨none, none, [], 0⟩⟩
        [(.put "a.txt" [104, 105] "text/plain", .finite 1), (.get "b.txt", .finite 2),
          (.get "a.txt", .finite 1)]).instruments.operations.value
      (operationLabels "local" "get" "error") = .ok (.finite 1) := by
  refine (((metered_exact Instruments.init_eq _).2 "get").1 "error").trans ?_
  decide +kernel

end MeteredStorageClient

end YoutubeFactory.Storage
