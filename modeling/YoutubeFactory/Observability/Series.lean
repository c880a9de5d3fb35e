import YoutubeFactory.Observability.Histogram

/-!
# Counters and gauges

`Counter` and `Gauge` of `app/observability/metrics.py`, and what the cap on the number of series
does to the three kinds of metrics.

Every call of a metric is one input of one series, or raises (`Capped.Records`).  So the series of
a metric are isolated from each other, and a counter's are their increments added up from left to
right (`series_cap_isolates`).
-/

namespace YoutubeFactory.Observability

open Python (PyFloat FloatAddition)

/-! ## The metrics -/

namespace Metric

/-- The series of a counter or a gauge, at first.  A metric without labels has one. -/
def initialValues (labelnames : List String) : OrderedMap LabelKey PyFloat :=
  if labelnames.isEmpty then OrderedMap.empty.set [] 0 else .empty

/-- `collect` of a counter or a gauge.  No two series have the same key. -/
def collectValues (metric : Metric) (values : OrderedMap LabelKey PyFloat) :
    Except MetricError (List Sample) :=
  (values.entries.insertionSort fun a b => a.1 ≤ b.1).mapM fun e => do
    let labels ← renderLabels metric.labelnames e.1 ""
    pure { name := metric.name, labels, value := e.2 }

/-- One update, to a series that is there or to a new one. -/
def update (metric : Metric) (values : OrderedMap LabelKey PyFloat) (key : LabelKey)
    (known : PyFloat → PyFloat) (new : PyFloat) : Metric × OrderedMap LabelKey PyFloat :=
  match values.get? key with
  | some value => (metric, values.set key (known value))
  | none =>
      let (allowed, metric) := metric.admitSeries values.entries.length
      if allowed then (metric, values.set key new) else (metric, values)

end Metric

structure Counter extends Metric where
  values : OrderedMap LabelKey PyFloat

/-- What `inc` of a counter raises. -/
inductive CounterError where
  | decrease (name : String) (amount : PyFloat)
  | metric (error : MetricError)
deriving DecidableEq

namespace Counter

/-- The constructor. -/
def init (name : String) (labelnames : List String) : Except MetricError Counter := do
  let metric ← Metric.init name labelnames
  pure { metric with values := Metric.initialValues labelnames }

/-- `inc` -/
def inc [FloatAddition] (counter : Counter) (amount : PyFloat) (labels : Labels) : Except CounterError Counter :=
  if amount < 0 then .error (.decrease counter.name amount)
  else do
    let key ← (counter.key labels).mapError .metric
    let (metric, values) := counter.update counter.values key
      (FloatAddition.plus · amount) amount
    pure { metric with values }

/-- `value` -/
def value (counter : Counter) (labels : Labels) : Except MetricError PyFloat := do
  let key ← counter.key labels
  pure ((counter.values.get? key).getD 0)

/-- `collect` -/
def collect (counter : Counter) : Except MetricError (List Sample) :=
  counter.collectValues counter.values

end Counter

structure Gauge extends Metric where
  values : OrderedMap LabelKey PyFloat

namespace Gauge

/-- The constructor. -/
def init (name : String) (labelnames : List String) : Except MetricError Gauge := do
  let metric ← Metric.init name labelnames
  pure { metric with values := Metric.initialValues labelnames }

variable (gauge : Gauge)

/-- `set` -/
def set (value : PyFloat) (labels : Labels) : Except MetricError Gauge := do
  let key ← gauge.key labels
  let (metric, values) := gauge.update gauge.values key (fun _ => value) value
  pure { metric with values }

/-- `inc` -/
def inc [FloatAddition] (amount : PyFloat) (labels : Labels) : Except MetricError Gauge := do
  let key ← gauge.key labels
  let (metric, values) := gauge.update gauge.values key (FloatAddition.plus · amount) amount
  pure { metric with values }

/-- `dec` -/
def dec [FloatAddition] (amount : PyFloat) (labels : Labels) : Except MetricError Gauge :=
  gauge.inc (-amount) labels

/-- `value` -/
def value (labels : Labels) : Except MetricError PyFloat := do
  let key ← gauge.key labels
  pure ((gauge.values.get? key).getD 0)

/-- `collect` -/
def collect : Except MetricError (List Sample) := gauge.collectValues gauge.values

end Gauge

/-! ## Calls -/

/-- A call of a counter's `inc`. -/
structure Increment where
  amount : PyFloat
  labels : Labels

/-- A call that raises leaves the counter as it was. -/
def Counter.step [FloatAddition] (counter : Counter) (call : Increment) : Counter :=
  (counter.inc call.amount call.labels).toOption.getD counter

inductive GaugeCall where
  | set (value : PyFloat) (labels : Labels)
  | inc (amount : PyFloat) (labels : Labels)
  | dec (amount : PyFloat) (labels : Labels)

/-- A call that raises leaves the gauge as it was. -/
def Gauge.step [FloatAddition] (gauge : Gauge) (call : GaugeCall) : Gauge :=
  Option.getD (match call with
    | .set value labels => (gauge.set value labels).toOption
    | .inc amount labels => (gauge.inc amount labels).toOption
    | .dec amount labels => (gauge.dec amount labels).toOption) gauge

/-! ## The inputs of the series -/

namespace Metric

variable {metric : Metric} {values : OrderedMap LabelKey PyFloat} {Input : Type}
  {take : PyFloat → Input → PyFloat}

/-- An update is an input of the series of its key. -/
theorem update_values (key : LabelKey) (input : Input) :
    (metric.update values key (take · input) (take 0 input)).2 =
      Capped.record MAX_SERIES_PER_METRIC 0 take values (key, input) := by
  unfold update admitSeries Capped.record
  dsimp only
  cases values.get? key with
  | some value => rfl
  | none =>
      dsimp only
      by_cases hroom : values.entries.length < MAX_SERIES_PER_METRIC
      · rw [if_pos hroom, if_pos hroom]
        rfl
      · rw [if_neg hroom, if_neg hroom]
        rfl

/-- The names are not changed. -/
theorem update_metric (key : LabelKey) (known : PyFloat → PyFloat) (new : PyFloat) :
    (metric.update values key known new).1.name = metric.name ∧
      (metric.update values key known new).1.labelnames = metric.labelnames := by
  unfold update admitSeries
  cases values.get? key with
  | some value => exact ⟨rfl, rfl⟩
  | none =>
      dsimp only
      split <;> exact ⟨rfl, rfl⟩

theorem length_initialValues (labelnames : List String) :
    (initialValues labelnames).entries.length ≤ MAX_SERIES_PER_METRIC := by
  unfold initialValues
  split <;> decide

/-- The series of a metric without labels is zero at first. -/
theorem initialValues_eq {labelnames : List String} {key : LabelKey} {value : PyFloat}
    (h : (initialValues labelnames).get? key = some value) : value = 0 := by
  unfold initialValues at h
  split at h
  · rw [OrderedMap.get?_set] at h
    split at h
    · exact (Option.some.inj h).symm
    · cases h
  · cases h

theorem length_of_initialValues {labelnames : List String} {key : LabelKey} {value : PyFloat}
    (h : (initialValues labelnames).get? key = some value) : key.length = labelnames.length := by
  unfold initialValues at h
  split at h
  · next hempty =>
      rw [OrderedMap.get?_set] at h
      split at h
      · next hkey => rw [hkey, List.isEmpty_iff.mp hempty]
      · cases h
  · cases h

end Metric

namespace Counter

/-- The series of a call, with its amount.  A negative amount is refused. -/
def keyed (counter : Counter) (call : Increment) : Option (LabelKey × PyFloat) :=
  if call.amount < 0 then none
  else (counter.key call.labels).toOption.map fun key => (key, call.amount)

/-- The amounts that a series was incremented by. -/
def increments (counter : Counter) (key : LabelKey) (calls : List Increment) : List PyFloat :=
  (calls.filter fun call => ¬ call.amount < 0 ∧ counter.key call.labels = .ok key).map
    Increment.amount

/-- A call is an input of the series, and leaves the names. -/
theorem step_spec [FloatAddition] (counter : Counter) (call : Increment) :
    (counter.step call).name = counter.name ∧
      (counter.step call).labelnames = counter.labelnames ∧
      (counter.step call).values = Capped.recordAll MAX_SERIES_PER_METRIC 0 FloatAddition.plus
        counter.values (counter.keyed call).toList := by
  unfold step inc keyed
  by_cases hnegative : call.amount < 0
  · rw [if_pos hnegative, if_pos hnegative]
    exact ⟨rfl, rfl, rfl⟩
  · rw [if_neg hnegative, if_neg hnegative]
    cases counter.key call.labels with
    | error e => exact ⟨rfl, rfl, rfl⟩
    | ok key =>
        have hvalues := @Metric.update_values counter.toMetric counter.values _ FloatAddition.plus
          key call.amount
        have hnames := @Metric.update_metric counter.toMetric counter.values key
          (FloatAddition.plus · call.amount) call.amount
        rw [FloatAddition.zero_plus] at hvalues
        exact ⟨hnames.1, hnames.2, hvalues⟩

theorem records [FloatAddition] (counter : Counter) :
    Capped.Records MAX_SERIES_PER_METRIC 0 FloatAddition.plus step Counter.values counter.keyed
      fun c => c.name = counter.name ∧ c.labelnames = counter.labelnames where
  inv c call hc := ⟨(step_spec c call).1.trans hc.1, (step_spec c call).2.1.trans hc.2⟩
  series c call hc := by
    have hkeyed : c.keyed call = counter.keyed call := by
      unfold keyed
      rw [Metric.key_congr hc.1 hc.2]
    rw [(step_spec c call).2.2, hkeyed]

theorem increments_eq (counter : Counter) (key : LabelKey) (calls : List Increment) :
    counter.increments key calls = Capped.inputsOf key (calls.filterMap counter.keyed) := by
  induction calls with
  | nil => rfl
  | cons call calls ih =>
      unfold increments Capped.inputsOf at ih ⊢
      rw [List.filterMap_cons, List.filter_cons]
      unfold keyed at ih ⊢
      by_cases hnegative : call.amount < 0
      · simpa [hnegative] using ih
      · cases hkey : counter.key call.labels with
        | error e => simpa [hnegative, hkey, Except.toOption] using ih
        | ok k =>
            by_cases hk : k = key
            · simpa [hnegative, hkey, hk, Except.toOption] using ih
            · simpa [hnegative, hkey, hk, Except.toOption] using ih

theorem init_spec {name : String} {labelnames : List String} {counter : Counter}
    (hinit : init name labelnames = .ok counter) : counter.labelnames = labelnames ∧
      counter.values = Metric.initialValues labelnames := by
  obtain ⟨metric, hmetric, hcounter⟩ := Except.bind_eq_ok.mp hinit
  cases hcounter
  exact ⟨Metric.init_labelnames hmetric, rfl⟩

theorem isolates [FloatAddition] {name : String} {labelnames : List String} {counter : Counter}
    (hinit : init name labelnames = .ok counter) :
    Capped.Isolates MAX_SERIES_PER_METRIC 0 FloatAddition.plus step Counter.values counter.keyed
      counter := by
  have hvalues := (init_spec hinit).2
  refine (records counter).isolates ⟨rfl, rfl⟩ ?_ fun key value hvalue => ?_
  · rw [hvalues]
    exact Metric.length_initialValues labelnames
  · rw [hvalues] at hvalue
    exact Metric.initialValues_eq hvalue

end Counter

/-- What a call of a gauge makes of a series. -/
def GaugeCall.change [FloatAddition] : GaugeCall → PyFloat → PyFloat
  | .set value _ => fun _ => value
  | .inc amount _ => fun value => FloatAddition.plus value amount
  | .dec amount _ => fun value => FloatAddition.plus value (-amount)

def GaugeCall.labels : GaugeCall → Labels
  | .set _ labels | .inc _ labels | .dec _ labels => labels

namespace Gauge

section

variable [FloatAddition]

/-- The series of a call, with what the call makes of it. -/
def keyed (gauge : Gauge) (call : GaugeCall) : Option (LabelKey × (PyFloat → PyFloat)) :=
  (gauge.key call.labels).toOption.map fun key => (key, call.change)

theorem step_ok {gauge : Gauge} {call : GaugeCall} {key : LabelKey}
    (hkey : gauge.key call.labels = .ok key) :
    gauge.step call =
      { (gauge.update gauge.values key call.change (call.change 0)).1 with
        values := (gauge.update gauge.values key call.change (call.change 0)).2 } := by
  cases call with
  | set value labels =>
      have hkey : gauge.key labels = .ok key := hkey
      unfold step set
      dsimp only
      rw [hkey]
      rfl
  | inc amount labels =>
      have hkey : gauge.key labels = .ok key := hkey
      unfold step inc GaugeCall.change
      dsimp only
      rw [hkey, FloatAddition.zero_plus]
      rfl
  | dec amount labels =>
      have hkey : gauge.key labels = .ok key := hkey
      unfold step dec inc GaugeCall.change
      dsimp only
      rw [hkey, FloatAddition.zero_plus]
      rfl

theorem step_error {gauge : Gauge} {call : GaugeCall} {e : MetricError}
    (hkey : gauge.key call.labels = .error e) : gauge.step call = gauge := by
  cases call with
  | set value labels =>
      have hkey : gauge.key labels = .error e := hkey
      unfold step set
      dsimp only
      rw [hkey]
      rfl
  | inc amount labels =>
      have hkey : gauge.key labels = .error e := hkey
      unfold step inc
      dsimp only
      rw [hkey]
      rfl
  | dec amount labels =>
      have hkey : gauge.key labels = .error e := hkey
      unfold step dec inc
      dsimp only
      rw [hkey]
      rfl

theorem step_spec (gauge : Gauge) (call : GaugeCall) :
    (gauge.step call).name = gauge.name ∧ (gauge.step call).labelnames = gauge.labelnames ∧
      (gauge.step call).values = Capped.recordAll MAX_SERIES_PER_METRIC 0
        (fun value change => change value) gauge.values (gauge.keyed call).toList := by
  unfold keyed
  cases hkey : gauge.key call.labels with
  | error e =>
      rw [step_error hkey]
      exact ⟨rfl, rfl, rfl⟩
  | ok key =>
      have hvalues := @Metric.update_values gauge.toMetric gauge.values _
        (fun value change => change value) key call.change
      have hnames := @Metric.update_metric gauge.toMetric gauge.values key call.change
        (call.change 0)
      rw [step_ok hkey]
      exact ⟨hnames.1, hnames.2, hvalues⟩

theorem records (gauge : Gauge) :
    Capped.Records MAX_SERIES_PER_METRIC 0 (fun value change => change value) step Gauge.values
      gauge.keyed fun g => g.name = gauge.name ∧ g.labelnames = gauge.labelnames where
  inv g call hg := ⟨(step_spec g call).1.trans hg.1, (step_spec g call).2.1.trans hg.2⟩
  series g call hg := by
    have hkeyed : g.keyed call = gauge.keyed call := by
      unfold keyed
      rw [Metric.key_congr hg.1 hg.2]
    rw [(step_spec g call).2.2, hkeyed]

theorem isolates {name : String} {labelnames : List String} {gauge : Gauge}
    (hinit : init name labelnames = .ok gauge) :
    Capped.Isolates MAX_SERIES_PER_METRIC 0 (fun value change => change value) step Gauge.values
      gauge.keyed gauge := by
  have hvalues : gauge.values = Metric.initialValues labelnames := by
    obtain ⟨metric, -, hmetric⟩ := Except.bind_eq_ok.mp hinit
    cases hmetric
    rfl
  refine (records gauge).isolates ⟨rfl, rfl⟩ ?_ fun key value hvalue => ?_
  · rw [hvalues]
    exact Metric.length_initialValues labelnames
  · rw [hvalues] at hvalue
    exact Metric.initialValues_eq hvalue

end

end Gauge

/-! ## The cap -/

/-- The series of a metric are isolated from each other by the cap, whatever its kind and whatever
calls it gets, and a counter's are their increments added up one after the other. -/
theorem series_cap_isolates [FloatAddition] :
    (∀ name labelnames counter, Counter.init name labelnames = .ok counter →
      Capped.Isolates MAX_SERIES_PER_METRIC 0 FloatAddition.plus Counter.step Counter.values
        counter.keyed counter ∧
      ∀ calls key value, (Run.run Counter.step counter calls).values.get? key = some value →
        value = FloatAddition.total (counter.increments key calls)) ∧
    (∀ name labelnames gauge, Gauge.init name labelnames = .ok gauge →
      Capped.Isolates MAX_SERIES_PER_METRIC 0 (fun value change => change value) Gauge.step
        Gauge.values gauge.keyed gauge) ∧
    ∀ name labelnames buckets histogram,
      Histogram.init name labelnames buckets = .ok histogram →
      Capped.Isolates MAX_SERIES_PER_METRIC (.forBuckets histogram.buckets)
        (Bucketed.record histogram.buckets) Histogram.step Histogram.values histogram.keyed
        histogram := by
  refine ⟨fun name labelnames counter hinit => ?_, fun name labelnames gauge hinit =>
    Gauge.isolates hinit, fun name labelnames buckets histogram hinit =>
    Histogram.isolates hinit⟩
  have hisolates := Counter.isolates hinit
  refine ⟨hisolates, fun calls key value hvalue => ?_⟩
  rw [hisolates.exact calls key value hvalue, Counter.increments_eq, FloatAddition.total]

/-- A counter of jobs by their queue. -/
def jobs : Counter where
  name := "jobs_total"
  labelnames := ["queue"]
  overflowed := false
  values := .empty

/-- Two increments of one queue, with a negative amount and another queue between. -/
theorem series_cap_isolates_jobs :
    (Run.run Counter.step jobs [⟨.finite 2, [("queue", "render")]⟩,
      ⟨.finite (-1), [("queue", "render")]⟩, ⟨.finite 7, [("queue", "upload")]⟩,
      ⟨.finite 3, [("queue", "render")]⟩]).values.get? ["render"] = some (.finite 5) ∧
    Capped.Isolates MAX_SERIES_PER_METRIC 0 FloatAddition.plus Counter.step Counter.values
      jobs.keyed jobs :=
  ⟨by decide +kernel, (series_cap_isolates.1 "jobs_total" ["queue"] jobs rfl).1⟩

end YoutubeFactory.Observability
