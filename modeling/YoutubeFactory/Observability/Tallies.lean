import YoutubeFactory.Observability.Series

/-!
# Metrics with few series

A metric whose calls have no more label sets between them than the cap allows refuses none of
them.  So what such a counter or histogram shows of a label set is all that was recorded for it
(`Counter.value_run`, `Histogram.count_run_few`).

A counter that goes up by one counts exactly, as long as whole numbers are added exactly.
-/

namespace YoutubeFactory.Observability

open Python (PyFloat FloatAddition)

/-- `DEFAULT_BUCKETS` -/
def DEFAULT_BUCKETS : List PyFloat :=
  [5 / 1000, 1 / 100, 25 / 1000, 5 / 100, 1 / 10, 1 / 4, 1 / 2, 1, 5 / 2, 5, 10].map .finite

/-! ## Calls with the labels of a metric -/

/-- The labels in the order of their names. -/
theorem Metric.key_zip {metric : Metric} {names : List String} (h : metric.labelnames = names)
    (hnodup : names.Nodup) {values : List String} (hlength : values.length = names.length) :
    metric.key (names.zip values) = .ok values := by
  have hnames : (names.zip values).map Prod.fst = names :=
    List.map_fst_zip (Nat.le_of_eq hlength.symm)
  have hvalues : names.map (fun name => ((names.zip values).lookup name).getD "") = values := by
    clear h hnames
    induction names generalizing values with
    | nil => exact (List.length_eq_zero_iff.mp hlength).symm
    | cons name names ih =>
        obtain _ | ⟨v, values⟩ := values
        · cases hlength
        · rw [List.nodup_cons] at hnodup
          rw [List.map_cons, List.zip_cons_cons, List.lookup_cons_self, Option.getD_some]
          refine congrArg (v :: ·) (Eq.trans (List.map_congr_left fun name' hname' => ?_)
            (ih hnodup.2 (Nat.succ.inj hlength)))
          have hne : (name' == name) = false :=
            beq_false_of_ne fun heq => hnodup.1 (heq ▸ hname')
          rw [List.lookup_cons, hne]
  rw [Metric.key, h, hnames, if_pos ⟨List.Subset.refl _, List.Subset.refl _⟩, hvalues]

section

variable [FloatAddition]

/-- A call that is given the labels of its metric raises nothing. -/
theorem Counter.inc_eq {counter : Counter} {labels : Labels} {key : LabelKey}
    (hkey : counter.key labels = .ok key) :
    counter.inc (.finite 1) labels = .ok (counter.step ⟨.finite 1, labels⟩) := by
  have hpositive : ¬ (PyFloat.finite 1 < 0) := by decide
  rw [step, inc, if_neg hpositive, hkey]
  rfl

theorem Gauge.inc_eq {gauge : Gauge} {labels : Labels} {key : LabelKey}
    (hkey : gauge.key labels = .ok key) (amount : PyFloat) :
    gauge.inc amount labels = .ok (gauge.step (.inc amount labels)) := by
  rw [step, inc, hkey]
  rfl

theorem Gauge.dec_eq {gauge : Gauge} {labels : Labels} {key : LabelKey}
    (hkey : gauge.key labels = .ok key) (amount : PyFloat) :
    gauge.dec amount labels = .ok (gauge.step (.dec amount labels)) := by
  rw [step, dec, inc, hkey]
  rfl

theorem Histogram.observe_eq {h : Histogram} {labels : Labels} {key : LabelKey}
    (hkey : h.key labels = .ok key) (value : PyFloat) :
    h.observe value labels = .ok (h.step ⟨value, labels⟩) := by
  have hok : ∃ h', h.observe value labels = .ok h' := by
    rw [observe, hkey, Except.ok_bind]
    cases h.values.get? key with
    | some series => exact ⟨_, rfl⟩
    | none =>
        dsimp only
        split
        · exact ⟨_, rfl⟩
        · exact ⟨_, rfl⟩
  obtain ⟨h', hok⟩ := hok
  rw [step, hok]
  rfl

end

/-! ## What the series show -/

/-- No input of the calls is refused. -/
theorem inputs_of_few {Call Input Series : Type} {start : Series} {take : Series → Input → Series}
    {keyed : Call → Option (LabelKey × Input)} {keys : List LabelKey}
    (hkeys : keys.length ≤ MAX_SERIES_PER_METRIC) {series : OrderedMap LabelKey Series}
    (hseries : series.keys ⊆ keys) (hstart : ∀ key s, series.get? key = some s → s = start)
    {calls : List Call} (hcalls : ∀ call ∈ calls, ∀ e, keyed call = some e → e.1 ∈ keys)
    (key : LabelKey) :
    ((Capped.recordAll MAX_SERIES_PER_METRIC start take series
        (calls.filterMap keyed)).get? key).getD start =
      (Capped.inputsOf key (calls.filterMap keyed)).foldl take start := by
  have hinputs : ∀ e ∈ calls.filterMap keyed, e.1 ∈ keys := by
    intro e he
    obtain ⟨call, hcall, hkeyed⟩ := List.mem_filterMap.mp he
    exact hcalls call hcall e hkeyed
  cases hget : series.get? key with
  | some s =>
      rw [Capped.get?_recordAll_of_some hget, hstart key s hget]
      rfl
  | none =>
      by_cases hnone : Capped.inputsOf key (calls.filterMap keyed) = []
      · rw [hnone]
        cases hrun : (Capped.recordAll MAX_SERIES_PER_METRIC start take series
            (calls.filterMap keyed)).get? key with
        | none => rfl
        | some s => exact absurd hnone (Capped.get?_recordAll_of_none hget hrun).2.1
      · rw [Capped.get?_recordAll_of_room hkeys hseries hinputs hget hnone]
        rfl

namespace Counter

variable {name : String} {labelnames : List String} {counter : Counter} {keys : List LabelKey}
  {labels : Labels} {key : LabelKey}

/-- The value of a counter is what the increments of its labels add up to. -/
theorem value_run [FloatAddition] (hinit : Counter.init name labelnames = .ok counter)
    (hkeys : keys.length ≤ MAX_SERIES_PER_METRIC) (hseries : counter.values.keys ⊆ keys)
    {calls : List Increment}
    (hcalls : ∀ call ∈ calls, ∀ key, counter.key call.labels = .ok key → key ∈ keys)
    (hkey : counter.key labels = .ok key) :
    (Run.run Counter.step counter calls).value labels =
      .ok (FloatAddition.total (counter.increments key calls)) := by
  have hinv : (Run.run Counter.step counter calls).name = counter.name ∧
      (Run.run Counter.step counter calls).labelnames = counter.labelnames :=
    Run.run_invariant (records counter).inv calls ⟨rfl, rfl⟩
  have hstart : ∀ key s, counter.values.get? key = some s → s = 0 := by
    intro key s hs
    rw [(init_spec hinit).2] at hs
    exact Metric.initialValues_eq hs
  have hmem : ∀ call ∈ calls, ∀ e, counter.keyed call = some e → e.1 ∈ keys := by
    rintro call hcall ⟨k, amount⟩ hkeyed
    unfold keyed at hkeyed
    split at hkeyed
    · cases hkeyed
    · cases hk : counter.key call.labels with
      | error e => simp [hk, Except.toOption] at hkeyed
      | ok k' =>
          simp [hk, Except.toOption] at hkeyed
          exact hkeyed.1 ▸ hcalls call hcall k' hk
  unfold value
  rw [Metric.key_congr hinv.1 hinv.2, hkey, Except.ok_bind, (records counter).run calls ⟨rfl, rfl⟩,
    inputs_of_few hkeys hseries hstart hmem, increments_eq]
  rfl

end Counter

namespace Histogram

variable {name : String} {labelnames : List String} {buckets : List PyFloat} {h : Histogram}
  {keys : List LabelKey} {labels : Labels} {key : LabelKey}

/-- The count of a histogram is the number of the observations of its labels. -/
theorem count_run_few [FloatAddition] (hinit : Histogram.init name labelnames buckets = .ok h)
    (hkeys : keys.length ≤ MAX_SERIES_PER_METRIC) (hseries : h.values.keys ⊆ keys)
    {calls : List Observation}
    (hcalls : ∀ call ∈ calls, ∀ key, h.key call.labels = .ok key → key ∈ keys)
    (hkey : h.key labels = .ok key) :
    (Run.run Histogram.step h calls).count labels = .ok (h.observed key calls).length := by
  have hinv : (Run.run Histogram.step h calls).name = h.name ∧
      (Run.run Histogram.step h calls).labelnames = h.labelnames ∧
      (Run.run Histogram.step h calls).buckets = h.buckets :=
    Run.run_invariant (records h).inv calls ⟨rfl, rfl, rfl⟩
  have hmem : ∀ call ∈ calls, ∀ e, h.keyed call = some e → e.1 ∈ keys := by
    rintro call hcall ⟨k, value⟩ hkeyed
    unfold keyed at hkeyed
    cases hk : h.key call.labels with
    | error e => simp [hk, Except.toOption] at hkeyed
    | ok k' =>
        simp [hk, Except.toOption] at hkeyed
        exact hkeyed.1 ▸ hcalls call hcall k' hk
  have hseriesOf : ((Capped.recordAll MAX_SERIES_PER_METRIC (.forBuckets h.buckets)
      (Bucketed.record h.buckets) h.values (calls.filterMap h.keyed)).get? key).getD
        (.forBuckets h.buckets) = _ :=
    inputs_of_few hkeys hseries (fun k s hs => (init_values hinit hs).1) hmem key
  rw [← (records h).run calls ⟨rfl, rfl, rfl⟩, ← observed_eq, ← Bucketed.of_nil,
    Bucketed.foldl_record, List.nil_append] at hseriesOf
  unfold count
  rw [Metric.key_congr hinv.1 hinv.2.1, hkey, Except.ok_bind]
  cases hget : (Run.run Histogram.step h calls).values.get? key with
  | none =>
      rw [hget, Option.getD_none] at hseriesOf
      exact congrArg (fun series => Except.ok (Bucketed.count series)) hseriesOf
  | some series =>
      rw [hget, Option.getD_some] at hseriesOf
      rw [hseriesOf]
      rfl

end Histogram

/-! ## Series of what has happened -/

/-- A number of things. -/
def number (n : Nat) : PyFloat := .finite n

section

variable [FloatAddition]

/-- One more, as long as whole numbers are added exactly. -/
theorem number_succ {n : Nat} (h : n < 2 ^ 53) :
    FloatAddition.plus (number n) (.finite 1) = number (n + 1) := by
  have hsum := FloatAddition.plus_whole n 1 (by omega) (by decide) (by omega)
  simpa [number] using hsum

/-- One less. -/
theorem number_pred {n : Nat} (h : n < 2 ^ 53) :
    FloatAddition.plus (number (n + 1)) (-.finite 1) = number n := by
  have hsum := FloatAddition.plus_whole (n + 1) (-1) (by omega) (by decide) (by omega)
  have hone : -PyFloat.finite 1 = .finite ((-1 : ℤ) : ℚ) := rfl
  rw [number, number, hone]
  simpa using hsum

namespace Counter

variable {counter : Counter}

/-- The counter after one more in a series, if there is one to count it in. -/
def countAt (counter : Counter) : Option LabelKey → Counter
  | none => counter
  | some key => counter.step ⟨.finite 1, counter.labelnames.zip key⟩

theorem countAt_labelnames (key : Option LabelKey) :
    (counter.countAt key).labelnames = counter.labelnames := by
  cases key with
  | none => rfl
  | some key => exact (step_spec counter _).2.1

/-- A counter of the things of a list goes along with it. -/
theorem tracks_countAt {Thing : Type} {keyOf : Thing → Option LabelKey} {things : List Thing}
    (h : Capped.Tracks MAX_SERIES_PER_METRIC 0 counter.values fun key =>
      number (things.countP fun thing => keyOf thing = some key))
    (hnodup : counter.labelnames.Nodup) (hroom : things.length < 2 ^ 53) {thing : Thing}
    (hlength : ∀ key, keyOf thing = some key → key.length = counter.labelnames.length) :
    Capped.Tracks MAX_SERIES_PER_METRIC 0 (counter.countAt (keyOf thing)).values fun key =>
      number ((things ++ [thing]).countP fun thing => keyOf thing = some key) := by
  cases hkey : keyOf thing with
  | none => exact h.congr fun key => by simp [hkey]
  | some k =>
      have hkeyed : counter.keyed ⟨.finite 1, counter.labelnames.zip k⟩ = some (k, .finite 1) := by
        have hpositive : ¬ (PyFloat.finite 1 < 0) := by decide
        rw [keyed, if_neg hpositive, Metric.key_zip rfl hnodup (hlength k hkey)]
        rfl
      rw [countAt, (step_spec counter _).2.2, hkeyed]
      refine h.record (k, PyFloat.finite 1) ?_ fun key hne => ?_
      · rw [number_succ (Nat.lt_of_le_of_lt List.countP_le_length hroom)]
        simp [hkey]
      · simp [hkey, Ne.symm hne]

end Counter

namespace Histogram

variable {h : Histogram}

/-- The histogram after one more in a series, if there is one to observe it in. -/
def observeAt (h : Histogram) (value : PyFloat) : Option LabelKey → Histogram
  | none => h
  | some key => h.step ⟨value, h.labelnames.zip key⟩

theorem observeAt_spec (value : PyFloat) (key : Option LabelKey) :
    (h.observeAt value key).labelnames = h.labelnames ∧
      (h.observeAt value key).buckets = h.buckets := by
  cases key with
  | none => exact ⟨rfl, rfl⟩
  | some key => exact ⟨(step_spec h _).labelnames, (step_spec h _).buckets⟩

/-- A histogram of the things of a list goes along with it. -/
theorem tracks_observeAt {Thing : Type} {keyOf : Thing → Option LabelKey}
    {valueOf : Thing → PyFloat} {things : List Thing}
    (hthings : Capped.Tracks MAX_SERIES_PER_METRIC (.forBuckets h.buckets) h.values fun key =>
      .of h.buckets ((things.filter fun thing => keyOf thing = some key).map valueOf))
    (hnodup : h.labelnames.Nodup) {thing : Thing}
    (hlength : ∀ key, keyOf thing = some key → key.length = h.labelnames.length) :
    Capped.Tracks MAX_SERIES_PER_METRIC (.forBuckets h.buckets)
      (h.observeAt (valueOf thing) (keyOf thing)).values fun key =>
        .of h.buckets (((things ++ [thing]).filter fun thing => keyOf thing = some key).map
          valueOf) := by
  cases hkey : keyOf thing with
  | none => exact hthings.congr fun key => by simp [hkey]
  | some k =>
      have hkeyed : h.keyed ⟨valueOf thing, h.labelnames.zip k⟩ = some (k, valueOf thing) := by
        rw [keyed, Metric.key_zip rfl hnodup (hlength k hkey)]
        rfl
      rw [observeAt, (step_spec h _).values, hkeyed]
      refine hthings.record (k, valueOf thing) ?_ fun key hne => ?_
      · simp [hkey, Bucketed.record_of]
      · simp [hkey, Ne.symm hne]

end Histogram

/-- A call of a gauge changes what its series should show. -/
theorem Gauge.tracks_step {gauge : Gauge} {call : GaugeCall} {key : LabelKey}
    {tally tally' : LabelKey → PyFloat}
    (h : Capped.Tracks MAX_SERIES_PER_METRIC 0 gauge.values tally)
    (hkey : gauge.key call.labels = .ok key) (hself : tally' key = call.change (tally key))
    (hother : ∀ k, k ≠ key → tally' k = tally k) :
    Capped.Tracks MAX_SERIES_PER_METRIC 0 (gauge.step call).values tally' := by
  have hrecord : Capped.Tracks MAX_SERIES_PER_METRIC 0 (Capped.record MAX_SERIES_PER_METRIC 0
      (fun value change => change value) gauge.values (key, call.change)) tally' :=
    h.record (key, call.change) hself hother
  rw [(step_spec gauge call).2.2, keyed, hkey]
  exact hrecord

end

end YoutubeFactory.Observability
