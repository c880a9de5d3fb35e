import YoutubeFactory.Lib.Capped
import YoutubeFactory.Lib.Cumulative
import YoutubeFactory.Lib.Run
import YoutubeFactory.Lib.Sorting
import YoutubeFactory.Observability.Metrics
import Mathlib.Data.List.Chain
import Mathlib.Data.List.Lex

/-!
# Histograms

`Histogram` of `app/observability/metrics.py`.  The counts are floats in the source, and whole
numbers here.

A series is a tally of the values that were observed of it (`Bucketed.of`), its total added up as the
machine adds floats.  What is collected says so, with exact sums (`histogram_exact`).
-/

namespace YoutubeFactory.Observability

open Python (PyFloat FloatAddition)

/-! ## Series -/

/-- `_Bucketed` -/
@[ext] structure Bucketed where
  counts : List Nat
  total : PyFloat
  count : Nat
deriving DecidableEq

namespace Bucketed

variable [FloatAddition]

/-- `for_buckets` -/
def forBuckets (buckets : List PyFloat) : Bucketed :=
  { counts := List.replicate buckets.length 0, total := 0, count := 0 }

/-- What `observe` does to a series. -/
def record (buckets : List PyFloat) (series : Bucketed) (value : PyFloat) : Bucketed where
  total := FloatAddition.plus series.total value
  count := series.count + 1
  counts := buckets.zipIdx.foldl
    (fun counts b => if value ≤ b.1 then counts.modify b.2 (· + 1) else counts) series.counts

/-- The series after these observations. -/
def of (buckets values : List PyFloat) : Bucketed where
  counts := Cumulative.tally buckets values
  total := FloatAddition.total values
  count := values.length

theorem of_nil (buckets : List PyFloat) : of buckets [] = forBuckets buckets := by
  rw [of, Cumulative.tally_nil]
  rfl

/-- One more observation. -/
theorem record_of (buckets values : List PyFloat) (value : PyFloat) :
    (of buckets values).record buckets value = of buckets (values ++ [value]) := by
  have hloop := Cumulative.foldl_modify (fun bound => value ≤ bound) (· + 1) buckets []
    (Cumulative.tally buckets values) (Cumulative.length_tally buckets values)
  rw [← Cumulative.tally_concat] at hloop
  refine Bucketed.ext hloop ?_ ?_
  · exact (FloatAddition.total_concat values value).symm
  · show values.length + 1 = (values ++ [value]).length
    rw [List.length_append, List.length_singleton]

theorem foldl_record (buckets values : List PyFloat) (more : List PyFloat) :
    more.foldl (record buckets) (of buckets values) = of buckets (values ++ more) := by
  induction more generalizing values with
  | nil => rw [List.append_nil, List.foldl_nil]
  | cons value more ih =>
      rw [List.foldl_cons, record_of, ih, List.append_assoc, List.singleton_append]

end Bucketed

/-! ## The metric -/

structure Histogram extends Metric where
  buckets : List PyFloat
  values : OrderedMap LabelKey Bucketed

namespace Histogram

/-- `sorted(values)` -/
def sorted (values : List PyFloat) : List PyFloat := values.insertionSort fun a b => ¬ b < a

/-- The constructor. -/
def init (name : String) (labelnames : List String) (buckets : List PyFloat) :
    Except MetricError Histogram := do
  let metric ← Metric.init name labelnames
  if "le" ∈ labelnames then .error .reservedLe
  else if buckets.isEmpty then .error (.noBuckets name)
  else
    let finite := buckets.filter fun b => !b.isInf
    if finite ≠ sorted finite then .error (.notAscending name buckets)
    else
      let buckets := finite ++ [.inf]
      .ok { metric with
        buckets
        values :=
          if labelnames.isEmpty then OrderedMap.empty.set [] (.forBuckets buckets) else .empty }

variable (h : Histogram)

/-- `observe` -/
def observe [FloatAddition] (value : PyFloat) (labels : Labels) : Except MetricError Histogram := do
  let key ← h.key labels
  match h.values.get? key with
  | some series => pure { h with values := h.values.set key (series.record h.buckets value) }
  | none =>
      let (allowed, metric) := h.admitSeries h.values.entries.length
      if allowed then
        pure { h with
          toMetric := metric
          values := h.values.set key ((Bucketed.forBuckets h.buckets).record h.buckets value) }
      else pure { h with toMetric := metric }

/-- `count` -/
def count (labels : Labels) : Except MetricError Nat := do
  let key ← h.key labels
  pure ((h.values.get? key).elim 0 Bucketed.count)

/-- `sum` -/
def sum (labels : Labels) : Except MetricError PyFloat := do
  let key ← h.key labels
  pure ((h.values.get? key).elim 0 Bucketed.total)

/-- `sorted(self._values.items())`.  No two series have the same key. -/
def items : List (LabelKey × Bucketed) := h.values.entries.insertionSort fun a b => a.1 ≤ b.1

/-- The sample of one bucket. -/
def bucketSample (repr : ℚ → String) (key : LabelKey) (b : PyFloat × Nat) :
    Except MetricError Sample := do
  let labels ← renderLabels h.labelnames key ("le=\"" ++ formatFloat repr b.1 ++ "\"")
  pure { name := h.name ++ "_bucket", labels, value := .finite b.2 }

/-- The samples of one series. -/
def samples (repr : ℚ → String) (key : LabelKey) (series : Bucketed) :
    Except MetricError (List Sample) := do
  let pairs ← zipStrict h.buckets series.counts
  let buckets ← pairs.mapM (h.bucketSample repr key)
  let plain ← renderLabels h.labelnames key ""
  pure (buckets ++ [{ name := h.name ++ "_sum", labels := plain, value := series.total },
    { name := h.name ++ "_count", labels := plain, value := .finite series.count }])

/-- `collect` -/
def collect (repr : ℚ → String) : Except MetricError (List Sample) := do
  let samples ← h.items.mapM fun e => h.samples repr e.1 e.2
  pure samples.flatten

end Histogram

/-- A call of `observe`. -/
structure Observation where
  value : PyFloat
  labels : Labels

/-- A call that raises leaves the histogram as it was. -/
def Histogram.step [FloatAddition] (h : Histogram) (call : Observation) : Histogram :=
  (h.observe call.value call.labels).toOption.getD h

/-! ## What observing does -/

namespace Histogram

variable {h : Histogram}

/-- The series of an observation, with its value. -/
def keyed (h : Histogram) (call : Observation) : Option (LabelKey × PyFloat) :=
  (h.key call.labels).toOption.map fun key => (key, call.value)

section

variable [FloatAddition]

/-- Series by series, with the cap. -/
def recordAll (h : Histogram) (inputs : List (LabelKey × PyFloat)) : OrderedMap LabelKey Bucketed :=
  Capped.recordAll MAX_SERIES_PER_METRIC (.forBuckets h.buckets) (Bucketed.record h.buckets)
    h.values inputs

/-- An observation changes the series, and leaves the names and the buckets. -/
structure Steps (h h' : Histogram) (inputs : List (LabelKey × PyFloat)) : Prop where
  name : h'.name = h.name
  labelnames : h'.labelnames = h.labelnames
  buckets : h'.buckets = h.buckets
  values : h'.values = h.recordAll inputs

theorem step_spec (h : Histogram) (call : Observation) :
    Steps h (h.step call) (h.keyed call).toList := by
  unfold step observe keyed
  cases h.key call.labels with
  | error e => exact ⟨rfl, rfl, rfl, rfl⟩
  | ok key =>
      rw [Except.ok_bind]
      have hrecord : h.recordAll [(key, call.value)] = Capped.record MAX_SERIES_PER_METRIC
          (.forBuckets h.buckets) (Bucketed.record h.buckets) h.values (key, call.value) := rfl
      have hone : (Option.map (fun key => (key, call.value))
          (Except.ok key : Except MetricError LabelKey).toOption).toList =
          [(key, call.value)] := rfl
      rw [hone]
      unfold Capped.record at hrecord
      cases hget : h.values.get? key with
      | some series =>
          rw [hget] at hrecord
          exact ⟨rfl, rfl, rfl, hrecord.symm⟩
      | none =>
          rw [hget] at hrecord
          dsimp only at hrecord ⊢
          unfold Metric.admitSeries
          by_cases hroom : h.values.entries.length < MAX_SERIES_PER_METRIC
          · rw [if_pos hroom] at hrecord ⊢
            exact ⟨rfl, rfl, rfl, hrecord.symm⟩
          · rw [if_neg hroom] at hrecord ⊢
            exact ⟨rfl, rfl, rfl, hrecord.symm⟩

theorem records (h : Histogram) :
    Capped.Records MAX_SERIES_PER_METRIC (.forBuckets h.buckets) (Bucketed.record h.buckets) step
      Histogram.values h.keyed
      fun h' => h'.name = h.name ∧ h'.labelnames = h.labelnames ∧ h'.buckets = h.buckets where
  inv h' call := by
    rintro ⟨hname, hlabelnames, hbuckets⟩
    have hstep := step_spec h' call
    exact ⟨hstep.name.trans hname, hstep.labelnames.trans hlabelnames,
      hstep.buckets.trans hbuckets⟩
  series h' call := by
    rintro ⟨hname, hlabelnames, hbuckets⟩
    have hkeyed : h'.keyed call = h.keyed call := by
      unfold keyed
      rw [Metric.key_congr hname hlabelnames]
    rw [(step_spec h' call).values, recordAll, hbuckets, hkeyed]

/-- A run is one input after the other, to the series. -/
theorem run_spec (calls : List Observation) (h : Histogram) :
    Steps h (Run.run step h calls) (calls.filterMap h.keyed) := by
  obtain ⟨hname, hlabelnames, hbuckets⟩ :=
    Run.run_invariant (records h).inv calls ⟨rfl, rfl, rfl⟩
  exact ⟨hname, hlabelnames, hbuckets, (records h).run calls ⟨rfl, rfl, rfl⟩⟩

end

/-- The observations of a series. -/
def ofSeries (h : Histogram) (key : LabelKey) (calls : List Observation) : List Observation :=
  calls.filter fun call => h.key call.labels = .ok key

/-- The values that were observed of a series. -/
def observed (h : Histogram) (key : LabelKey) (calls : List Observation) : List PyFloat :=
  (h.ofSeries key calls).map Observation.value

theorem keyed_ofSeries (h : Histogram) (key : LabelKey) (calls : List Observation) :
    (h.ofSeries key calls).filterMap h.keyed =
      (calls.filterMap h.keyed).filter fun e => e.1 = key := by
  rw [ofSeries, List.filterMap_filter, List.filter_filterMap]
  refine congrArg (fun f => calls.filterMap f) (funext fun call => ?_)
  unfold keyed
  cases h.key call.labels with
  | error e => rfl
  | ok k =>
      by_cases hkey : k = key
      · simp [hkey, Except.toOption, Option.filter]
      · simp [hkey, Except.toOption, Option.filter]

theorem observed_eq (h : Histogram) (key : LabelKey) (calls : List Observation) :
    h.observed key calls = Capped.inputsOf key (calls.filterMap h.keyed) := by
  rw [observed, Capped.inputsOf, ← keyed_ofSeries, List.map_filterMap]
  refine (List.filterMap_eq_map_iff_forall_eq_some.mpr fun call hcall => ?_).symm
  have hkey : h.key call.labels = .ok key := of_decide_eq_true (List.mem_filter.mp hcall).2
  rw [keyed, hkey]
  rfl

/-! ## What the constructor makes -/

/-- Numbers that sorting leaves as they are ascend. -/
theorem pairwise_of_sorted {values : List PyFloat} (hvalues : ∀ a ∈ values, a ≠ .nan)
    (h : values = sorted values) : values.Pairwise (· ≤ ·) := by
  have hchain : values.IsChain fun a b => ¬ b < a :=
    Sorting.isChain_of_insertionSort_eq (fun a hlt => hlt.2 hlt.1) h.symm
  refine List.isChain_iff_pairwise.mp (hchain.imp_of_mem_imp fun a b ha hb hnot => ?_)
  exact PyFloat.le_of_not_lt (hvalues a ha) (hvalues b hb) hnot

/-- The finite buckets and the infinite one. -/
theorem init_buckets {name : String} {labelnames : List String} {buckets : List PyFloat}
    (hinit : init name labelnames buckets = .ok h) :
    ∃ finite, finite = buckets.filter (fun b => !b.isInf) ∧ finite = sorted finite ∧
      h.buckets = finite ++ [.inf] := by
  unfold init at hinit
  obtain ⟨metric, -, hrest⟩ := Except.bind_eq_ok.mp hinit
  split at hrest
  · cases hrest
  · split at hrest
    · cases hrest
    · dsimp only at hrest
      split at hrest
      · cases hrest
      · next hsorted =>
          cases hrest
          exact ⟨_, rfl, not_not.mp hsorted, rfl⟩

/-- The series of a metric without labels is there from the start, with no observation yet. -/
theorem init_values {name : String} {labelnames : List String} {buckets : List PyFloat}
    (hinit : init name labelnames buckets = .ok h) {key : LabelKey} {series : Bucketed}
    (hseries : h.values.get? key = some series) :
    series = .forBuckets h.buckets ∧ key.length = h.labelnames.length := by
  unfold init at hinit
  obtain ⟨metric, hmetric, hrest⟩ := Except.bind_eq_ok.mp hinit
  split at hrest
  · cases hrest
  · split at hrest
    · cases hrest
    · dsimp only at hrest
      split at hrest
      · cases hrest
      · cases hrest
        dsimp only at hseries ⊢
        split at hseries
        · next hempty =>
            rw [OrderedMap.get?_set] at hseries
            split at hseries
            · next hkey =>
                cases hseries
                rw [Metric.init_labelnames hmetric, hkey, List.isEmpty_iff.mp hempty]
                exact ⟨rfl, rfl⟩
            · cases hseries
        · cases hseries

theorem length_init_values {name : String} {labelnames : List String} {buckets : List PyFloat}
    (hinit : init name labelnames buckets = .ok h) :
    h.values.entries.length ≤ MAX_SERIES_PER_METRIC := by
  unfold init at hinit
  obtain ⟨metric, -, hrest⟩ := Except.bind_eq_ok.mp hinit
  split at hrest
  · cases hrest
  · split at hrest
    · cases hrest
    · dsimp only at hrest
      split at hrest
      · cases hrest
      · cases hrest
        dsimp only
        split
        · exact Nat.succ_le_of_lt (Nat.zero_lt_succ 1999)
        · exact Nat.zero_le _

theorem isolates [FloatAddition] {name : String} {labelnames : List String} {buckets : List PyFloat}
    (hinit : init name labelnames buckets = .ok h) :
    Capped.Isolates MAX_SERIES_PER_METRIC (.forBuckets h.buckets) (Bucketed.record h.buckets) step
      Histogram.values h.keyed h :=
  (records h).isolates ⟨rfl, rfl, rfl⟩ (length_init_values hinit)
    fun _ _ hseries => (init_values hinit hseries).1

/-- No number among the buckets makes them ascend, the infinite one included. -/
theorem pairwise_buckets {name : String} {labelnames : List String} {buckets : List PyFloat}
    (hinit : init name labelnames buckets = .ok h) (hbuckets : ∀ b ∈ buckets, b ≠ .nan) :
    h.buckets.Pairwise (· ≤ ·) := by
  obtain ⟨finite, hfinite, hsorted, hall⟩ := init_buckets hinit
  have hnumbers : ∀ b ∈ finite, b ≠ .nan := by
    intro b hb
    rw [hfinite] at hb
    exact hbuckets b (List.mem_of_mem_filter hb)
  rw [hall]
  refine List.pairwise_append.mpr ⟨pairwise_of_sorted hnumbers hsorted,
    List.pairwise_singleton _ _, fun b hb top htop => ?_⟩
  rw [List.mem_singleton.mp htop]
  exact PyFloat.le_inf (hnumbers b hb)

/-! ## Runs -/

variable {name : String} {labelnames : List String} {buckets : List PyFloat}

section

variable [FloatAddition]

/-- A series is what was observed of it. -/
theorem series_run (hinit : init name labelnames buckets = .ok h) {calls : List Observation}
    {key : LabelKey} {series : Bucketed}
    (hseries : (Run.run step h calls).values.get? key = some series) :
    series = .of h.buckets (h.observed key calls) := by
  rw [(run_spec calls h).values] at hseries
  have hfold := Capped.get?_recordAll (fun s hs => (init_values hinit hs).1) hseries
  rw [hfold, observed_eq, ← Bucketed.of_nil, Bucketed.foldl_record, List.nil_append]

/-- A series that is there has a value for each label name. -/
theorem length_key_run (hinit : init name labelnames buckets = .ok h) {calls : List Observation}
    {key : LabelKey} {series : Bucketed}
    (hseries : (Run.run step h calls).values.get? key = some series) :
    key.length = h.labelnames.length := by
  rcases (records h).origin ⟨rfl, rfl, rfl⟩ hseries with ⟨first, hfirst⟩ | ⟨call, -, value, hcall⟩
  · exact (init_values hinit hfirst).2
  · exact Metric.length_of_keyed hcall

/-- The observations of the other series are of no account to a series. -/
theorem series_own {calls : List Observation} {key : LabelKey} {series : Bucketed}
    (hseries : (Run.run step h calls).values.get? key = some series) :
    (Run.run step h (h.ofSeries key calls)).values.get? key = some series := by
  rw [(run_spec calls h).values] at hseries
  rw [(run_spec _ h).values, keyed_ofSeries]
  exact Capped.recordAll_own hseries

/-- An observation of another series, or of none. -/
theorem get?_step_other {call : Observation} {key : LabelKey}
    (hother : h.key call.labels ≠ .ok key) :
    (h.step call).values.get? key = h.values.get? key := by
  rw [(step_spec h call).values]
  unfold keyed
  cases hkey : h.key call.labels with
  | error e => rfl
  | ok k =>
      rw [hkey] at hother
      have hne : k ≠ key := fun heq => hother (congrArg Except.ok heq)
      exact @Capped.get?_record_ne _ _ _ _ _ _ _ _ _ (k, call.value) hne

end

/-! ## What is collected -/

/-- What the samples of a series say of the values that were observed of it. -/
def exposed (h : Histogram) (repr : ℚ → String) (key : LabelKey) (values : List PyFloat) :
    List Sample :=
  let labels := fun extra => labelText (h.labelnames.zip key) extra
  h.buckets.map (fun bound =>
      { name := h.name ++ "_bucket"
        labels := labels ("le=\"" ++ formatFloat repr bound ++ "\"")
        value := .finite (values.countP (· ≤ bound)) }) ++
    [{ name := h.name ++ "_sum", labels := labels "", value := values.sum },
      { name := h.name ++ "_count", labels := labels "", value := .finite values.length }]

theorem samples_of (repr : ℚ → String) {key : LabelKey} (values : List PyFloat)
    (hkey : key.length = h.labelnames.length) :
    h.samples repr key (.of h.buckets values) = .ok (h.exposed repr key values) := by
  have hpairs : zipStrict h.buckets (Cumulative.tally h.buckets values) =
      .ok (h.buckets.map fun bound => (bound, values.countP (· ≤ bound))) := by
    rw [zipStrict, if_pos (Cumulative.length_tally h.buckets values).symm]
    exact congrArg Except.ok List.map_prod_left_eq_zip.symm
  have hsample : ∀ b : PyFloat × Nat, h.bucketSample repr key b = .ok
      { name := h.name ++ "_bucket"
        labels := labelText (h.labelnames.zip key) ("le=\"" ++ formatFloat repr b.1 ++ "\"")
        value := .finite b.2 } := by
    intro b
    rw [bucketSample, renderLabels_eq hkey]
    rfl
  unfold samples
  rw [Bucketed.of, hpairs, Except.ok_bind, Except.mapM_of_forall fun b _ => hsample b,
    Except.ok_bind, renderLabels_eq hkey, Except.ok_bind, List.map_map, FloatAddition.total_exact]
  rfl

/-- The series come one after the other, each with what was observed of it. -/
theorem collect_run (hinit : init name labelnames buckets = .ok h) (repr : ℚ → String)
    (calls : List Observation) :
    (Run.run step h calls).collect repr = .ok ((Run.run step h calls).items.flatMap fun e =>
      h.exposed repr e.1 (h.observed e.1 calls)) := by
  obtain ⟨hname, hlabelnames, hbuckets, -⟩ := run_spec calls h
  have heach : ∀ e ∈ (Run.run step h calls).items,
      (Run.run step h calls).samples repr e.1 e.2 =
        .ok (h.exposed repr e.1 (h.observed e.1 calls)) := by
    intro e he
    have hget := OrderedMap.get?_of_mem ((List.mem_insertionSort _).mp he)
    have hkey : e.1.length = (Run.run step h calls).labelnames.length := by
      rw [hlabelnames]
      exact length_key_run hinit hget
    have hexposed : (Run.run step h calls).exposed repr e.1 (h.observed e.1 calls) =
        h.exposed repr e.1 (h.observed e.1 calls) := by
      unfold exposed
      rw [hname, hlabelnames, hbuckets]
    rw [series_run hinit hget, ← hbuckets, samples_of repr _ hkey, hexposed]
  rw [collect, Except.mapM_of_forall heach]
  rfl

/-- `count` and `sum` of a series that is there. -/
theorem count_run (hinit : init name labelnames buckets = .ok h) {calls : List Observation}
    {labels : Labels} {key : LabelKey} {series : Bucketed} (hkey : h.key labels = .ok key)
    (hseries : (Run.run step h calls).values.get? key = some series) :
    (Run.run step h calls).count labels = .ok (h.observed key calls).length ∧
      (Run.run step h calls).sum labels = .ok (h.observed key calls).sum := by
  obtain ⟨hname, hlabelnames, -, -⟩ := run_spec calls h
  have hof := series_run hinit hseries
  unfold Histogram.count Histogram.sum
  rw [Metric.key_congr hname hlabelnames, hkey, Except.ok_bind, Except.ok_bind, hseries, hof]
  exact ⟨rfl, congrArg Except.ok (FloatAddition.total_exact _)⟩

/-! ## Cumulative and exact -/

/-- A series says how many of these values are up to each bucket, how many there are, and what
they sum up to. -/
structure Tells (buckets values : List PyFloat) (series : Bucketed) : Prop where
  length : series.counts.length = buckets.length
  counts : ∀ (i : Nat) bound, buckets[i]? = some bound →
    series.counts[i]? = some (values.countP (· ≤ bound))
  cumulative : series.counts.Pairwise (· ≤ ·)
  infinite : buckets.getLast? = some .inf ∧ series.counts.getLast? = some series.count
  count : series.count = values.length
  total : series.total = values.sum

theorem tells_of {buckets values : List PyFloat} (hbuckets : buckets.Pairwise (· ≤ ·))
    (hlast : buckets.getLast? = some .inf) (hvalues : ∀ value ∈ values, value ≠ .nan) :
    Tells buckets values (.of buckets values) where
  length := Cumulative.length_tally buckets values
  counts i bound hbound := by
    show (buckets.map _)[i]? = _
    rw [List.getElem?_map, hbound]
    rfl
  cumulative := Cumulative.pairwise_tally (fun _ _ _ => PyFloat.le_trans) hbuckets values
  infinite := ⟨hlast,
    Cumulative.getLast?_tally hlast fun value hvalue => PyFloat.le_inf (hvalues value hvalue)⟩
  count := rfl
  total := FloatAddition.total_exact values

/-- Every series of a histogram says what was observed of it and nothing else, and so does what is
collected. -/
theorem histogram_exact (hinit : init name labelnames buckets = .ok h)
    (hbuckets : ∀ b ∈ buckets, b ≠ .nan) {calls : List Observation}
    (hcalls : ∀ call ∈ calls, call.value ≠ .nan) (repr : ℚ → String) :
    (∀ key series, (Run.run step h calls).values.get? key = some series →
      Tells h.buckets (h.observed key calls) series ∧
        (Run.run step h (h.ofSeries key calls)).values.get? key = some series) ∧
      (∀ call key, h.key call.labels ≠ .ok key →
        ((Run.run step h calls).step call).values.get? key =
          (Run.run step h calls).values.get? key) ∧
      (Run.run step h calls).collect repr = .ok ((Run.run step h calls).items.flatMap fun e =>
        h.exposed repr e.1 (h.observed e.1 calls)) := by
  refine ⟨fun key series hseries => ⟨?_, series_own hseries⟩, fun call key hother => ?_,
    collect_run hinit repr calls⟩
  · obtain ⟨finite, -, -, hall⟩ := init_buckets hinit
    rw [series_run hinit hseries]
    refine tells_of (pairwise_buckets hinit hbuckets) ?_ fun value hvalue => ?_
    · rw [hall]
      exact List.getLast?_concat
    · obtain ⟨call, hcall, rfl⟩ := List.mem_map.mp hvalue
      exact hcalls call (List.mem_of_mem_filter hcall)
  · obtain ⟨hname, hlabelnames, -, -⟩ := run_spec calls h
    refine get?_step_other ?_
    rw [Metric.key_congr hname hlabelnames]
    exact hother

/-! ## Two routes -/

/-- A histogram of durations by route. -/
def durations : Histogram where
  name := "duration_seconds"
  labelnames := ["route"]
  overflowed := false
  buckets := [.finite 1, .finite 10, .inf]
  values := .empty

theorem init_durations :
    init "duration_seconds" ["route"] [.finite 1, .finite 10] = .ok durations := rfl

/-- Two observations of one route, the first at a bound, and one of another route between. -/
def twoRoutes : List Observation :=
  [⟨.finite 1, [("route", "/")]⟩, ⟨.finite 50, [("route", "/api")]⟩,
    ⟨.finite 5, [("route", "/")]⟩]

theorem histogram_exact_routes :
    (Run.run step durations twoRoutes).values.get? ["/"] = some ⟨[1, 2, 2], .finite 6, 2⟩ ∧
      Tells durations.buckets (durations.observed ["/"] twoRoutes) ⟨[1, 2, 2], .finite 6, 2⟩ := by
  have hseries : (Run.run step durations twoRoutes).values.get? ["/"] =
      some ⟨[1, 2, 2], .finite 6, 2⟩ := by
    decide +kernel
  have hexact := @histogram_exact _ _ _ _ init_durations (by decide) twoRoutes (by decide) toString
  exact ⟨hseries, (hexact.1 ["/"] _ hseries).1⟩

end Histogram

end YoutubeFactory.Observability
