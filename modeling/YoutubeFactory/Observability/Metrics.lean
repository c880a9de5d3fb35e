import YoutubeFactory.Lib.Except
import YoutubeFactory.Python.Floats
import YoutubeFactory.Python.Text
import Mathlib.Data.List.Sort
import Mathlib.Data.String.Basic

/-!
# Metrics

`Metric`, `Sample` and what renders them in `app/observability/metrics.py`, less the documentation
and the log.  A metric holds a lock while it works on its series, so its calls come one after the
other.
-/

namespace YoutubeFactory.Observability

open Python (PyFloat)

/-- `MAX_SERIES_PER_METRIC` -/
def MAX_SERIES_PER_METRIC : Nat := 2000

/-- `_LabelKey` -/
abbrev LabelKey := List String

/-- The labels of a call by their names, each with what `str` makes of it. -/
abbrev Labels := List (String × String)

/-- The `ValueError`s, with what their messages name. -/
inductive MetricError where
  | invalidName (name : String)
  | invalidLabel (label : String)
  | reservedLabel (label : String)
  | duplicateLabels (name : String) (labelnames : List String)
  | reservedLe
  | noBuckets (name : String)
  | notAscending (name : String) (buckets : List PyFloat)
  | wrongLabels (name : String) (expected got : List String)
  /-- `zip` with `strict=True` -/
  | unequalLengths
deriving DecidableEq

/-! ## Texts -/

section

variable (repr : ℚ → String)

/-- `_format_float`.  `repr` is what Python writes for a float. -/
def formatFloat : PyFloat → String
  | .nan => "NaN"
  | .inf => "+Inf"
  | .negInf => "-Inf"
  | .finite q => if q.den = 1 ∧ |q| < 10 ^ 15 then toString q.num else repr q

/-- `text.replace(old, new)`, for one character. -/
def replaceChar (old : Char) (new text : String) : String :=
  String.ofList (text.toList.flatMap fun c => if c = old then new.toList else [c])

/-- `_escape_label_value` -/
def escapeLabelValue (value : String) : String :=
  replaceChar '\n' "\\n" (replaceChar '"' "\\\"" (replaceChar '\\' "\\\\" value))

/-- `zip(xs, ys, strict=True)` -/
def zipStrict {α β : Type} (xs : List α) (ys : List β) : Except MetricError (List (α × β)) :=
  if xs.length = ys.length then .ok (xs.zip ys) else .error .unequalLengths

/-- The text of a label set, empty if there is none. -/
def labelText (pairs : Labels) (extra : String) : String :=
  let parts := (pairs.map fun label => label.1 ++ "=\"" ++ escapeLabelValue label.2 ++ "\"") ++
    if extra = "" then [] else [extra]
  if parts.isEmpty then "" else "\x7b" ++ ",".intercalate parts ++ "\x7d"

/-- `_render_labels` -/
def renderLabels (names : List String) (values : LabelKey) (extra : String) :
    Except MetricError String := do
  let pairs ← zipStrict names values
  pure (labelText pairs extra)

end

theorem renderLabels_eq {names : List String} {key : LabelKey} (hkey : key.length = names.length)
    (extra : String) : renderLabels names key extra = .ok (labelText (names.zip key) extra) := by
  rw [renderLabels, zipStrict, if_pos hkey.symm]
  rfl

structure Sample where
  name : String
  labels : String
  value : PyFloat
deriving DecidableEq

/-! ## Metrics -/

/-- `_NAME_RE` and `_LABEL_RE`.  Their `$` also stands before a newline that ends the text. -/
def isMatch (extra : Char → Bool) (text : String) : Bool :=
  let isWord := fun c : Char => c.isAlpha || extra c
  match text.toList with
  | [] => false
  | c :: cs =>
      let rest := fun cs : List Char => cs.all fun c => isWord c || c.isDigit
      isWord c && (rest cs || cs.getLast? = some '\n' && rest cs.dropLast)

structure Metric where
  name : String
  labelnames : List String
  overflowed : Bool

namespace Metric

/-- What the constructor asks of a label name. -/
def checkLabel (label : String) : Except MetricError Unit :=
  if ¬ isMatch (· = '_') label then .error (.invalidLabel label)
  else if Python.startsWith label "__" then .error (.reservedLabel label)
  else .ok ()

/-- The constructor. -/
def init (name : String) (labelnames : List String) : Except MetricError Metric := do
  if ¬ isMatch (fun c => c = '_' || c = ':') name then .error (.invalidName name)
  else
    labelnames.forM checkLabel
    if ¬ labelnames.Nodup then .error (.duplicateLabels name labelnames)
    else .ok { name, labelnames, overflowed := false }

variable (metric : Metric)

/-- `_key`.  The names are those of the metric, so each of them is there. -/
def key (labels : Labels) : Except MetricError LabelKey :=
  if labels.map Prod.fst ⊆ metric.labelnames ∧ metric.labelnames ⊆ labels.map Prod.fst then
    .ok (metric.labelnames.map fun name => (labels.lookup name).getD "")
  else .error (.wrongLabels metric.name metric.labelnames
    ((labels.map Prod.fst).insertionSort (· ≤ ·)))

/-- `_admit`, with the flag that it sets. -/
def admitSeries (known : Nat) : Bool × Metric :=
  if known < MAX_SERIES_PER_METRIC then (true, metric)
  else (false, { metric with overflowed := true })

variable {metric}

theorem init_labelnames {name : String} {labelnames : List String}
    (h : init name labelnames = .ok metric) : metric.labelnames = labelnames := by
  unfold init at h
  split at h
  · cases h
  · obtain ⟨-, -, hrest⟩ := Except.bind_eq_ok.mp h
    split at hrest
    · cases hrest
    · cases hrest
      rfl

/-- A key has a value for each label name. -/
theorem length_key {labels : Labels} {key : LabelKey} (h : metric.key labels = .ok key) :
    key.length = metric.labelnames.length := by
  unfold Metric.key at h
  split at h
  · cases h
    exact List.length_map _
  · cases h

/-- So does the key of the input that a call is. -/
theorem length_of_keyed {Input : Type} {input found : Input} {labels : Labels} {key : LabelKey}
    (h : ((metric.key labels).toOption.map fun key => (key, input)) = some (key, found)) :
    key.length = metric.labelnames.length := by
  cases hkey : metric.key labels with
  | error e =>
      rw [hkey] at h
      cases h
  | ok k =>
      rw [hkey] at h
      cases h
      exact length_key hkey

/-- The key of a call depends on the names only. -/
theorem key_congr {metric' : Metric} (hname : metric'.name = metric.name)
    (hlabelnames : metric'.labelnames = metric.labelnames) (labels : Labels) :
    metric'.key labels = metric.key labels := by
  unfold Metric.key
  rw [hname, hlabelnames]

end Metric

end YoutubeFactory.Observability
