import YoutubeFactory.Lib.Except
import YoutubeFactory.Lib.Exposition
import YoutubeFactory.Observability.Series

/-!
# What the labels of a series are read as

`_escape_label_value` replaces one character after the other, and the backslash is the first, so
together they write each character for itself (`escapeLabelValue_toList`).  The block of a series
is then read as the labels of the series.

`_LABEL_RE` ends with `$`, which also stands before a line feed that ends the name.  A metric with
such a name renders blocks that cannot be read, and no other metric does
(`labels_decodable_iff`).
-/

namespace YoutubeFactory.Observability

open Exposition (IsName)
open Python (PyFloat)

/-! ## Texts -/

theorem replaceChar_toList (old : Char) (new text : String) : (replaceChar old new text).toList =
    text.toList.flatMap fun c => if c = old then new.toList else [c] := String.toList_ofList

theorem escapeLabelValue_toList (value : String) :
    (escapeLabelValue value).toList = Exposition.escape value.toList := by
  rw [escapeLabelValue, replaceChar_toList, replaceChar_toList, replaceChar_toList,
    List.flatMap_assoc, List.flatMap_assoc, Exposition.escape]
  refine List.flatMap_congr fun c _ => ?_
  unfold Exposition.escapeChar
  by_cases hbackslash : c = '\\'
  · subst hbackslash
    rfl
  · rw [if_neg hbackslash, if_neg hbackslash, List.flatMap_singleton]
    by_cases hquote : c = '"'
    · subst hquote
      rfl
    · rw [if_neg hquote, if_neg hquote, List.flatMap_singleton]
      rfl

/-- The names and the values of labels, letter by letter. -/
def letters (names : List String) (key : LabelKey) : List (List Char × List Char) :=
  (names.map String.toList).zip (key.map String.toList)

theorem letters_eq (names : List String) (key : LabelKey) :
    letters names key = (names.zip key).map fun l => (l.1.toList, l.2.toList) := by
  rw [letters, List.zip_map]
  rfl

theorem texts_letters (names : List String) (key : LabelKey) :
    Exposition.texts (letters names key) = names.zip key := by
  rw [Exposition.texts, letters_eq, List.map_map]
  refine (List.map_congr_left fun l _ => ?_).trans (List.map_id _)
  exact Prod.ext String.ofList_toList String.ofList_toList

theorem braces_toList (parts : List String) :
    (if parts.isEmpty then "" else "\x7b" ++ ",".intercalate parts ++ "\x7d").toList =
      Exposition.block (parts.map String.toList) := by
  cases parts with
  | nil => rfl
  | cons part parts =>
      have hne : (part :: parts).map String.toList ≠ [] := List.cons_ne_nil _ _
      rw [Exposition.block, if_neg hne, List.isEmpty_cons, if_neg (Bool.false_ne_true),
        String.toList_append, String.toList_append, String.toList_intercalate]
      rfl

/-- The block of a series, with what stands behind its labels. -/
theorem labelText_toList (names : List String) (key : LabelKey) (extra : String) :
    (labelText (names.zip key) extra).toList = Exposition.block
      (Exposition.parts (letters names key) ++ if extra = "" then [] else [extra.toList]) := by
  have hlabels : ((names.zip key).map fun label => label.1 ++ "=\"" ++ escapeLabelValue label.2 ++
      "\"").map String.toList = Exposition.parts (letters names key) := by
    rw [List.map_map, Exposition.parts, letters_eq, List.map_map]
    refine List.map_congr_left fun label _ => ?_
    simp [escapeLabelValue_toList, Exposition.label]
  have hextra : (if extra = "" then [] else [extra]).map String.toList =
      if extra = "" then [] else [extra.toList] := by
    split <;> rfl
  rw [labelText, braces_toList, List.map_append, hlabels, hextra]

/-! ## Names -/

/-- `_LABEL_RE` matches the names, with a line feed behind them or without. -/
theorem isName_of_isMatch {text : String} (h : isMatch (· = '_') text = true) :
    IsName text.toList ∨ ∃ name, IsName name ∧ text.toList = name ++ ['\n'] := by
  unfold isMatch at h
  cases htext : text.toList with
  | nil =>
      rw [htext] at h
      cases h
  | cons c cs =>
      rw [htext] at h
      have hmatch : (Exposition.isNameStart c && (cs.all Exposition.isNameChar ||
          decide (cs.getLast? = some '\n') && cs.dropLast.all Exposition.isNameChar)) = true := h
      simp only [Bool.and_eq_true, Bool.or_eq_true, List.all_eq_true, decide_eq_true_eq] at hmatch
      obtain ⟨hc, hcs | ⟨hline, hcs⟩⟩ := hmatch
      · exact .inl ⟨c, cs, rfl, hc, hcs⟩
      · refine .inr ⟨c :: cs.dropLast, ⟨c, _, rfl, hc, hcs⟩, ?_⟩
        rw [List.cons_append, List.dropLast_append_getLast? _ hline]

/-- No line feed ends a name. -/
theorem not_line_of_isName {name : List Char} (h : IsName name) : name.getLast? ≠ some '\n' := by
  obtain ⟨c, cs, rfl, hc, hcs⟩ := h
  intro hlast
  have hmem := List.mem_of_getLast? hlast
  have hline : Exposition.isNameChar '\n' = true := by
    rcases List.mem_cons.mp hmem with rfl | hmem
    · cases hc
    · exact hcs _ hmem
  cases hline

/-- The constructor has matched the label names. -/
theorem Metric.isMatch_of_init {name : String} {labelnames : List String} {metric : Metric}
    (hinit : Metric.init name labelnames = .ok metric) :
    ∀ label ∈ labelnames, isMatch (· = '_') label = true := by
  unfold Metric.init at hinit
  split at hinit
  · cases hinit
  · obtain ⟨checked, hchecked, -⟩ := Except.bind_eq_ok.mp hinit
    intro label hlabel
    have hcheck := Except.forM_eq_ok.mp hchecked label hlabel
    unfold checkLabel at hcheck
    split at hcheck
    · cases hcheck
    · next hmatch => exact not_not.mp hmatch

/-! ## Blocks -/

section

variable {names : List String} {key : LabelKey}

theorem fst_letters (hlength : key.length = names.length) :
    (letters names key).map Prod.fst = names.map String.toList := by
  refine List.map_fst_zip ?_
  rw [List.length_map, List.length_map, hlength]

theorem labelText_eq (names : List String) (key : LabelKey) : labelText (names.zip key) "" =
    String.ofList (Exposition.block (Exposition.parts (letters names key))) := by
  rw [← String.toList_inj, labelText_toList, if_pos rfl, List.append_nil, String.toList_ofList]

theorem decode_labelText (hnames : ∀ name ∈ names, IsName name.toList) :
    Exposition.decode (labelText (names.zip key) "") = some (names.zip key) := by
  rw [labelText_eq, Exposition.decode_block, texts_letters]
  intro l hl
  obtain ⟨name, hname, hletters⟩ := List.mem_map.mp (List.of_mem_zip hl).1
  rw [← hletters]
  exact hnames name hname

theorem decode_labelText_line
    (hnames : ∀ name ∈ names, isMatch (· = '_') name = true) {label : String}
    (hlabel : label ∈ names) (hline : label.toList.getLast? = some '\n')
    (hlength : key.length = names.length) :
    Exposition.decode (labelText (names.zip key) "") = none := by
  rw [labelText_eq, Exposition.decode_block_line]
  · intro l hl
    obtain ⟨name, hname, hletters⟩ := List.mem_map.mp (List.of_mem_zip hl).1
    rw [← hletters]
    exact isName_of_isMatch (hnames name hname)
  · have hmem : label.toList ∈ (letters names key).map Prod.fst := by
      rw [fst_letters hlength]
      exact List.mem_map_of_mem hlabel
    obtain ⟨l, hl, hletters⟩ := List.mem_map.mp hmem
    refine ⟨l, hl, fun hname => not_line_of_isName hname ?_⟩
    rw [hletters]
    exact hline

/-- Different series have different labels, whatever the names are. -/
theorem labelText_inj {key' : LabelKey} {extra extra' : String}
    (hlength : key.length = names.length) (hlength' : key'.length = names.length)
    (h : labelText (names.zip key) extra = labelText (names.zip key') extra') : key = key' := by
  have htexts := congrArg String.toList h
  rw [labelText_toList, labelText_toList] at htexts
  have hletters : key.map String.toList = key'.map String.toList := by
    refine Exposition.block_inj ?_ ?_ htexts
    · rw [List.length_map, List.length_map, hlength]
    · rw [List.length_map, List.length_map, hlength']
  exact List.map_injective_iff.mpr (fun _ _ => String.toList_inj.mp) hletters

theorem renderLabels_eq_ok {extra text : String} (h : renderLabels names key extra = .ok text) :
    key.length = names.length ∧ text = labelText (names.zip key) extra := by
  unfold renderLabels zipStrict at h
  split at h
  · next hlength =>
      cases h
      exact ⟨hlength.symm, rfl⟩
  · cases h

end

/-! ## Series -/

/-- The labels of every series are read as they are, and no two series have the same block. -/
structure Metric.LabelsDecodable (metric : Metric) : Prop where
  decodes : ∀ key : LabelKey, key.length = metric.labelnames.length →
    ∃ text, renderLabels metric.labelnames key "" = .ok text ∧
      Exposition.decode text = some (metric.labelnames.zip key)
  distinct : ∀ (key key' : LabelKey) (extra extra' text : String),
    renderLabels metric.labelnames key extra = .ok text →
    renderLabels metric.labelnames key' extra' = .ok text → key = key'

/-- What names a sample. -/
def Sample.series (sample : Sample) : String := sample.name ++ sample.labels

/-- No two samples of a counter or a gauge have the same name. -/
theorem Metric.collectValues_nodup {metric : Metric} {values : OrderedMap LabelKey PyFloat}
    (hkeys : ∀ key value, values.get? key = some value →
      key.length = metric.labelnames.length) :
    ∃ samples, metric.collectValues values = .ok samples ∧
      (samples.map Sample.series).Nodup := by
  have hentry : ∀ e ∈ values.entries.insertionSort (fun a b => a.1 ≤ b.1), e ∈ values.entries :=
    fun e he => (List.mem_insertionSort _).mp he
  have heach : ∀ e ∈ values.entries.insertionSort (fun a b => a.1 ≤ b.1),
      (do
        let labels ← renderLabels metric.labelnames e.1 ""
        pure ({ name := metric.name, labels, value := e.2 } : Sample)) =
      .ok { name := metric.name
            labels := labelText (metric.labelnames.zip e.1) ""
            value := e.2 } := by
    intro e he
    rw [renderLabels_eq (hkeys e.1 e.2 (OrderedMap.get?_of_mem (hentry e he)))]
    rfl
  refine ⟨_, Except.mapM_of_forall heach, ?_⟩
  rw [List.map_map]
  have hsorted := List.perm_insertionSort (fun a b : LabelKey × PyFloat => a.1 ≤ b.1)
    values.entries
  refine List.Nodup.map_on (fun e he e' he' hsame => ?_)
    (hsorted.nodup_iff.mpr (List.Nodup.of_map _ values.nodup))
  have hlabels := congrArg String.toList hsame
  have hkey : e.1 = e'.1 := by
    have hlength := hkeys e.1 e.2 (OrderedMap.get?_of_mem (hentry e he))
    have hlength' := hkeys e'.1 e'.2 (OrderedMap.get?_of_mem (hentry e' he'))
    refine @labelText_inj _ _ _ "" "" hlength hlength' (String.toList_inj.mp ?_)
    simpa [Sample.series] using hlabels
  exact List.inj_on_of_nodup_map values.nodup (hentry e he) (hentry e' he') hkey

/-- No two series of a counter ever render the same sample name. -/
theorem Counter.collect_run {name : String} {labelnames : List String} {counter : Counter}
    (hinit : Counter.init name labelnames = .ok counter) (calls : List Increment) :
    ∃ samples, (Run.run Counter.step counter calls).collect = .ok samples ∧
      (samples.map Sample.series).Nodup := by
  obtain ⟨hname, hlabelnames⟩ := Run.run_invariant (Counter.records counter).inv calls ⟨rfl, rfl⟩
  obtain ⟨hnames, hvalues⟩ := Counter.init_spec hinit
  refine Metric.collectValues_nodup fun key value hvalue => ?_
  rw [hlabelnames]
  rcases (Counter.records counter).origin ⟨rfl, rfl⟩ hvalue with
    ⟨first, hfirst⟩ | ⟨call, -, input, hcall⟩
  · rw [hvalues] at hfirst
    rw [hnames]
    exact Metric.length_of_initialValues hfirst
  · unfold Counter.keyed at hcall
    split at hcall
    · cases hcall
    · exact Metric.length_of_keyed hcall

/-- Every block of a metric is read as the labels of its series if no line feed ends a label
name, and only then.  Different series have different sample names in any case. -/
theorem labels_decodable_iff {name : String} {labelnames : List String} {metric : Metric}
    (hinit : Metric.init name labelnames = .ok metric) :
    metric.LabelsDecodable ↔ ∀ label ∈ labelnames, label.toList.getLast? ≠ some '\n' := by
  have hnames := Metric.init_labelnames hinit
  have hmatch := Metric.isMatch_of_init hinit
  constructor
  · intro h label hlabel hline
    have hlength : (labelnames.map fun _ => "").length = labelnames.length := List.length_map _
    obtain ⟨text, htext, hdecode⟩ := h.decodes (labelnames.map fun _ => "")
      (by rw [hnames, hlength])
    rw [hnames] at htext hdecode
    rw [(renderLabels_eq_ok htext).2, decode_labelText_line hmatch hlabel hline hlength] at hdecode
    cases hdecode
  · intro hlines
    refine ⟨fun key hlength => ?_, fun key key' extra extra' text htext htext' => ?_⟩
    · rw [hnames] at hlength ⊢
      refine ⟨_, renderLabels_eq hlength "", decode_labelText fun label hlabel => ?_⟩
      rcases isName_of_isMatch (hmatch label hlabel) with hname | ⟨start, -, hline⟩
      · exact hname
      · refine absurd ?_ (hlines label hlabel)
        rw [hline, List.getLast?_concat]
    · obtain ⟨hlength, rfl⟩ := renderLabels_eq_ok htext
      obtain ⟨hlength', hsame⟩ := renderLabels_eq_ok htext'
      exact labelText_inj hlength hlength' hsame

theorem labels_decodable_queue :
    (Metric.mk "jobs_total" ["queue", "task_type", "status"] false).LabelsDecodable :=
  (@labels_decodable_iff "jobs_total" ["queue", "task_type", "status"] _ rfl).mpr (by decide)

/-- A label name with a line feed at its end is accepted, and its block is not read as a label. -/
theorem queue_line_not_decoded :
    Metric.init "jobs_total" ["queue\n"] =
        .ok { name := "jobs_total", labelnames := ["queue\n"], overflowed := false } ∧
      renderLabels ["queue\n"] ["render"] "" = .ok "\x7bqueue\n=\"render\"\x7d" ∧
      Exposition.decode "\x7bqueue\n=\"render\"\x7d" ≠ some [("queue\n", "render")] :=
  ⟨rfl, rfl, by decide⟩

end YoutubeFactory.Observability
