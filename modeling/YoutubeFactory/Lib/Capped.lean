import YoutubeFactory.Lib.OrderedMap
import YoutubeFactory.Lib.Run
import Mathlib.Data.List.Perm.Subperm

/-!
# Capped series

A map of series, each of which takes the inputs of its key.  A new key is admitted as long as
there are fewer series than the cap.  A key that is refused once is refused for good, as series
are never dropped.  So a series that is there has taken every input of its key, and nothing else
(`get?_recordAll`), and the inputs of the other keys are of no account to it (`recordAll_own`).

The series of a system whose calls are such inputs are isolated from each other all along a run
(`Records.isolates`).  A tally that goes along with the inputs is what the series show
(`Tracks.record`).
-/

namespace Capped

variable {Key Series Input : Type} [DecidableEq Key] (cap : Nat) (start : Series)
  (take : Series → Input → Series)

/-- One input, to the series of its key. -/
def record (series : OrderedMap Key Series) (e : Key × Input) : OrderedMap Key Series :=
  match series.get? e.1 with
  | some s => series.set e.1 (take s e.2)
  | none =>
      if series.entries.length < cap then series.set e.1 (take start e.2) else series

/-- One input after the other. -/
def recordAll (series : OrderedMap Key Series) (inputs : List (Key × Input)) :
    OrderedMap Key Series :=
  inputs.foldl (record cap start take) series

/-- The inputs of a key. -/
def inputsOf (key : Key) (inputs : List (Key × Input)) : List Input :=
  (inputs.filter fun e => e.1 = key).map Prod.snd

variable {cap start take} {series : OrderedMap Key Series} {key : Key}
  {inputs : List (Key × Input)}

/-! ## One input -/

/-- A series takes an input of its key. -/
theorem get?_record_self {s : Series} {input : Input} (h : series.get? key = some s) :
    (record cap start take series (key, input)).get? key = some (take s input) := by
  rw [record, h, OrderedMap.get?_set, if_pos rfl]

/-- The inputs of another key. -/
theorem get?_record_ne {e : Key × Input} (hne : e.1 ≠ key) :
    (record cap start take series e).get? key = series.get? key := by
  unfold record
  split
  · rw [OrderedMap.get?_set, if_neg hne.symm]
  · split
    · rw [OrderedMap.get?_set, if_neg hne.symm]
    · rfl

/-- A new key is admitted if there is room. -/
theorem get?_record_new {input : Input} (h : series.get? key = none) :
    (record cap start take series (key, input)).get? key =
      if series.entries.length < cap then some (take start input) else none := by
  rw [record, h]
  dsimp only
  split
  · rw [OrderedMap.get?_set, if_pos rfl]
  · exact h

/-- An input that is refused changes nothing. -/
theorem record_of_refused {e : Key × Input}
    (h : (record cap start take series e).get? e.1 = none) :
    record cap start take series e = series := by
  unfold record at h ⊢
  split at h
  · rw [OrderedMap.get?_set, if_pos rfl] at h
    cases h
  · split at h
    · rw [OrderedMap.get?_set, if_pos rfl] at h
      cases h
    · next hfull => exact if_neg hfull

/-- There is no room for an input that is refused. -/
theorem full_of_refused {e : Key × Input}
    (h : (record cap start take series e).get? e.1 = none) : cap ≤ series.entries.length := by
  have hnone : series.get? e.1 = none := by
    rw [← record_of_refused h]
    exact h
  by_contra hroom
  rw [get?_record_new hnone, if_pos (Nat.not_le.mp hroom)] at h
  cases h

/-- Series that are within the cap stay within it. -/
theorem length_record_le (e : Key × Input) (h : series.entries.length ≤ cap) :
    (record cap start take series e).entries.length ≤ cap := by
  unfold record
  split
  · next s hs =>
      have hkey : e.1 ∈ series.keys := by
        by_contra hnot
        cases (OrderedMap.get?_eq_none_iff.mpr hnot).symm.trans hs
      rw [OrderedMap.length_set, if_pos hkey]
      exact h
  · split
    · next hroom =>
        rw [OrderedMap.length_set]
        split
        · exact h
        · exact hroom
    · exact h

/-- A series is never dropped. -/
theorem length_le_record (e : Key × Input) :
    series.entries.length ≤ (record cap start take series e).entries.length := by
  have hset : ∀ s : Series, series.entries.length ≤ (series.set e.1 s).entries.length := by
    intro s
    rw [OrderedMap.length_set]
    split
    · exact Nat.le_refl _
    · exact Nat.le_succ _
  unfold record
  split
  · exact hset _
  · split
    · exact hset _
    · exact Nat.le_refl _

/-! ## All inputs -/

theorem recordAll_cons (e : Key × Input) : recordAll cap start take series (e :: inputs) =
    recordAll cap start take (record cap start take series e) inputs := rfl

theorem inputsOf_cons_self (input : Input) :
    inputsOf key ((key, input) :: inputs) = input :: inputsOf key inputs := by
  simp [inputsOf]

theorem inputsOf_cons_ne {e : Key × Input} (hne : e.1 ≠ key) :
    inputsOf key (e :: inputs) = inputsOf key inputs := by
  simp [inputsOf, hne]

/-- A series that is there takes all inputs of its key. -/
theorem get?_recordAll_of_some {s : Series} (h : series.get? key = some s) :
    (recordAll cap start take series inputs).get? key =
      some ((inputsOf key inputs).foldl take s) := by
  induction inputs generalizing series s with
  | nil => exact h
  | cons e inputs ih =>
      rw [recordAll_cons]
      by_cases hkey : e.1 = key
      · obtain ⟨k, input⟩ := e
        obtain rfl : k = key := hkey
        rw [inputsOf_cons_self, List.foldl_cons]
        exact ih (get?_record_self h)
      · rw [inputsOf_cons_ne hkey]
        exact ih ((get?_record_ne hkey).trans h)

/-- A key that is refused stays refused. -/
theorem get?_recordAll_of_full (h : series.get? key = none) (hfull : cap ≤ series.entries.length) :
    (recordAll cap start take series inputs).get? key = none := by
  induction inputs generalizing series with
  | nil => exact h
  | cons e inputs ih =>
      rw [recordAll_cons]
      refine ih ?_ (Nat.le_trans hfull (length_le_record e))
      by_cases hkey : e.1 = key
      · obtain ⟨k, input⟩ := e
        obtain rfl : k = key := hkey
        rw [get?_record_new h, if_neg (Nat.not_lt.mpr hfull)]
      · exact (get?_record_ne hkey).trans h

/-- A key that is admitted was so at its first input, when there was room. -/
theorem get?_recordAll_of_none {s : Series} (h : series.get? key = none)
    (hs : (recordAll cap start take series inputs).get? key = some s) :
    series.entries.length < cap ∧ inputsOf key inputs ≠ [] ∧
      s = (inputsOf key inputs).foldl take start := by
  induction inputs generalizing series with
  | nil => cases h.symm.trans hs
  | cons e inputs ih =>
      have hroom : series.entries.length < cap := by
        by_contra hfull
        cases (get?_recordAll_of_full h (Nat.not_lt.mp hfull)).symm.trans hs
      refine ⟨hroom, ?_⟩
      rw [recordAll_cons] at hs
      by_cases hkey : e.1 = key
      · obtain ⟨k, input⟩ := e
        obtain rfl : k = key := hkey
        have hnew : (record cap start take series (k, input)).get? k = some (take start input) := by
          rw [get?_record_new h, if_pos hroom]
        rw [inputsOf_cons_self]
        exact ⟨List.cons_ne_nil _ _, Option.some.inj (hs.symm.trans (get?_recordAll_of_some hnew))⟩
      · rw [inputsOf_cons_ne hkey]
        exact (ih ((get?_record_ne hkey).trans h) hs).2

/-- Where all keys that there can be are within the cap, none is refused. -/
theorem get?_recordAll_of_room {keys : List Key} (hcap : keys.length ≤ cap)
    (hseries : series.keys ⊆ keys) (hinputs : ∀ e ∈ inputs, e.1 ∈ keys)
    (h : series.get? key = none) (hne : inputsOf key inputs ≠ []) :
    (recordAll cap start take series inputs).get? key =
      some ((inputsOf key inputs).foldl take start) := by
  induction inputs generalizing series with
  | nil => exact absurd rfl hne
  | cons e inputs ih =>
      rw [List.forall_mem_cons] at hinputs
      rw [recordAll_cons]
      by_cases hkey : e.1 = key
      · obtain ⟨k, input⟩ := e
        obtain rfl : k = key := hkey
        -- With the new key there are still no more than all keys that there can be.
        have hroom : series.entries.length < cap := by
          have hnodup : (k :: series.keys).Nodup :=
            List.nodup_cons.mpr ⟨OrderedMap.get?_eq_none_iff.mp h, series.nodup⟩
          have hlength := (hnodup.subperm
            (List.cons_subset.mpr ⟨hinputs.1, hseries⟩)).length_le
          have hkeys : series.keys.length = series.entries.length := List.length_map _
          rw [List.length_cons, hkeys] at hlength
          omega
        have hnew : (record cap start take series (k, input)).get? k = some (take start input) := by
          rw [get?_record_new h, if_pos hroom]
        rw [inputsOf_cons_self, get?_recordAll_of_some hnew, List.foldl_cons]
      · rw [inputsOf_cons_ne hkey] at hne ⊢
        refine ih (fun k hk => ?_) hinputs.2 ((get?_record_ne hkey).trans h) hne
        by_cases heq : k = e.1
        · exact heq ▸ hinputs.1
        · refine hseries ?_
          by_contra hnot
          have hnone : (record cap start take series e).get? k = none :=
            (get?_record_ne (Ne.symm heq)).trans (OrderedMap.get?_eq_none_iff.mpr hnot)
          exact OrderedMap.get?_eq_none_iff.mp hnone hk

/-- What a series has taken, whether it was there or not. -/
theorem get?_recordAll {s : Series} (hstart : ∀ s ∈ series.get? key, s = start)
    (hs : (recordAll cap start take series inputs).get? key = some s) :
    s = (inputsOf key inputs).foldl take start := by
  cases h : series.get? key with
  | none => exact (get?_recordAll_of_none h hs).2.2
  | some s₀ =>
      rw [← hstart s₀ h]
      exact Option.some.inj (hs.symm.trans (get?_recordAll_of_some h))

theorem length_recordAll_le (h : series.entries.length ≤ cap) :
    (recordAll cap start take series inputs).entries.length ≤ cap := by
  induction inputs generalizing series with
  | nil => exact h
  | cons e inputs ih =>
      rw [recordAll_cons]
      exact ih (length_record_le e h)

/-- A key that has a series keeps it. -/
theorem mem_keys_recordAll (h : key ∈ series.keys) :
    key ∈ (recordAll cap start take series inputs).keys := by
  by_contra hnot
  cases hget : series.get? key with
  | none => exact OrderedMap.get?_eq_none_iff.mp hget h
  | some s =>
      cases (OrderedMap.get?_eq_none_iff.mpr hnot).symm.trans (get?_recordAll_of_some hget)

/-! ## What the series should show -/

/-- Each series is what it should be, and one that is not there has nothing to show or has found no
room. -/
structure Tracks (cap : Nat) (start : Series) (series : OrderedMap Key Series)
    (tally : Key → Series) : Prop where
  shown : ∀ key s, series.get? key = some s → s = tally key
  missing : ∀ key, series.get? key = none → tally key = start ∨ cap ≤ series.entries.length

theorem Tracks.congr {tally tally' : Key → Series} (h : Tracks cap start series tally)
    (htally : ∀ key, tally' key = tally key) : Tracks cap start series tally' :=
  funext htally ▸ h

theorem Tracks.empty {tally : Key → Series} (htally : ∀ key, tally key = start) :
    Tracks cap start .empty tally where
  shown _ _ h := by cases h
  missing key _ := .inl (htally key)

/-- An input to a series and to what it should show. -/
theorem Tracks.record {tally tally' : Key → Series} (h : Tracks cap start series tally)
    (e : Key × Input) (hself : tally' e.1 = take (tally e.1) e.2)
    (hother : ∀ key, key ≠ e.1 → tally' key = tally key) :
    Tracks cap start (record cap start take series e) tally' where
  shown key s hs := by
    by_cases hkey : e.1 = key
    · obtain ⟨k, input⟩ := e
      obtain rfl : k = key := hkey
      cases hget : series.get? k with
      | some s₀ =>
          rw [get?_record_self hget, h.shown k s₀ hget] at hs
          rw [hself]
          exact (Option.some.inj hs).symm
      | none =>
          rw [get?_record_new hget] at hs
          split at hs
          · next hroom =>
              rw [hself, (h.missing k hget).resolve_right (Nat.not_le.mpr hroom)]
              exact (Option.some.inj hs).symm
          · cases hs
    · rw [get?_record_ne hkey] at hs
      rw [hother key (Ne.symm hkey)]
      exact h.shown key s hs
  missing key hnone := by
    by_cases hkey : e.1 = key
    · subst hkey
      rw [record_of_refused hnone]
      exact .inr (full_of_refused hnone)
    · rw [get?_record_ne hkey] at hnone
      rw [hother key (Ne.symm hkey)]
      exact (h.missing key hnone).imp_right fun hfull => Nat.le_trans hfull (length_le_record e)

/-! ## The inputs of the other keys -/

theorem inputsOf_own : inputsOf key (inputs.filter fun e => e.1 = key) = inputsOf key inputs := by
  rw [inputsOf, List.filter_filter]
  simp only [Bool.and_self]
  rfl

/-- Without the inputs of the other keys, the series is the same. -/
theorem recordAll_own {s : Series}
    (hs : (recordAll cap start take series inputs).get? key = some s) :
    (recordAll cap start take series (inputs.filter fun e => e.1 = key)).get? key = some s := by
  cases h : series.get? key with
  | some s₀ =>
      rw [get?_recordAll_of_some h] at hs ⊢
      rw [inputsOf_own]
      exact hs
  | none =>
      obtain ⟨hroom, hinputs, rfl⟩ := get?_recordAll_of_none h hs
      rw [← inputsOf_own] at hinputs ⊢
      cases hown : inputs.filter fun e => e.1 = key with
      | nil =>
          rw [hown] at hinputs
          exact absurd rfl hinputs
      | cons e own =>
          have hmem : e ∈ inputs.filter fun e => e.1 = key := by
            rw [hown]
            exact List.mem_cons_self
          obtain ⟨k, input⟩ := e
          obtain rfl : k = key := of_decide_eq_true (List.mem_filter.mp hmem).2
          have hnew : (record cap start take series (k, input)).get? k =
              some (take start input) := by
            rw [get?_record_new h, if_pos hroom]
          rw [recordAll_cons, get?_recordAll_of_some hnew, inputsOf_cons_self, List.foldl_cons]

/-! ## Runs -/

section

variable {State Call : Type} (cap start take) (step : State → Call → State)
  (seriesOf : State → OrderedMap Key Series) (keyed : Call → Option (Key × Input))

/-- The calls of a system are inputs of its series, or do nothing to them.  `Inv` is what the calls
do not change. -/
structure Records (Inv : State → Prop) : Prop where
  inv : ∀ s call, Inv s → Inv (step s call)
  series : ∀ s call, Inv s →
    seriesOf (step s call) = recordAll cap start take (seriesOf s) (keyed call).toList

/-- The series from a state on.  There are never more than the cap, none is dropped, each has taken
all inputs of its key.  An input that is refused changes nothing, and its key is refused for
good. -/
structure Isolates (s : State) : Prop where
  bounded : ∀ calls, (seriesOf (Run.run step s calls)).entries.length ≤ cap
  grows : ∀ calls later,
    (seriesOf (Run.run step s calls)).keys ⊆ (seriesOf (Run.run step s (calls ++ later))).keys
  exact : ∀ calls key found, (seriesOf (Run.run step s calls)).get? key = some found →
    found = (inputsOf key (calls.filterMap keyed)).foldl take start
  unchanged : ∀ calls call key input, keyed call = some (key, input) →
    (seriesOf (Run.run step s (calls ++ [call]))).get? key = none →
    seriesOf (Run.run step s (calls ++ [call])) = seriesOf (Run.run step s calls)
  stays : ∀ calls call later key input, keyed call = some (key, input) →
    (seriesOf (Run.run step s (calls ++ [call]))).get? key = none →
    (seriesOf (Run.run step s (calls ++ call :: later))).get? key = none

variable {cap start take step seriesOf keyed} {Inv : State → Prop}

theorem Records.run (h : Records cap start take step seriesOf keyed Inv) (calls : List Call)
    {s : State} (hs : Inv s) : seriesOf (Run.run step s calls) =
      recordAll cap start take (seriesOf s) (calls.filterMap keyed) := by
  induction calls generalizing s with
  | nil => rfl
  | cons call calls ih =>
      rw [Run.run_cons, ih (h.inv s call hs), h.series s call hs]
      cases hcall : keyed call with
      | none =>
          rw [List.filterMap_cons_none hcall]
          rfl
      | some e =>
          rw [List.filterMap_cons_some hcall, recordAll_cons]
          rfl

/-- Where a series comes from. -/
theorem Records.origin (h : Records cap start take step seriesOf keyed Inv) {s : State}
    (hs : Inv s) {calls : List Call} {key : Key} {found : Series}
    (hfound : (seriesOf (Run.run step s calls)).get? key = some found) :
    (∃ first, (seriesOf s).get? key = some first) ∨
      ∃ call ∈ calls, ∃ input, keyed call = some (key, input) := by
  cases hfirst : (seriesOf s).get? key with
  | some first => exact .inl ⟨first, rfl⟩
  | none =>
      rw [h.run calls hs] at hfound
      obtain ⟨input, hinput⟩ :=
        List.exists_mem_of_ne_nil _ (get?_recordAll_of_none hfirst hfound).2.1
      obtain ⟨e, he, rfl⟩ := List.mem_map.mp hinput
      obtain ⟨hmem, hkey⟩ := List.mem_filter.mp he
      obtain ⟨call, hcall, hkeyed⟩ := List.mem_filterMap.mp hmem
      obtain rfl : e.1 = key := of_decide_eq_true hkey
      exact .inr ⟨call, hcall, e.2, hkeyed⟩

/-- Whatever the calls, the series that start within the cap are isolated. -/
theorem Records.isolates (h : Records cap start take step seriesOf keyed Inv) {s : State}
    (hs : Inv s) (hcap : (seriesOf s).entries.length ≤ cap)
    (hstart : ∀ key found, (seriesOf s).get? key = some found → found = start) :
    Isolates cap start take step seriesOf keyed s := by
  have hrefused : ∀ calls call key input, keyed call = some (key, input) →
      seriesOf (Run.run step s (calls ++ [call])) =
        record cap start take (seriesOf (Run.run step s calls)) (key, input) := by
    intro calls call key input hcall
    have hinv : Inv (Run.run step s calls) := Run.run_invariant h.inv calls hs
    rw [Run.run_append, h.run [call] hinv, List.filterMap_cons_some hcall]
    rfl
  refine ⟨fun calls => ?_, fun calls later key hkey => ?_, fun calls key found hfound => ?_,
    fun calls call key input hcall hnone => ?_, fun calls call later key input hcall hnone => ?_⟩
  · rw [h.run calls hs]
    exact length_recordAll_le hcap
  · have hinv : Inv (Run.run step s calls) := Run.run_invariant h.inv calls hs
    rw [Run.run_append, h.run later hinv]
    exact mem_keys_recordAll hkey
  · rw [h.run calls hs] at hfound
    exact get?_recordAll (hstart key) hfound
  · rw [hrefused calls call key input hcall] at hnone ⊢
    exact record_of_refused hnone
  · have hinv : Inv (Run.run step s (calls ++ [call])) := Run.run_invariant h.inv _ hs
    have hfull : cap ≤ (seriesOf (Run.run step s (calls ++ [call]))).entries.length := by
      rw [hrefused calls call key input hcall] at hnone ⊢
      exact Nat.le_trans (full_of_refused hnone) (length_le_record _)
    rw [List.append_cons, Run.run_append, h.run later hinv]
    exact get?_recordAll_of_full hnone hfull

end

end Capped
