import Mathlib.Logic.Function.Basic
import Mathlib.Algebra.Order.Group.Int

/-!
# Counters that expire

Counters by their keys.  Counting creates a counter that does not expire; a time to live is set
by a command of its own, and the counter is gone when it has passed.
-/

namespace Expiring

variable {Key : Type}

/-- A count, and the moment from which it is gone. -/
structure Counter where
  count : Nat
  expiresAt : Option Int
deriving DecidableEq, Repr

/-- The counter has not expired. -/
def Counter.live (c : Counter) (now : Int) : Bool := c.expiresAt.all (now < ·)

abbrev Counters (Key : Type) := Key → Option Counter

/-- The counter of a key at a moment. -/
def get (counters : Counters Key) (now : Int) (key : Key) : Option Counter :=
  (counters key).filter fun c => c.live now

/-- The count of a key: zero without a counter. -/
def count (counters : Counters Key) (now : Int) (key : Key) : Nat :=
  ((get counters now key).map Counter.count).getD 0

section

variable [DecidableEq Key]

/-- One more.  A new counter does not expire. -/
def incr (counters : Counters Key) (now : Int) (key : Key) : Counters Key :=
  Function.update counters key
    (some ⟨count counters now key + 1, (get counters now key).bind Counter.expiresAt⟩)

/-- A time to live for the counter of a key, if it has one. -/
def expire (counters : Counters Key) (now : Int) (key : Key) (seconds : Int) : Counters Key :=
  Function.update counters key
    ((get counters now key).map fun c => { c with expiresAt := some (now + seconds) })

def delete (counters : Counters Key) (key : Key) : Counters Key :=
  Function.update counters key none

end

section

variable {counters : Counters Key} {now later : Int} {key other : Key} {c : Counter}

theorem get_eq_some_iff : get counters now key = some c ↔
    counters key = some c ∧ ∀ moment, c.expiresAt = some moment → now < moment := by
  unfold get Counter.live
  rw [Option.filter_eq_some_iff]
  refine and_congr_right fun _ => ?_
  cases c.expiresAt <;> simp

/-- What is there later was there before. -/
theorem get_earlier (hle : now ≤ later) (h : get counters later key = some c) :
    get counters now key = some c := by
  rw [get_eq_some_iff] at h ⊢
  exact ⟨h.1, fun moment hmoment => hle.trans_lt (h.2 moment hmoment)⟩

/-- A counter that is there later has not changed. -/
theorem count_of_get (hle : now ≤ later) (h : (get counters later key).isSome) :
    count counters later key = count counters now key := by
  obtain ⟨c, hc⟩ := Option.isSome_iff_exists.mp h
  unfold count
  rw [hc, get_earlier hle hc]

/-- A count does not grow with time. -/
theorem count_later (hle : now ≤ later) : count counters later key ≤ count counters now key := by
  unfold count
  cases h : get counters later key with
  | none => exact Nat.zero_le _
  | some c => rw [get_earlier hle h]

variable [DecidableEq Key]

@[simp] theorem get_incr_self : get (incr counters now key) now key =
    some ⟨count counters now key + 1, (get counters now key).bind Counter.expiresAt⟩ := by
  rw [get_eq_some_iff]
  refine ⟨Function.update_self .., fun moment hmoment => ?_⟩
  obtain ⟨c, hc, hmoment⟩ := Option.bind_eq_some_iff.mp hmoment
  exact (get_eq_some_iff.mp hc).2 moment hmoment

@[simp] theorem get_delete_self : get (delete counters key) now key = none := by
  unfold get delete
  rw [Function.update_self]
  rfl

/-- Only the key's own counter is written. -/
theorem get_update_of_ne {written : Option Counter} (h : other ≠ key) :
    get (Function.update counters key written) now other = get counters now other := by
  unfold get
  rw [Function.update_of_ne h]

/-- A new counter is there for good. -/
theorem get_incr_of_none (h : get counters now key = none) :
    get (incr counters now key) later key = some ⟨1, none⟩ := by
  rw [get_eq_some_iff]
  refine ⟨?_, nofun⟩
  unfold incr count
  rw [Function.update_self, h]
  rfl

@[simp] theorem count_incr_self :
    count (incr counters now key) now key = count counters now key + 1 := by
  unfold count
  rw [get_incr_self]
  rfl

@[simp] theorem count_delete_self : count (delete counters key) now key = 0 := by
  unfold count
  rw [get_delete_self]
  rfl

/-- A time to live that is not over leaves the count. -/
theorem count_expire {seconds : Int} (hpos : 0 < seconds) :
    count (expire counters now key seconds) now key = count counters now key := by
  unfold count expire
  cases h : get counters now key with
  | none =>
      unfold get
      rw [Function.update_self]
      rfl
  | some c =>
      have hlive : get (Function.update counters key
          (some { c with expiresAt := some (now + seconds) })) now key =
          some { c with expiresAt := some (now + seconds) } := by
        refine get_eq_some_iff.mpr ⟨Function.update_self .., fun moment hmoment => ?_⟩
        cases hmoment
        exact Int.lt_add_of_pos_right now hpos
      rw [Option.map_some, hlive]
      rfl

end

/-! ## Counters that all expire in time -/

/-- Every counter expires within the window of its key. -/
def Bounded (window : Key → Int) (now : Int) (counters : Counters Key) : Prop :=
  ∀ key c, get counters now key = some c →
    ∃ moment, c.expiresAt = some moment ∧ moment ≤ now + window key

namespace Bounded

variable [DecidableEq Key] {window : Key → Int} {counters : Counters Key} {now later : Int}
  {key : Key}

omit [DecidableEq Key] in
theorem mono (h : Bounded window now counters) (hle : now ≤ later) :
    Bounded window later counters := by
  intro key c hc
  obtain ⟨moment, hmoment, hbound⟩ := h key c (get_earlier hle hc)
  exact ⟨moment, hmoment, hbound.trans (Int.add_le_add_right hle _)⟩

omit [DecidableEq Key] in
/-- A key that is left alone for its window has no counter then. -/
theorem gone (h : Bounded window now counters) (hle : now + window key ≤ later)
    (hpos : 0 ≤ window key) : get counters later key = none := by
  cases hget : get counters later key with
  | none => rfl
  | some c =>
      have hnow : now ≤ later := (Int.le_add_of_nonneg_right hpos).trans hle
      obtain ⟨moment, hmoment, hbound⟩ := h key c (get_earlier hnow hget)
      exact absurd ((get_eq_some_iff.mp hget).2 moment hmoment) (hbound.trans hle).not_gt

/-- What is written for one key. -/
theorem update {written : Option Counter} (h : Bounded window now counters)
    (hwritten : ∀ c, written = some c → ∃ moment, c.expiresAt = some moment ∧
      moment ≤ now + window key) :
    Bounded window now (Function.update counters key written) := by
  intro other c hc
  by_cases hother : other = key
  · subst hother
    rw [get_eq_some_iff, Function.update_self] at hc
    exact hwritten c hc.1
  · rw [get_update_of_ne hother] at hc
    exact h other c hc

theorem delete (h : Bounded window now counters) : Bounded window now (delete counters key) :=
  h.update nofun

/-- One more on a counter that is there. -/
theorem incr (h : Bounded window now counters) (hthere : (get counters now key).isSome) :
    Bounded window now (incr counters now key) := by
  refine h.update fun c hc => ?_
  obtain ⟨c', hc'⟩ := Option.isSome_iff_exists.mp hthere
  obtain ⟨moment, hmoment, hbound⟩ := h key c' hc'
  cases hc
  rw [hc', Option.bind_some]
  exact ⟨moment, hmoment, hbound⟩

/-- One more, and then a time to live within the window. -/
theorem incr_expire {seconds : Int} (h : Bounded window later counters)
    (hle : seconds ≤ window key) :
    Bounded window later (Expiring.expire (Expiring.incr counters now key) later key seconds) := by
  unfold Expiring.expire Expiring.incr
  rw [Function.update_idem]
  refine h.update fun c hc => ?_
  obtain ⟨c', -, rfl⟩ := Option.map_eq_some_iff.mp hc
  exact ⟨_, rfl, Int.add_le_add_left hle later⟩

/-- A new counter without a time to live. -/
theorem not_incr (h : get counters now key = none) :
    ¬ Bounded window later (Expiring.incr counters now key) := by
  intro hbounded
  obtain ⟨moment, hmoment, -⟩ := hbounded key _ (get_incr_of_none h)
  cases hmoment

end Bounded

end Expiring
