import Mathlib.Algebra.Order.BigOperators.Group.List
import Mathlib.Algebra.Order.Group.Defs
import Mathlib.Algebra.Order.Group.MinMax

/-!
# The excess over an allowance

The excess of a quantity over an allowance is what remains of it above the
allowance.  A quantity that is cut into windows, each with the whole allowance, has
at most the excess of the quantity in one piece, and exactly that excess only when
the pieces are trivial.
-/

namespace Excess

variable {α : Type} [AddCommGroup α] [LinearOrder α] [IsOrderedAddMonoid α]

/-- What is left of `u` above the allowance `a`. -/
def excess (a u : α) : α := max (u - a) 0

theorem excess_of_le {a u : α} (h : u ≤ a) : excess a u = 0 :=
  max_eq_right (sub_nonpos.mpr h)

theorem excess_of_ge {a u : α} (h : a ≤ u) : excess a u = u - a :=
  max_eq_left (sub_nonneg.mpr h)

theorem excess_zero {a : α} (h : 0 ≤ a) : excess a 0 = 0 := excess_of_le h

/-- Two windows have at most the excess of both together. -/
theorem excess_add_le {a u v : α} (ha : 0 ≤ a) (hu : 0 ≤ u) (hv : 0 ≤ v) :
    excess a u + excess a v ≤ excess a (u + v) := by
  rcases le_total u a with hua | hua
  · rw [excess_of_le hua, zero_add]
    exact max_le_max_right 0 (sub_le_sub_right (le_add_of_nonneg_left hu) a)
  · rcases le_total v a with hva | hva
    · rw [excess_of_le hva, add_zero]
      exact max_le_max_right 0 (sub_le_sub_right (le_add_of_nonneg_right hv) a)
    · rw [excess_of_ge hua, excess_of_ge hva, excess_of_ge (hua.trans (le_add_of_nonneg_right hv)),
        add_sub_assoc]
      exact add_le_add_left (sub_le_self u ha) (v - a)

/-- Two windows with something in each have less than the excess of both together. -/
theorem excess_add_lt {a u v : α} (ha : 0 < a) (hu : 0 < u) (hv : 0 < v) (huv : a < u + v) :
    excess a u + excess a v < u + v - a := by
  rcases le_total u a with hua | hua
  · rcases le_total v a with hva | hva
    · rw [excess_of_le hua, excess_of_le hva, add_zero]
      exact sub_pos.mpr huv
    · rw [excess_of_le hua, excess_of_ge hva, zero_add]
      exact sub_lt_sub_right (lt_add_of_pos_left v hu) a
  · rcases le_total v a with hva | hva
    · rw [excess_of_ge hua, excess_of_le hva, add_zero]
      exact sub_lt_sub_right (lt_add_of_pos_right u hv) a
    · rw [excess_of_ge hua, excess_of_ge hva, add_sub_assoc]
      exact add_lt_add_left (sub_lt_self u ha) (v - a)

/-- Any number of windows has at most the excess of all together. -/
theorem sum_excess_le {a : α} (ha : 0 ≤ a) :
    ∀ {us : List α}, (∀ u ∈ us, 0 ≤ u) → (us.map (excess a)).sum ≤ excess a us.sum
  | [], _ => by rw [List.map_nil, List.sum_nil, excess_zero ha]
  | u :: us, h => by
      rw [List.forall_mem_cons] at h
      rw [List.map_cons, List.sum_cons, List.sum_cons]
      calc excess a u + (us.map (excess a)).sum
          ≤ excess a u + excess a us.sum := add_le_add_right (sum_excess_le ha h.2) _
        _ ≤ excess a (u + us.sum) := excess_add_le ha h.1 (List.sum_nonneg h.2)

/-- The empty windows count for nothing. -/
theorem sum_excess_filter {a : α} (ha : 0 ≤ a) (us : List α) :
    ((us.filter (· ≠ 0)).map (excess a)).sum = (us.map (excess a)).sum := by
  induction us with
  | nil => rfl
  | cons u us ih =>
      by_cases hu : u = 0
      · rw [List.filter_cons_of_neg (by simpa using hu), ih, List.map_cons, List.sum_cons, hu,
          excess_zero ha, zero_add]
      · rw [List.filter_cons_of_pos (by simpa using hu), List.map_cons, List.sum_cons, ih,
          List.map_cons, List.sum_cons]

omit [IsOrderedAddMonoid α] in
theorem sum_filter_ne_zero (us : List α) : (us.filter (· ≠ 0)).sum = us.sum := by
  induction us with
  | nil => rfl
  | cons u us ih =>
      by_cases hu : u = 0
      · rw [List.filter_cons_of_neg (by simpa using hu), ih, List.sum_cons, hu, zero_add]
      · rw [List.filter_cons_of_pos (by simpa using hu), List.sum_cons, ih, List.sum_cons]

/-- Above the allowance, the windows have the whole excess exactly when one of them
holds everything. -/
theorem sum_excess_eq_iff {a : α} (ha : 0 < a) {us : List α} (hus : ∀ u ∈ us, 0 ≤ u)
    (hsum : a < us.sum) :
    (us.map (excess a)).sum = us.sum - a ↔ (us.filter (· ≠ 0)).length = 1 := by
  rw [← sum_excess_filter ha.le, ← sum_filter_ne_zero us]
  rw [← sum_filter_ne_zero us] at hsum
  have hpos : ∀ u ∈ us.filter (· ≠ 0), 0 < u := by
    intro u hu
    obtain ⟨hmem, hne⟩ := List.mem_filter.mp hu
    exact lt_of_le_of_ne (hus u hmem) (Ne.symm (by simpa using hne))
  generalize us.filter (· ≠ 0) = windows at hpos hsum ⊢
  match windows with
  | [] =>
      rw [List.sum_nil] at hsum
      exact absurd hsum (not_lt.mpr ha.le)
  | [u] =>
      rw [List.sum_singleton] at hsum
      simp [excess_of_ge hsum.le]
  | u :: v :: rest =>
      rw [List.forall_mem_cons] at hpos
      have hrest : 0 < (v :: rest).sum := by
        rw [List.forall_mem_cons] at hpos
        rw [List.sum_cons]
        exact add_pos_of_pos_of_nonneg hpos.2.1
          (List.sum_nonneg fun w hw => (hpos.2.2 w hw).le)
      rw [List.sum_cons] at hsum
      have hlt := excess_add_lt ha hpos.1 hrest hsum
      have hle := sum_excess_le ha.le fun w hw => (hpos.2 w hw).le
      rw [List.map_cons, List.sum_cons, List.sum_cons]
      constructor
      · intro heq
        have hsmall := add_le_add_right hle (excess a u)
        rw [heq] at hsmall
        exact absurd hlt (not_lt.mpr hsmall)
      · intro hlength
        simp at hlength

end Excess
