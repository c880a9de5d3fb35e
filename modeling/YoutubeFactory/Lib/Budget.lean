import Mathlib.Algebra.BigOperators.Group.List.Basic
import Mathlib.Algebra.GroupWithZero.Nat
import Mathlib.Algebra.Order.Group.Nat

/-!
# The longest part that a budget allows

The elements of a list have costs.  `within` takes elements from the front as long as
their costs together are within a budget.  It is a front part within the budget, and
every other front part within the budget is a part of it.
-/

namespace Budget

variable {α : Type} {cost : α → Nat}

/-- The elements that the budget allows, after some of it was spent. -/
def within (cost : α → Nat) (budget : Int) : Nat → List α → List α
  | _, [] => []
  | spent, x :: xs =>
      if (spent + cost x : Nat) > budget then [] else x :: within cost budget (spent + cost x) xs

variable {budget : Int} {spent : Nat} {xs ys : List α}

@[simp] theorem within_nil : within cost budget spent [] = [] := rfl

theorem within_prefix : within cost budget spent xs <+: xs := by
  induction xs generalizing spent with
  | nil => exact List.prefix_rfl
  | cons x xs ih =>
      rw [within]
      split
      · exact List.nil_prefix
      · exact (List.prefix_cons_inj x).mpr ih

/-- What is taken is within the budget, if anything is. -/
theorem within_le (h : within cost budget spent xs ≠ []) :
    (spent + ((within cost budget spent xs).map cost).sum : Nat) ≤ budget := by
  induction xs generalizing spent with
  | nil => exact absurd rfl h
  | cons x xs ih =>
      rw [within] at h ⊢
      split at h
      · exact absurd rfl h
      · next hfits =>
          rw [if_neg hfits, List.map_cons, List.sum_cons, ← Nat.add_assoc]
          by_cases hrest : within cost budget (spent + cost x) xs = []
          · rw [hrest]
            exact not_lt.mp hfits
          · exact ih hrest

/-- Nothing longer is within the budget. -/
theorem prefix_within (hstart : ys <+: xs)
    (hle : (spent + (ys.map cost).sum : Nat) ≤ budget) : ys <+: within cost budget spent xs := by
  induction xs generalizing spent ys with
  | nil => exact hstart
  | cons x xs ih =>
      cases ys with
      | nil => exact List.nil_prefix
      | cons y ys =>
          obtain ⟨rfl, hrest⟩ := List.cons_prefix_cons.mp hstart
          rw [List.map_cons, List.sum_cons, ← Nat.add_assoc] at hle
          have hfits : ¬ (spent + cost y : Nat) > budget := by omega
          rw [within, if_neg hfits]
          exact (List.prefix_cons_inj y).mpr (ih hrest hle)

end Budget
