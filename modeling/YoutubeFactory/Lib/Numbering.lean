import Mathlib.Data.List.Nodup
import Mathlib.Data.List.Range

/-!
# Rows that are numbered in their groups

Each row of a table belongs to a group and has a number in it.  The next number of a group may be
taken from the count of its rows or from the greatest number given so far.  The two are the same as
long as the numbers of each group are 1 to n, and a row with the next number keeps them so.
-/

namespace Numbering

variable {Row Group : Type} [DecidableEq Group] {group : Row → Group} {number : Row → Nat}

/-- The numbers of a group, in the order of the rows. -/
def numbers (group : Row → Group) (number : Row → Nat) (rows : List Row) (g : Group) : List Nat :=
  (rows.filter fun row => group row = g).map number

def nextByCount (group : Row → Group) (rows : List Row) (g : Group) : Nat :=
  (rows.filter fun row => group row = g).length + 1

def nextByMax (group : Row → Group) (number : Row → Nat) (rows : List Row) (g : Group) : Nat :=
  (numbers group number rows g).foldr max 0 + 1

/-- The numbers of each group are 1 to n. -/
def Gapless (group : Row → Group) (number : Row → Nat) (rows : List Row) : Prop :=
  ∀ g, numbers group number rows g = List.range' 1 (numbers group number rows g).length

theorem gapless_nil : Gapless group number [] := fun _ => rfl

theorem nextByCount_eq (number : Row → Nat) (rows : List Row) (g : Group) :
    nextByCount group rows g = (numbers group number rows g).length + 1 := by
  rw [nextByCount, numbers, List.length_map]

theorem numbers_append (rows : List Row) (row : Row) (g : Group) :
    numbers group number (rows ++ [row]) g =
      numbers group number rows g ++ if group row = g then [number row] else [] := by
  unfold numbers
  rw [List.filter_append, List.map_append]
  by_cases h : group row = g
  · simp [h]
  · simp [h]

theorem foldr_max_range' (n : Nat) : (List.range' 1 n).foldr max 0 = n := by
  induction n with
  | zero => rfl
  | succ n ih =>
      have hfold : ∀ (xs : List Nat) (k : Nat), (xs ++ [k]).foldr max 0 = max (xs.foldr max 0) k := by
        intro xs k
        induction xs with
        | nil => exact (Nat.max_comm k 0)
        | cons x xs ih =>
            rw [List.cons_append, List.foldr_cons, ih, List.foldr_cons, Nat.max_assoc]
      rw [List.range'_concat, hfold, ih]
      omega

namespace Gapless

variable {rows : List Row}

/-- The count and the maximum give the same number. -/
theorem nextByMax_eq (h : Gapless group number rows) (g : Group) :
    nextByMax group number rows g = nextByCount group rows g := by
  rw [nextByMax, h g, foldr_max_range', nextByCount_eq number]

/-- The next number is not taken. -/
theorem next_notMem (h : Gapless group number rows) (g : Group) :
    nextByCount group rows g ∉ numbers group number rows g := by
  rw [nextByCount_eq number, h g, List.length_range', List.mem_range'_1]
  omega

theorem append (h : Gapless group number rows) {row : Row}
    (hnext : number row = nextByCount group rows (group row)) :
    Gapless group number (rows ++ [row]) := by
  intro g
  rw [numbers_append]
  by_cases hg : group row = g
  · subst hg
    rw [if_pos rfl, List.length_append, List.length_singleton, List.range'_concat, ← h, hnext,
      nextByCount_eq number]
    congr 2
    omega
  · rw [if_neg hg, List.append_nil]
    exact h g

/-- A row is told by its group and its number. -/
theorem eq_of_same (h : Gapless group number rows) {i j : Nat} {row other : Row}
    (hi : rows[i]? = some row) (hj : rows[j]? = some other) (hgroup : group row = group other)
    (hnumber : number row = number other) : i = j := by
  have hnodup : rows.Pairwise fun a b =>
      group a = group row → group b = group row → number a ≠ number b := by
    have hnumbers : (numbers group number rows (group row)).Nodup := by
      rw [h]
      exact List.nodup_range'
    unfold numbers at hnumbers
    rw [List.Nodup, List.pairwise_map, List.pairwise_filter] at hnumbers
    simpa using hnumbers
  obtain ⟨hilt, rfl⟩ := List.getElem?_eq_some_iff.mp hi
  obtain ⟨hjlt, rfl⟩ := List.getElem?_eq_some_iff.mp hj
  rw [List.pairwise_iff_getElem] at hnodup
  rcases Nat.lt_trichotomy i j with hlt | heq | hgt
  · exact absurd hnumber (hnodup i j hilt hjlt hlt rfl hgroup.symm)
  · exact heq
  · exact absurd hnumber.symm (hnodup j i hjlt hilt hgt hgroup.symm rfl)

end Gapless

end Numbering
