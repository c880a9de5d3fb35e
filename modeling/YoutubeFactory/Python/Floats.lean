import Mathlib.Algebra.BigOperators.Group.List.Basic
import Mathlib.Algebra.Order.Ring.Rat

/-!
# Floats

Python's floats, the finite ones as rational numbers.  The sign of zero is left out.  What is not a
number compares with nothing, and makes every exact sum that it is in no number.

`+` is exact.  The addition of the machine rounds: it is a parameter (`FloatAddition`), of which the
exact one is a case.  What rounds is not associative, so that a sum of floats is added up from left
to right (`FloatAddition.total`).
-/

namespace YoutubeFactory.Python

inductive PyFloat where
  | nan
  | negInf
  | finite (q : ℚ)
  | inf
deriving DecidableEq

namespace PyFloat

/-- `math.isinf` -/
def isInf : PyFloat → Bool
  | negInf | inf => true
  | nan | finite _ => false

/-- `a <= b` -/
def le : PyFloat → PyFloat → Bool
  | nan, _ | _, nan => false
  | negInf, _ | _, inf => true
  | finite a, finite b => a ≤ b
  | _, _ => false

instance : LE PyFloat := ⟨fun a b => a.le b = true⟩

/-- `a < b` -/
instance : LT PyFloat := ⟨fun a b => a ≤ b ∧ ¬ b ≤ a⟩

instance : DecidableLE PyFloat := fun a b => inferInstanceAs (Decidable (a.le b = true))

instance : DecidableLT PyFloat := fun a b => inferInstanceAs (Decidable (a ≤ b ∧ ¬ b ≤ a))

/-- `a + b`, exactly. -/
def add : PyFloat → PyFloat → PyFloat
  | nan, _ | _, nan | inf, negInf | negInf, inf => nan
  | inf, _ | _, inf => inf
  | negInf, _ | _, negInf => negInf
  | finite a, finite b => finite (a + b)

instance : Add PyFloat := ⟨add⟩

/-- `-a` -/
def neg : PyFloat → PyFloat
  | nan => nan
  | negInf => inf
  | finite q => finite (-q)
  | inf => negInf

instance : Neg PyFloat := ⟨neg⟩

instance : Zero PyFloat := ⟨finite 0⟩

theorem add_eq (a b : PyFloat) : a + b = a.add b := rfl

theorem zero_eq : (0 : PyFloat) = finite 0 := rfl

/-- Exact sums do not depend on the order. -/
instance : AddCommMonoid PyFloat where
  add_assoc a b c := by
    cases a <;> cases b <;> cases c <;> simp [add_eq, add, add_assoc]
  add_comm a b := by
    cases a <;> cases b <;> simp [add_eq, add, add_comm]
  zero_add a := by
    cases a <;> simp [add_eq, zero_eq, add]
  add_zero a := by
    cases a <;> simp [add_eq, zero_eq, add]
  nsmul := nsmulRec

/-! ## Comparisons -/

theorem le_trans {a b c : PyFloat} (hab : a ≤ b) (hbc : b ≤ c) : a ≤ c := by
  show a.le c = true
  have hab : a.le b = true := hab
  have hbc : b.le c = true := hbc
  cases a <;> cases b <;> cases c <;> simp_all [le]
  exact hab.trans hbc

instance : IsTrans PyFloat (· ≤ ·) := ⟨fun _ _ _ => le_trans⟩

theorem le_total {a b : PyFloat} (ha : a ≠ nan) (hb : b ≠ nan) : a ≤ b ∨ b ≤ a := by
  show a.le b = true ∨ b.le a = true
  cases a <;> cases b <;> simp_all [le]
  exact Rat.le_total

theorem le_of_not_lt {a b : PyFloat} (ha : a ≠ nan) (hb : b ≠ nan) (h : ¬ b < a) : a ≤ b := by
  by_contra hnot
  exact h ⟨(le_total ha hb).resolve_left hnot, hnot⟩

theorem le_inf {a : PyFloat} (ha : a ≠ nan) : a ≤ inf := by
  show a.le inf = true
  cases a with
  | nan => exact absurd rfl ha
  | negInf | finite _ | inf => rfl

end PyFloat

/-! ## Rounded addition -/

/-- `a + b`, as the machine rounds it. -/
class FloatAddition where
  plus : PyFloat → PyFloat → PyFloat
  zero_plus : ∀ a, plus 0 a = a
  /-- Whole numbers up to `2 ** 53` are added exactly. -/
  plus_whole : ∀ m n : ℤ, m.natAbs ≤ 2 ^ 53 → n.natAbs ≤ 2 ^ 53 → (m + n).natAbs ≤ 2 ^ 53 →
    plus (.finite m) (.finite n) = .finite ↑(m + n)

namespace FloatAddition

/-- Floats that are added up from left to right. -/
def total [FloatAddition] (values : List PyFloat) : PyFloat := values.foldl plus 0

theorem total_concat [FloatAddition] (values : List PyFloat) (value : PyFloat) :
    total (values ++ [value]) = plus (total values) value := List.foldl_concat ..

/-- Exact arithmetic. -/
instance (priority := low) exact : FloatAddition where
  plus := (· + ·)
  zero_plus := zero_add
  plus_whole m n _ _ _ := by
    rw [Int.cast_add]
    rfl

theorem total_exact (values : List PyFloat) : total values = values.sum :=
  List.sum_eq_foldl.symm

end FloatAddition

end YoutubeFactory.Python
