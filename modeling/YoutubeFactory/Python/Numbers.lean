import Mathlib.Data.Rat.Floor
import Mathlib.Tactic.Linarith
import Mathlib.Tactic.Positivity

/-!
# Numbers

How Python rounds a number, here an exact one.
-/

namespace YoutubeFactory.Python

/-- The nearest whole number, and the even one of two that are equally near. -/
def roundHalfEven (x : ℚ) : Int :=
  if x - ⌊x⌋ < 1 / 2 ∨ x - ⌊x⌋ = 1 / 2 ∧ ⌊x⌋ % 2 = 0 then ⌊x⌋ else ⌊x⌋ + 1

/-- `round(x, digits)` -/
def roundTo (x : ℚ) (digits : Nat) : ℚ := roundHalfEven (x * 10 ^ digits) / 10 ^ digits

theorem abs_roundHalfEven_sub (x : ℚ) : |(roundHalfEven x : ℚ) - x| ≤ 1 / 2 := by
  have hlow : (⌊x⌋ : ℚ) ≤ x := Int.floor_le x
  have hhigh : x < ⌊x⌋ + 1 := Int.lt_floor_add_one x
  rw [roundHalfEven, abs_le]
  split
  · next hdown =>
      have hhalf : x - ⌊x⌋ ≤ 1 / 2 := hdown.elim le_of_lt fun h => h.1.le
      constructor
      · linarith
      · linarith
  · next hup =>
      have hhalf : 1 / 2 ≤ x - ⌊x⌋ := not_lt.mp fun h => hup (.inl h)
      push_cast
      constructor
      · linarith
      · linarith

/-- Rounding is off by half a unit of the last digit at most. -/
theorem abs_roundTo_sub (x : ℚ) (digits : Nat) :
    |roundTo x digits - x| ≤ 1 / 2 / 10 ^ digits := by
  have hpos : (0 : ℚ) < 10 ^ digits := by positivity
  have hscaled : roundTo x digits - x =
      (roundHalfEven (x * 10 ^ digits) - x * 10 ^ digits) / 10 ^ digits := by
    rw [roundTo, sub_div, mul_div_cancel_right₀ _ hpos.ne']
  rw [hscaled, abs_div, abs_of_pos hpos]
  exact div_le_div_of_nonneg_right (abs_roundHalfEven_sub _) hpos.le

end YoutubeFactory.Python
