import Mathlib.Algebra.Order.Field.Power
import Mathlib.Data.Rat.Cast.Order
import Phrasebook.Decimal.Binary

/-! The rational number that a binary one stands for. -/
namespace Phrasebook.Decimal.Binary

variable {f : Format}

/-- The value of a finite number; the others have none. -/
def value? : Binary f → Option ℚ
  | .finite negative mantissa exponent =>
    some ((if negative then -1 else 1) * mantissa * 2 ^ exponent)
  | _ => none

/-- A number is positive if it has a value and this is above zero. -/
lemma isPositive_iff (x : Binary f) : x.isPositive = true ↔ ∃ q, x.value? = some q ∧ 0 < q := by
  cases x with
  | nan => simp [isPositive, value?]
  | infinite negative => simp [isPositive, value?]
  | finite negative mantissa exponent =>
    have hpower : (0 : ℚ) < 2 ^ exponent := zpow_pos two_pos exponent
    cases negative with
    | true =>
      have hvalue : (0 : ℚ) ≤ mantissa * 2 ^ exponent := mul_nonneg mantissa.cast_nonneg hpower.le
      simpa [isPositive, value?] using hvalue
    | false =>
      have hvalue : (0 : ℚ) < mantissa * 2 ^ exponent ↔ mantissa ≠ 0 := by
        rw [mul_pos_iff_of_pos_right hpower, Nat.cast_pos, Nat.pos_iff_ne_zero]
      simp [isPositive, value?, hvalue]

end Phrasebook.Decimal.Binary
