/-
This file is about numbers that are known up to a part of their size. A quotient of two such
numbers is known up to a part of its size too, also when it is rounded itself. So if a value is
a whole number of units, and the value, the unit and the quotient are all known well enough for
that number, `llround` of the quotient is the number.

The rounding to a `double` is such an approximation on the numbers that a `double` has in its
normal range. Nothing else about the rounding is used. The last section has a rounding of this
kind that can be evaluated: to the nearest number of 53 binary digits.
-/

import Mathlib.Data.Int.Log
import Mathlib.Tactic.Positivity
import TradingEngine.Lib.Rounding
import TradingEngine.Lib.Strtod

namespace Rounding

/-- The approximation is off by at most a part of the exact number. -/
def OffBy (error exact approximate : ℚ) : Prop := |approximate - exact| ≤ error * |exact|

theorem offBy_refl {error : ℚ} (nonneg : 0 ≤ error) (exact : ℚ) : OffBy error exact exact := by
  unfold OffBy
  rw [sub_self, abs_zero]
  positivity

theorem llround_eq_of_abs_sub_lt {value : ℚ} {integer : ℤ} (near : |value - integer| < 1 / 2) :
    llround value = integer := by
  have rounded := abs_llround_sub_le value
  have close : |((llround value - integer : ℤ) : ℚ)| < 1 := by
    push_cast
    calc |(llround value : ℚ) - integer|
        = |(llround value - value) + (value - integer)| := by rw [sub_add_sub_cancel]
      _ ≤ |(llround value : ℚ) - value| + |value - integer| := abs_add_le _ _
      _ < 1 / 2 + 1 / 2 := add_lt_add_of_le_of_lt rounded near
      _ = 1 := add_halves 1
  rw [← Int.cast_abs] at close
  have none : |llround value - integer| < 1 := by exact_mod_cast close
  exact sub_eq_zero.mp (Int.abs_lt_one_iff.mp none)

/-- A number of units, from a value and a unit that are both known up to a part of their size. -/
theorem abs_div_sub_le {error units unit value approximate : ℚ} (positive : 0 < unit)
    (small : error ≤ 1 / 5) (valued : OffBy error (units * unit) value)
    (gridded : OffBy error unit approximate) :
    |value / approximate - units| ≤ 5 / 2 * error * |units| := by
  unfold OffBy at valued gridded
  rw [abs_of_pos positive] at gridded
  rw [abs_mul, abs_of_pos positive] at valued
  have least : 4 / 5 * unit ≤ approximate := by
    have most : error * unit ≤ 1 / 5 * unit := mul_le_mul_of_nonneg_right small (le_of_lt positive)
    have below := (abs_le.mp gridded).1
    linarith
  have divisor : 0 < approximate := lt_of_lt_of_le (by positivity) least
  have off : |value - units * approximate| ≤ 2 * error * |units| * unit := by
    calc |value - units * approximate|
        = |(value - units * unit) - units * (approximate - unit)| := by congr 1; ring
      _ ≤ |value - units * unit| + |units * (approximate - unit)| := abs_sub _ _
      _ ≤ error * (|units| * unit) + |units| * (error * unit) := by
        rw [abs_mul units]
        exact add_le_add valued (mul_le_mul_of_nonneg_left gridded (abs_nonneg _))
      _ = 2 * error * |units| * unit := by ring
  have nonneg : 0 ≤ error * |units| := by
    have atLeast := le_trans (abs_nonneg _) gridded
    exact mul_nonneg (nonneg_of_mul_nonneg_left atLeast positive) (abs_nonneg _)
  rw [div_sub' (ne_of_gt divisor), abs_div, abs_of_pos divisor, div_le_iff₀ divisor,
    mul_comm approximate]
  calc |value - units * approximate|
      ≤ 5 / 2 * (error * |units|) * (4 / 5 * unit) := by linarith
    _ ≤ 5 / 2 * (error * |units|) * approximate :=
      mul_le_mul_of_nonneg_left least (by positivity)
    _ = 5 / 2 * error * |units| * approximate := by ring

/-- A whole number of units is found again, from a quotient that is off by a part as well, if there
are few of them for the error. -/
theorem llround_quotient_eq {error unit value approximate quotient : ℚ} {units : ℤ}
    (positive : 0 < unit) (nonneg : 0 ≤ error) (small : error ≤ 1 / 5)
    (few : 8 * error * |(units : ℚ)| < 1) (valued : OffBy error (units * unit) value)
    (gridded : OffBy error unit approximate)
    (divided : OffBy error (value / approximate) quotient) :
    llround quotient = units := by
  have exact := abs_div_sub_le positive small valued gridded
  have size : |value / approximate| ≤ 3 / 2 * |(units : ℚ)| := by
    have part : 5 / 2 * error * |(units : ℚ)| ≤ 1 / 2 * |(units : ℚ)| :=
      mul_le_mul_of_nonneg_right (by linarith) (abs_nonneg _)
    have apart := abs_sub_abs_le_abs_sub (value / approximate) (units : ℚ)
    linarith
  refine llround_eq_of_abs_sub_lt ?_
  calc |quotient - units|
      = |(quotient - value / approximate) + (value / approximate - units)| := by
        rw [sub_add_sub_cancel]
    _ ≤ |quotient - value / approximate| + |value / approximate - units| := abs_add_le _ _
    _ ≤ error * (3 / 2 * |(units : ℚ)|) + 5 / 2 * error * |(units : ℚ)| :=
        add_le_add (le_trans divided (mul_le_mul_of_nonneg_left size nonneg)) exact
    _ = 4 * error * |(units : ℚ)| := by ring
    _ < 1 / 2 := by linarith

/-! ### The rounding to a `double` -/

open Strtod (Double)

/-- The largest part a `double` is off by. -/
def doubleError : ℚ := 1 / 2 ^ 53

/-- The numbers that are zero or have a size in the normal range of a `double`. -/
def Normal (value : ℚ) : Prop :=
  value = 0 ∨ 1 / 2 ^ 1022 ≤ |value| ∧ |value| ≤ 2 ^ 1023

theorem normal_of_one_le {value : ℚ} (least : 1 ≤ |value|) (most : |value| ≤ 2 ^ 60) :
    Normal value := by
  refine .inr ⟨le_trans ?_ least, le_trans most ?_⟩
  · exact div_le_one_of_le₀ (one_le_pow₀ (by norm_num)) (by positivity)
  · exact pow_le_pow_right₀ (by norm_num) (by norm_num)

/-- A number near a whole number that is not too large is in the normal range. -/
theorem normal_of_near {value : ℚ} {integer : ℤ}
    (near : |value - integer| ≤ 1 / 2 * |(integer : ℚ)|) (few : |(integer : ℚ)| ≤ 2 ^ 60) :
    Normal value := by
  rcases eq_or_ne integer 0 with rfl | nonzero
  · refine .inl (abs_nonpos_iff.mp ?_)
    simpa using near
  · have least : (1 : ℚ) ≤ |(integer : ℚ)| := by
      rw [← Int.cast_abs]
      exact_mod_cast Int.one_le_abs nonzero
    have above := abs_sub_abs_le_abs_sub (integer : ℚ) value
    have below := abs_sub_abs_le_abs_sub value (integer : ℚ)
    rw [abs_sub_comm] at above
    have atLeast : 1 / 2 ≤ |value| := by linarith
    have atMost : |value| ≤ 2 ^ 61 := by linarith
    refine .inr ⟨le_trans ?_ atLeast, le_trans atMost ?_⟩
    · exact one_div_le_one_div_of_le (by norm_num) (le_self_pow₀ (by norm_num) (by norm_num))
    · exact pow_le_pow_right₀ (by norm_num) (by norm_num)

/-- A rounding that keeps every number of the normal range near. -/
def RoundsNormal (round : ℚ → ℚ) : Prop :=
  ∀ value, Normal value → OffBy doubleError value (round value)

/-- A whole number of units, fewer than `2 ^ 50`, is found again from a value, a unit and a quotient
that were each rounded to a `double`. -/
theorem llround_div_eq {round : ℚ → ℚ} (rounds : RoundsNormal round) {unit value approximate : ℚ}
    {units : ℤ} (positive : 0 < unit) (few : |units| < 2 ^ 50)
    (valued : OffBy doubleError (units * unit) value)
    (gridded : OffBy doubleError unit approximate) :
    llround (round (value / approximate)) = units := by
  have bounded : |(units : ℚ)| < 2 ^ 50 := by exact_mod_cast few
  have small : doubleError ≤ 1 / 5 := by norm_num [doubleError]
  have near := abs_div_sub_le positive small valued gridded
  have normal : Normal (value / approximate) := by
    refine normal_of_near (le_trans near ?_) (by linarith)
    exact mul_le_mul_of_nonneg_right (by norm_num [doubleError]) (abs_nonneg _)
  refine llround_quotient_eq positive (by norm_num [doubleError]) small ?_ valued gridded
    (rounds _ normal)
  unfold doubleError
  linarith

/-- A rounding that keeps every number of the normal range finite and near. -/
def RoundsToDouble (round : ℚ → Double) : Prop :=
  ∀ value, Normal value → ∃ rounded, round value = .finite rounded ∧
    OffBy doubleError value rounded

/-- The number a `double` stands for. -/
def rounded (round : ℚ → Double) (value : ℚ) : ℚ := (round value).value?.getD 0

/-- A normal number is rounded to a finite `double` that is close to it. -/
theorem RoundsToDouble.finite {round : ℚ → Double} (rounds : RoundsToDouble round) {value : ℚ}
    (normal : Normal value) :
    (round value).value? = some (rounded round value) ∧
      OffBy doubleError value (rounded round value) := by
  obtain ⟨result, found, near⟩ := rounds value normal
  unfold rounded
  rw [found]
  exact ⟨rfl, near⟩

/-! ### Rounding to 53 binary digits -/

/-- The distance of the numbers of 53 binary digits that are as large as a number. -/
def spacing (value : ℚ) : ℚ := 2 ^ (Int.log 2 |value| - 52)

/-- The nearest number of 53 binary digits, halves away from zero. -/
def nearest (value : ℚ) : ℚ := llround (value / spacing value) * spacing value

theorem spacing_pos (value : ℚ) : 0 < spacing value := zpow_pos (by norm_num) _

/-- The distance is a part of the number it belongs to. -/
theorem spacing_le {value : ℚ} (nonzero : value ≠ 0) :
    spacing value ≤ 2 * (doubleError * |value|) := by
  have power : (2 : ℚ) ^ Int.log 2 |value| ≤ |value| := by
    exact_mod_cast Int.zpow_log_le_self Nat.one_lt_two (abs_pos.mpr nonzero)
  unfold spacing doubleError
  rw [zpow_sub₀ (by norm_num)]
  calc (2 : ℚ) ^ Int.log 2 |value| / 2 ^ (52 : ℤ) ≤ |value| / 2 ^ (52 : ℤ) :=
        div_le_div_of_nonneg_right power (by positivity)
    _ = 2 * (1 / 2 ^ 53 * |value|) := by ring

/-- The nearest number is off by half the distance at most. -/
theorem offBy_nearest (value : ℚ) : OffBy doubleError value (nearest value) := by
  unfold OffBy nearest
  rcases eq_or_ne value 0 with rfl | nonzero
  · have zero : llround 0 = 0 := llround_intCast 0
    rw [zero_div, zero, Int.cast_zero, zero_mul, sub_zero, abs_zero, mul_zero]
  · have positive := spacing_pos value
    have rounded := abs_llround_sub_le (value / spacing value)
    have least := spacing_le nonzero
    calc |llround (value / spacing value) * spacing value - value|
        = |(llround (value / spacing value) : ℚ) - value / spacing value| * spacing value := by
          rw [← abs_of_pos positive, ← abs_mul, abs_of_pos positive, sub_mul,
            div_mul_cancel₀ _ positive.ne']
      _ ≤ 1 / 2 * spacing value := mul_le_mul_of_nonneg_right rounded positive.le
      _ ≤ doubleError * |value| := by linarith

theorem roundsNormal_nearest : RoundsNormal nearest := fun value _ => offBy_nearest value

theorem roundsToDouble_nearest : RoundsToDouble fun value => .finite (nearest value) :=
  fun value _ => ⟨nearest value, rfl, offBy_nearest value⟩

end Rounding
