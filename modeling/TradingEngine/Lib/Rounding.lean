/-
This file is the C library's `llround` on rationals: rounding to the nearest integer,
halves away from zero. The lemmas say that it fixes integers, keeps order, and is
therefore trapped between any two integers that trap its argument, and that it moves its
argument by at most a half.

The result is an integer of any size. Whether it fits the 64 bits that the C function
returns is a question about the argument, and is asked where that matters.
-/

import Mathlib.Algebra.Order.Round
import Mathlib.Data.Rat.Floor
import Mathlib.Tactic.Linarith

namespace Rounding

/-- Round to the nearest integer, halves away from zero. -/
def llround (value : ℚ) : ℤ :=
  if 0 ≤ value then ⌊value + 1 / 2⌋ else ⌈value - 1 / 2⌉

theorem llround_intCast (integer : ℤ) : llround (integer : ℚ) = integer := by
  unfold llround
  split
  · rw [Int.floor_eq_iff]
    constructor <;> linarith
  · rw [Int.ceil_eq_iff]
    constructor <;> linarith

theorem llround_mono {first second : ℚ} (ordered : first ≤ second) :
    llround first ≤ llround second := by
  unfold llround
  split
  · rename_i positive
    rw [if_pos (le_trans positive ordered)]
    exact Int.floor_le_floor (by linarith)
  · rename_i negative
    split
    · rename_i positive
      have below : ⌈first - 1 / 2⌉ ≤ 0 := Int.ceil_le.mpr (by push_cast; linarith)
      have above : 0 ≤ ⌊second + 1 / 2⌋ := Int.floor_nonneg.mpr (by linarith)
      exact le_trans below above
    · exact Int.ceil_le_ceil (by linarith)

theorem llround_le_of_le {value : ℚ} {bound : ℤ} (below : value ≤ bound) :
    llround value ≤ bound := by
  rw [← llround_intCast bound]
  exact llround_mono below

theorem le_llround_of_le {value : ℚ} {bound : ℤ} (above : (bound : ℚ) ≤ value) :
    bound ≤ llround value := by
  rw [← llround_intCast bound]
  exact llround_mono above

theorem abs_llround_sub_le (value : ℚ) : |(llround value : ℚ) - value| ≤ 1 / 2 := by
  rw [abs_le]
  unfold llround
  split
  · have below := Int.floor_le (value + 1 / 2)
    have above := Int.lt_floor_add_one (value + 1 / 2)
    constructor <;> linarith
  · have above := Int.le_ceil (value - 1 / 2)
    have below := Int.ceil_lt_add_one (value - 1 / 2)
    constructor <;> linarith

end Rounding
