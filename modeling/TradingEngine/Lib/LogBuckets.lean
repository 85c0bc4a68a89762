/-
This file is the layout of a log-linear histogram: the natural numbers are cut into
octaves, each twice as long as the one before, and every octave into the same number of
cells. A cell is given by its octave and by the leading bits of its values; the first
octave has one value to a cell. The lemmas say that every number lies in one cell, that
the numbers of the cells follow the order of the values, and how far a value can be from
the middle of its cell.
-/

import Mathlib.Algebra.Order.Ring.Nat
import Mathlib.Data.Nat.Log
import Mathlib.Tactic.Linarith
import Mathlib.Tactic.Ring

namespace LogBuckets

/-- A cell: the values whose bits above the lowest `octave` ones are `mantissa`. Above the first
octave the leading bit of the mantissa is set. -/
structure Cell (bits : Nat) where
  octave : Nat
  mantissa : Nat
  below : mantissa < 2 ^ (bits + 1)
  normal : octave = 0 ∨ 2 ^ bits ≤ mantissa

namespace Cell

variable {bits : Nat}

/-- The number of a cell, counted from the smallest values on. -/
def number (cell : Cell bits) : Nat := 2 ^ bits * cell.octave + cell.mantissa

/-- The value in the middle of a cell. -/
def middle (cell : Cell bits) : Nat := cell.mantissa * 2 ^ cell.octave + 2 ^ cell.octave / 2

/-- The value lies in the cell. -/
def Holds (cell : Cell bits) (value : Nat) : Prop :=
  cell.mantissa * 2 ^ cell.octave ≤ value ∧ value < (cell.mantissa + 1) * 2 ^ cell.octave

theorem holds_middle (cell : Cell bits) : cell.Holds cell.middle := by
  have width := Nat.two_pow_pos cell.octave
  unfold Holds middle
  rw [add_one_mul]
  omega

/-- A cell of a smaller number ends before the other one begins. -/
theorem upper_le_lower {first second : Cell bits} (before : first.number < second.number) :
    (first.mantissa + 1) * 2 ^ first.octave ≤ second.mantissa * 2 ^ second.octave := by
  have firstBelow := first.below
  have secondBelow := second.below
  rw [pow_succ] at firstBelow secondBelow
  unfold number at before
  rcases lt_trichotomy first.octave second.octave with earlier | same | later
  · have normal : 2 ^ bits ≤ second.mantissa := second.normal.resolve_left (by omega)
    obtain ⟨distance, apart⟩ := Nat.exists_eq_add_of_lt earlier
    have room : first.mantissa + 1 ≤ second.mantissa * 2 ^ (distance + 1) := by
      calc first.mantissa + 1
          ≤ 2 ^ bits * 2 := firstBelow
        _ ≤ second.mantissa * 2 := Nat.mul_le_mul_right 2 normal
        _ ≤ second.mantissa * 2 ^ (distance + 1) :=
          Nat.mul_le_mul_left _ (Nat.le_self_pow (Nat.succ_ne_zero _) 2)
    rw [apart, add_assoc, pow_add, mul_left_comm, mul_comm]
    exact Nat.mul_le_mul_left _ room
  · rw [same] at before ⊢
    exact Nat.mul_le_mul_right _ (Nat.lt_of_add_lt_add_left before)
  · have normal : 2 ^ bits ≤ first.mantissa := first.normal.resolve_left (by omega)
    have octaves : 2 ^ bits * (second.octave + 1) ≤ 2 ^ bits * first.octave :=
      Nat.mul_le_mul_left _ later
    rw [mul_add_one] at octaves
    omega

/-- The numbers of cells are in the order of the values they hold. -/
theorem number_le_of_holds {first second : Cell bits} {small large : Nat}
    (ordered : small ≤ large) (holdsSmall : first.Holds small) (holdsLarge : second.Holds large) :
    first.number ≤ second.number := by
  by_contra reversed
  have apart := upper_le_lower (not_le.mp reversed)
  have low := holdsSmall.1
  have high := holdsLarge.2
  omega

theorem number_eq_of_holds {first second : Cell bits} {value : Nat} (holdsFirst : first.Holds value)
    (holdsSecond : second.Holds value) : first.number = second.number :=
  le_antisymm (number_le_of_holds (le_refl value) holdsFirst holdsSecond)
    (number_le_of_holds (le_refl value) holdsSecond holdsFirst)

/-- The middles of cells are in the order of their numbers. -/
theorem middle_le_middle {first second : Cell bits} (before : first.number < second.number) :
    first.middle ≤ second.middle := by
  have apart := upper_le_lower before
  have low := (holds_middle second).1
  have high := (holds_middle first).2
  omega

/-- A cell with a value below a power of two ends at or before it. -/
theorem upper_le_two_pow {cell : Cell bits} {value exponent : Nat} (holds : cell.Holds value)
    (bound : value < 2 ^ exponent) :
    cell.octave ≤ exponent ∧ (cell.mantissa + 1) * 2 ^ cell.octave ≤ 2 ^ exponent := by
  have inside : cell.mantissa * 2 ^ cell.octave < 2 ^ exponent := lt_of_le_of_lt holds.1 bound
  have octave : cell.octave ≤ exponent := by
    rcases cell.normal with first | normal
    · omega
    · have some : 1 ≤ cell.mantissa := le_trans (Nat.two_pow_pos bits) normal
      have power : 2 ^ cell.octave < 2 ^ exponent :=
        lt_of_le_of_lt (Nat.le_mul_of_pos_left _ some) inside
      exact le_of_lt ((Nat.pow_lt_pow_iff_right (by decide)).mp power)
  refine ⟨octave, ?_⟩
  rw [← Nat.sub_add_cancel octave, pow_add] at inside ⊢
  exact Nat.mul_le_mul_right _ (Nat.lt_of_mul_lt_mul_right inside)

/-- A value is at most half the width of its cell away from the middle. -/
theorem abs_middle_sub_le (cell : Cell bits) {value : Nat} (holds : cell.Holds value) :
    2 ^ (bits + 1) * |(cell.middle : Int) - value| ≤ value := by
  obtain ⟨low, high⟩ := holds
  rw [add_one_mul] at high
  unfold middle
  rcases Nat.eq_zero_or_pos cell.octave with first | later
  · rw [first, pow_zero, mul_one] at low high ⊢
    have exact : value = cell.mantissa := by omega
    rw [exact]
    simp
  · have normal : 2 ^ bits ≤ cell.mantissa := cell.normal.resolve_left (by omega)
    obtain ⟨half, width⟩ : ∃ half, 2 ^ cell.octave = 2 * half := by
      obtain ⟨earlier, next⟩ := Nat.exists_eq_add_of_lt later
      exact ⟨2 ^ earlier, by rw [next, zero_add, pow_succ, mul_comm]⟩
    have least : 2 ^ (bits + 1) * half ≤ value := by
      calc 2 ^ (bits + 1) * half
          = 2 ^ bits * (2 * half) := by ring
        _ ≤ cell.mantissa * (2 * half) := Nat.mul_le_mul_right _ normal
        _ ≤ value := width ▸ low
    rw [width] at low high ⊢
    have near : |((cell.mantissa * (2 * half) + 2 * half / 2 : Nat) : Int) - value| ≤ half := by
      rw [abs_le]
      omega
    refine le_trans (mul_le_mul_of_nonneg_left near (by positivity)) ?_
    exact_mod_cast least

end Cell

/-- The cell of a value. -/
def cellOf (bits value : Nat) : Cell bits where
  octave := Nat.log 2 value - bits
  mantissa := value / 2 ^ (Nat.log 2 value - bits)
  below := by
    rw [Nat.div_lt_iff_lt_mul (Nat.two_pow_pos _), ← pow_add]
    refine lt_of_lt_of_le (Nat.lt_pow_succ_log_self (by decide : 1 < 2) value) ?_
    exact Nat.pow_le_pow_right (by decide) (by omega)
  normal := by
    rcases Nat.eq_zero_or_pos (Nat.log 2 value - bits) with first | later
    · exact Or.inl first
    · refine Or.inr ((Nat.le_div_iff_mul_le (Nat.two_pow_pos _)).mpr ?_)
      rw [← pow_add, show bits + (Nat.log 2 value - bits) = Nat.log 2 value by omega]
      refine Nat.pow_log_le_self 2 ?_
      rintro rfl
      simp at later

theorem number_cellOf (bits value : Nat) :
    (cellOf bits value).number =
      2 ^ bits * (Nat.log 2 value - bits) + value / 2 ^ (Nat.log 2 value - bits) := rfl

theorem holds_cellOf (bits value : Nat) : (cellOf bits value).Holds value := by
  refine ⟨Nat.div_mul_le_self _ _, ?_⟩
  rw [mul_comm]
  exact Nat.lt_mul_div_succ value (Nat.two_pow_pos _)

end LogBuckets
