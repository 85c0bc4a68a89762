/-
This file says that the encoder and the decoder of the histogram's cells belong together.
The index of a value is the number of its log-linear cell and the value of an index is the
middle of that cell, as long as the values are those of a signed 64-bit word.

The encoder works on words: it counts the leading zeros of the value, shifts it down to
its highest bits and takes the octave off. The lemmas carry these steps over to the layout
of `Lib/LogBuckets`, where a cell is a pair of numbers and its bounds are powers of two.
The bound on the value is needed on the way back: from 2^63 on the middle of a cell is no
positive signed word.
-/

import TradingEngine.Lib.LogBuckets
import TradingEngine.Metrics

namespace Trading

namespace HdrHistogram

open LogBuckets (Cell cellOf holds_cellOf)

/-! ### The encoder -/

/-- The index a value above the linear part has before the clamp. -/
def logIndex (v : BitVec 64) : Nat :=
  subCount * (BitScan.highestBit v - subBits + 1) +
    ((v >>> (BitScan.highestBit v - subBits)).toNat - subCount)

theorem logIndex_eq {v : BitVec 64} (large : subCount ≤ v.toNat) :
    logIndex v = (cellOf subBits v.toNat).number := by
  have nonzero : v ≠ 0 := by
    rintro rfl
    exact absurd large (by decide)
  have octave : BitScan.highestBit v - subBits = (cellOf subBits v.toNat).octave := by
    rw [BitScan.highestBit_eq_log (by decide) nonzero]
    rfl
  have mantissa : (v >>> (cellOf subBits v.toNat).octave).toNat =
      (cellOf subBits v.toNat).mantissa := by
    rw [BitVec.toNat_ushiftRight, Nat.shiftRight_eq_div_pow]
    rfl
  have normal : subCount ≤ (cellOf subBits v.toNat).mantissa := by
    rcases (cellOf subBits v.toNat).normal with first | normal
    · have holds := (holds_cellOf subBits v.toNat).2
      rw [first, pow_zero, mul_one] at holds
      omega
    · exact normal
  rw [logIndex, octave, mantissa, mul_add_one, add_assoc, Nat.add_sub_cancel' normal]
  rfl

/-- The cells of the values of a signed word are fewer than the histogram has. -/
theorem number_lt_numCells {cell : Cell subBits} {value : Nat} (holds : cell.Holds value)
    (bound : value < 2 ^ 63) : cell.number < numCells := by
  have below := cell.below
  have octave : cell.octave ≤ 57 := by
    rcases cell.normal with first | normal
    · omega
    · have inside : 2 ^ subBits * 2 ^ cell.octave < 2 ^ 63 :=
        lt_of_le_of_lt (Nat.mul_le_mul_right _ normal) (lt_of_le_of_lt holds.1 bound)
      rw [← pow_add] at inside
      have exponents := (Nat.pow_lt_pow_iff_right (by decide)).mp inside
      unfold subBits at exponents
      omega
  unfold Cell.number numCells subCount
  unfold subBits at below ⊢
  omega

theorem indexFor_eq {v : BitVec 64} (bound : v.toNat < 2 ^ 63) :
    indexFor v = (cellOf subBits v.toNat).number := by
  unfold indexFor
  split
  · rename_i small
    have log : Nat.log 2 v.toNat - subBits = 0 :=
      Nat.sub_eq_zero_of_le (le_of_lt (Nat.log_lt_of_lt_pow' (by decide) small))
    rw [LogBuckets.number_cellOf, log, mul_zero, zero_add, pow_zero, Nat.div_one]
  · rename_i large
    have index := logIndex_eq (not_lt.mp large)
    rw [if_pos, ← index]
    · rfl
    · exact lt_of_eq_of_lt index (number_lt_numCells (holds_cellOf subBits v.toNat) bound)

/-! ### The decoder -/

/-- The lower edge and half the width of a cell do not leave the word. -/
theorem toNat_middle {cell : Cell subBits} (octave : cell.octave ≤ 63)
    (inside : cell.middle < 2 ^ 63) :
    (BitVec.ofNat 64 cell.mantissa <<< cell.octave + (1#64 <<< cell.octave) >>> 1).toNat =
      cell.middle := by
  have below := cell.below
  have width : 2 ^ cell.octave ≤ 2 ^ 63 := Nat.pow_le_pow_right (by decide) octave
  have mantissa : cell.mantissa < 2 ^ 64 := lt_trans below (by decide)
  have lower : cell.mantissa * 2 ^ cell.octave < 2 ^ 64 :=
    lt_trans (lt_of_le_of_lt (Nat.le_add_right _ _) inside) (by decide)
  rw [BitVec.toNat_add, BitVec.toNat_shiftLeft, BitVec.toNat_ushiftRight, BitVec.toNat_shiftLeft,
    BitVec.toNat_ofNat, BitVec.toNat_ofNat, Nat.shiftLeft_eq, Nat.shiftLeft_eq,
    Nat.shiftRight_eq_div_pow, Nat.mod_eq_of_lt mantissa, Nat.mod_eq_of_lt lower,
    Nat.mod_eq_of_lt (by decide : 1 < 2 ^ 64), one_mul, pow_one,
    Nat.mod_eq_of_lt (lt_of_le_of_lt width (by decide))]
  exact Nat.mod_eq_of_lt (lt_trans inside (by decide))

theorem valueAt_number {cell : Cell subBits} {value : Nat} (holds : cell.Holds value)
    (bound : value < 2 ^ 63) : valueAt cell.number = cell.middle ∧ cell.middle < 2 ^ 63 := by
  obtain ⟨octave, upper⟩ := Cell.upper_le_two_pow holds bound
  have inside : cell.middle < 2 ^ 63 := lt_of_lt_of_le cell.holds_middle.2 upper
  refine ⟨?_, inside⟩
  have below := cell.below
  unfold valueAt
  split
  · rename_i small
    have first : cell.octave = 0 := by
      unfold Cell.number subCount at small
      unfold subBits at small below
      omega
    unfold Cell.number Cell.middle
    rw [first]
    simp
  · rename_i large
    have normal : subCount ≤ cell.mantissa := by
      rcases cell.normal with first | normal
      · rw [Cell.number, first, mul_zero, zero_add] at large
        exact not_lt.mp large
      · exact normal
    have rel : cell.number - subCount = subCount * cell.octave + (cell.mantissa - subCount) := by
      unfold Cell.number
      rw [Nat.add_sub_assoc normal]
      rfl
    have small : cell.mantissa - subCount < subCount := by
      unfold subCount at normal ⊢
      unfold subBits at normal below ⊢
      omega
    have octaveOf : (cell.number - subCount) / subCount = cell.octave := by
      rw [rel, Nat.mul_add_div (by decide), Nat.div_eq_of_lt small, add_zero]
    have subOf : subCount + (cell.number - subCount) % subCount = cell.mantissa := by
      rw [rel, Nat.mul_add_mod, Nat.mod_eq_of_lt small, Nat.add_sub_cancel' normal]
    dsimp only
    rw [octaveOf, subOf]
    have word := toNat_middle octave inside
    rw [BitVec.toInt_eq_toNat_of_lt (by omega), word]

/-! ### Encoding and decoding -/

theorem valueAt_indexFor {v : BitVec 64} (bound : v.toNat < 2 ^ 63) :
    valueAt (indexFor v) = (cellOf subBits v.toNat).middle ∧
      (cellOf subBits v.toNat).middle < 2 ^ 63 := by
  rw [indexFor_eq bound]
  exact valueAt_number (holds_cellOf subBits v.toNat) bound

theorem indexFor_mono {v w : BitVec 64} (ordered : v.toNat ≤ w.toNat) (bound : w.toNat < 2 ^ 63) :
    indexFor v ≤ indexFor w := by
  rw [indexFor_eq (lt_of_le_of_lt ordered bound), indexFor_eq bound]
  exact Cell.number_le_of_holds ordered (holds_cellOf _ _) (holds_cellOf _ _)

/-- Of the values of a signed 64-bit word: the index needs no clamp, it follows their order, the
value of the index is such a value again and off by at most a part in 64, and it has the same
index. -/
theorem indexFor_valueAt (v : BitVec 64) (bound : v.toNat < 2 ^ 63) :
    (subCount ≤ v.toNat → logIndex v < numCells ∧ indexFor v = logIndex v) ∧
    indexFor v < numCells ∧
    (∀ smaller : BitVec 64, smaller.toNat ≤ v.toNat → indexFor smaller ≤ indexFor v) ∧
    0 ≤ valueAt (indexFor v) ∧ valueAt (indexFor v) < 2 ^ 63 ∧
    64 * |valueAt (indexFor v) - v.toNat| ≤ v.toNat ∧
    indexFor (BitVec.ofInt 64 (valueAt (indexFor v))) = indexFor v := by
  have holds := holds_cellOf subBits v.toNat
  have index := indexFor_eq bound
  have few : indexFor v < numCells := by
    rw [index]
    exact number_lt_numCells holds bound
  obtain ⟨value, inside⟩ := valueAt_indexFor bound
  refine ⟨fun large => ?_, few, fun smaller ordered => indexFor_mono ordered bound, ?_, ?_, ?_, ?_⟩
  · rw [logIndex_eq large, ← index]
    exact ⟨few, rfl⟩
  · rw [value]
    exact Int.natCast_nonneg _
  · rw [value]
    exact_mod_cast inside
  · rw [value]
    exact Cell.abs_middle_sub_le _ holds
  · have word : (BitVec.ofInt 64 (valueAt (indexFor v))).toNat =
        (cellOf subBits v.toNat).middle := by
      rw [value, BitVec.ofInt_natCast, BitVec.toNat_ofNat]
      exact Nat.mod_eq_of_lt (lt_trans inside (by decide))
    rw [indexFor_eq (word ▸ inside), word, index]
    exact Cell.number_eq_of_holds (holds_cellOf _ _) (Cell.holds_middle _)

/-- The largest value keeps its index, in the last octave. -/
theorem indexFor_valueAt_largest :
    indexFor (BitVec.ofNat 64 (2 ^ 63 - 1)) = 1887 ∧
      indexFor (BitVec.ofInt 64 (valueAt (indexFor (BitVec.ofNat 64 (2 ^ 63 - 1))))) = 1887 := by
  have last : indexFor (BitVec.ofNat 64 (2 ^ 63 - 1)) = 1887 := by decide
  obtain ⟨-, -, -, -, -, -, same⟩ := indexFor_valueAt (BitVec.ofNat 64 (2 ^ 63 - 1)) (by decide)
  exact ⟨last, same.trans last⟩

end HdrHistogram

end Trading
