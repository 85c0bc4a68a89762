/-
This file collects what a bitmap index needs to know about one machine word:
which bit a one-bit mask sets or clears, and that the leading-zero and
trailing-zero counts of a nonzero word locate its highest and its lowest set
bit. A word is a `BitVec` of any positive width. The counts of the zero word are
the width itself, so every statement about a located bit asks for a nonzero
word.
-/

import Mathlib.Data.Nat.Log
import Mathlib.Tactic.Common

namespace BitScan

variable {width : Nat}

/-! ### One-bit masks -/

/-- The word with one bit set. -/
def bitAt (width : Nat) (bit : Nat) : BitVec width := BitVec.ofNat width 1 <<< bit

theorem getLsbD_bitAt (bit index : Nat) (inside : bit < width) :
    (bitAt width bit).getLsbD index = decide (index = bit) := by
  rw [bitAt, BitVec.getLsbD_shiftLeft, BitVec.getLsbD_one]
  by_cases same : index = bit
  · subst same
    simp [inside]
    omega
  · simp only [same, decide_false, Bool.and_eq_false_imp, Bool.and_eq_true, decide_eq_true_eq,
      Bool.not_eq_true', decide_eq_false_iff_not]
    intro bound
    omega

theorem getLsbD_or_bitAt (word : BitVec width) (bit index : Nat) (inside : bit < width) :
    (word ||| bitAt width bit).getLsbD index = (word.getLsbD index || decide (index = bit)) := by
  rw [BitVec.getLsbD_or, getLsbD_bitAt bit index inside]

theorem getLsbD_and_not_bitAt (word : BitVec width) (bit index : Nat) (inside : bit < width) :
    (word &&& ~~~bitAt width bit).getLsbD index =
      (word.getLsbD index && !decide (index = bit)) := by
  rw [BitVec.getLsbD_and, BitVec.getLsbD_not, getLsbD_bitAt bit index inside]
  by_cases bound : index < width
  · simp [bound]
  · rw [BitVec.getLsbD_of_ge word index (by omega)]
    simp

theorem ne_zero_iff_exists_getLsbD (word : BitVec width) :
    word ≠ 0 ↔ ∃ index, word.getLsbD index = true := by
  constructor
  · intro nonzero
    by_contra none
    push Not at none
    exact nonzero (BitVec.eq_of_getLsbD_eq fun index _ => by simpa using none index)
  · rintro ⟨index, set⟩ zero
    simp [zero] at set

theorem lt_of_getLsbD {word : BitVec width} {index : Nat} (set : word.getLsbD index = true) :
    index < width := by
  by_contra outside
  rw [BitVec.getLsbD_of_ge word index (by omega)] at set
  cases set

/-! ### Locating the extreme set bits -/

/-- The position the leading-zero count of a word points at. -/
def highestBit (word : BitVec width) : Nat := width - 1 - word.clz.toNat

/-- The position the trailing-zero count of a word points at. -/
def lowestBit (word : BitVec width) : Nat := word.ctz.toNat

theorem highestBit_lt (positive : 0 < width) (word : BitVec width) : highestBit word < width := by
  unfold highestBit
  omega

theorem getLsbD_highestBit (positive : 0 < width) {word : BitVec width} (nonzero : word ≠ 0) :
    word.getLsbD (highestBit word) = true :=
  BitVec.getLsbD_true_clz_of_ne_zero positive nonzero

theorem le_highestBit {word : BitVec width} {index : Nat} (set : word.getLsbD index = true) :
    index ≤ highestBit word := by
  have below : word.toNat < 2 ^ (width - word.clz.toNat) := BitVec.toNat_lt_two_pow_sub_clz
  have above : 2 ^ index ≤ word.toNat := Nat.ge_two_pow_of_testBit set
  have powers : 2 ^ index < 2 ^ (width - word.clz.toNat) := Nat.lt_of_le_of_lt above below
  have exponents := (Nat.pow_lt_pow_iff_right (by omega : 1 < 2)).mp powers
  unfold highestBit
  omega

/-- The highest set bit of a word is its binary logarithm. -/
theorem highestBit_eq_log (positive : 0 < width) {word : BitVec width} (nonzero : word ≠ 0) :
    highestBit word = Nat.log 2 word.toNat := by
  have above : 2 ^ highestBit word ≤ word.toNat :=
    Nat.ge_two_pow_of_testBit (getLsbD_highestBit positive nonzero)
  have below : word.toNat < 2 ^ (width - word.clz.toNat) := BitVec.toNat_lt_two_pow_sub_clz
  refine (Nat.log_eq_of_pow_le_of_lt_pow above (lt_of_lt_of_le below ?_)).symm
  refine Nat.pow_le_pow_right (by decide) ?_
  unfold highestBit
  omega

theorem getLsbD_lowestBit {word : BitVec width} (nonzero : word ≠ 0) :
    word.getLsbD (lowestBit word) = true :=
  BitVec.getLsbD_true_ctz_of_ne_zero nonzero

theorem lowestBit_lt {word : BitVec width} (nonzero : word ≠ 0) : lowestBit word < width :=
  lt_of_getLsbD (getLsbD_lowestBit nonzero)

theorem lowestBit_le {word : BitVec width} {index : Nat} (set : word.getLsbD index = true) :
    lowestBit word ≤ index := by
  by_contra smaller
  have clear : word.getLsbD index = false :=
    BitVec.getLsbD_false_of_lt_ctz (by unfold lowestBit at smaller; omega)
  rw [clear] at set
  cases set

end BitScan
