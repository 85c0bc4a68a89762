/-
This file cuts a list into slices of one width: as many full slices as fit, and a last one
that may be shorter. The empty list has one empty slice, since a loop that sends what it
has gathered when its input ends sends something for no input as well.

What is needed of the slices is that nothing is lost or added: put together again they are
the list, their number follows from its length, and the first of them are a prefix of it.
-/

import Mathlib.Algebra.Order.Floor.Div
import Mathlib.Tactic.Common

namespace Slices

variable {Item : Type} {width : Nat}

/-- The number of slices of a list of some length. -/
def count (width length : Nat) : Nat := max 1 (length ⌈/⌉ width)

/-- The slices of a list, in order. -/
def slices (width : Nat) (items : List Item) : List (List Item) :=
  (List.range (count width items.length)).map fun k => (items.drop (width * k)).take width

theorem length_slices (width : Nat) (items : List Item) :
    (slices width items).length = count width items.length := by
  rw [slices, List.length_map, List.length_range]

theorem slices_of_le {items : List Item} (positive : 0 < width) (short : items.length ≤ width) :
    slices width items = [items] := by
  have one : count width items.length = 1 := by
    refine max_eq_left ?_
    rw [ceilDiv_le_iff_le_mul positive, mul_one]
    exact short
  rw [slices, one]
  show [(items.drop (width * 0)).take width] = _
  rw [mul_zero, List.drop_zero, List.take_of_length_le short]

theorem slices_of_lt {items : List Item} (positive : 0 < width) (long : width < items.length) :
    slices width items = items.take width :: slices width (items.drop width) := by
  have more : count width items.length = count width (items.drop width).length + 1 := by
    unfold count
    rw [List.length_drop, Nat.ceilDiv_eq_add_pred_div, Nat.ceilDiv_eq_add_pred_div,
      show items.length + width - 1 = items.length - width + width - 1 + width by omega,
      Nat.add_div_right _ positive, max_eq_right (Nat.le_add_left 1 _), max_eq_right]
    rw [Nat.one_le_div_iff positive]
    omega
  rw [slices, more, List.range_succ_eq_map, List.map_cons, List.map_map, mul_zero, List.drop_zero]
  refine congrArg _ (List.map_congr_left fun k _ => ?_)
  show (items.drop (width * (k + 1))).take width = _
  rw [List.drop_drop, mul_add, mul_one, add_comm]

/-- The first slices are the first items. -/
theorem flatten_take_slices (positive : 0 < width) (items : List Item) (k : Nat) :
    ((slices width items).take k).flatten = items.take (width * k) := by
  induction k generalizing items with
  | zero => rw [mul_zero, List.take_zero, List.take_zero, List.flatten_nil]
  | succ k inductionHypothesis =>
    rcases Nat.lt_or_ge width items.length with long | short
    · rw [slices_of_lt positive long, List.take_succ_cons, List.flatten_cons,
        inductionHypothesis, ← List.take_add, mul_add, mul_one, add_comm]
    · have whole : items.length ≤ width * (k + 1) :=
        le_trans short (Nat.le_mul_of_pos_right _ (Nat.succ_pos k))
      rw [slices_of_le positive short, List.take_succ_cons, List.take_nil, List.flatten_singleton,
        List.take_of_length_le whole]

/-- The slices are the list. -/
theorem flatten_slices (positive : 0 < width) (items : List Item) :
    (slices width items).flatten = items := by
  have whole : items.length ≤ width * count width items.length :=
    (ceilDiv_le_iff_le_mul positive).mp (le_max_right _ _)
  have all := flatten_take_slices positive items (slices width items).length
  rw [List.take_length, length_slices, List.take_of_length_le whole] at all
  exact all

end Slices
