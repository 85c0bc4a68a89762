/-
This file is a moving window kept in a ring: so many slots, the next one to write and how
many are filled. Written in turn, the slots hold the last values, each at its number
modulo the window, so that reading the filled slots from the first on gives the last
values in some order.

The order is lost, which does not matter to a sum or a mean. A ring that is emptied starts
over at its first slot, and what the other slots hold is not read until they are written
again.
-/

import Mathlib.Data.Nat.ModEq
import Mathlib.Logic.Function.Basic
import Mathlib.Order.Interval.Finset.Nat

namespace MovingWindow

variable {Value : Type*} {window : Nat} {samples : List Value} {slots : Nat → Value}
  {head count : Nat}

/-- A ring that holds the last `window` of the samples written to it. -/
structure Holds (window : Nat) (samples : List Value) (slots : Nat → Value) (head count : Nat) :
    Prop where
  head_eq : head = samples.length % window
  count_eq : count = min samples.length window
  slot_eq : ∀ (position : Nat) (inside : position < samples.length),
    samples.length ≤ position + window → slots (position % window) = samples[position]

theorem holds_nil (slots : Nat → Value) : Holds window [] slots 0 0 where
  head_eq := (Nat.zero_mod window).symm
  count_eq := (Nat.zero_min window).symm
  slot_eq := fun _ inside => absurd inside (Nat.not_lt_zero _)

/-- One more sample goes into the slot at the head. -/
theorem Holds.push (holds : Holds window samples slots head count) (value : Value) :
    Holds window (samples ++ [value]) (Function.update slots head value) ((head + 1) % window)
      (if count < window then count + 1 else count) where
  head_eq := by
    rw [holds.head_eq, List.length_append, List.length_singleton, Nat.mod_add_mod]
  count_eq := by
    rw [holds.count_eq, List.length_append, List.length_singleton]
    split <;> omega
  slot_eq := by
    intro position inside recent
    rw [List.length_append, List.length_singleton] at inside recent
    rw [holds.head_eq]
    rcases Nat.lt_succ_iff_lt_or_eq.mp inside with earlier | last
    · have apart : position % window ≠ samples.length % window := by
        intro same
        have divides := (Nat.modEq_iff_dvd' (le_of_lt earlier)).mp same
        have far := Nat.le_of_dvd (Nat.sub_pos_of_lt earlier) divides
        omega
      rw [Function.update_of_ne apart, List.getElem_append_left earlier]
      exact holds.slot_eq position earlier (by omega)
    · subst last
      rw [Function.update_self, List.getElem_concat_length rfl]

/-- So many consecutive numbers are sent to so many slots, each to its own. -/
theorem range_perm_mod (start window : Nat) :
    (List.range window).Perm ((List.range' start window).map (· % window)) := by
  have images := Nat.multiset_Ico_map_mod start window
  have interval : Multiset.Ico start (start + window) = ↑(List.range' start window) := by
    show ((List.range' start (start + window - start) : List Nat) : Multiset Nat) = _
    rw [Nat.add_sub_cancel_left]
  rw [interval, Multiset.map_coe] at images
  exact (Multiset.coe_eq_coe.mp images).symm

/-- The filled slots hold the last samples. -/
theorem Holds.perm (holds : Holds window samples slots head count) :
    ((List.range count).map slots).Perm (samples.drop (samples.length - window)) := by
  rw [holds.count_eq]
  rcases Nat.le_total samples.length window with short | long
  · rw [Nat.min_eq_left short, Nat.sub_eq_zero_of_le short, List.drop_zero]
    refine List.Perm.of_eq (List.ext_getElem (by simp) fun slot inside _ => ?_)
    rw [List.length_map, List.length_range] at inside
    rw [List.getElem_map, List.getElem_range, ← holds.slot_eq slot inside (by omega),
      Nat.mod_eq_of_lt (lt_of_lt_of_le inside short)]
  · rw [Nat.min_eq_right long]
    refine ((range_perm_mod (samples.length - window) window).map slots).trans ?_
    refine List.Perm.of_eq (List.ext_getElem (by simp; omega) fun offset inside _ => ?_)
    rw [List.length_map, List.length_map, List.length_range'] at inside
    rw [List.getElem_map, List.getElem_map, List.getElem_range', one_mul, List.getElem_drop]
    exact holds.slot_eq _ (by omega) (by omega)

theorem length_recent (window : Nat) (samples : List Value) :
    (samples.drop (samples.length - window)).length = min samples.length window := by
  rw [List.length_drop]
  omega

end MovingWindow
