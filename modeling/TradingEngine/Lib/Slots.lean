/-
This file gives the read-after-write lemmas of fixed-size arrays read with a default, so
that a proof about an array never has to carry the bound of the slot it reads.

A write outside the array does nothing and a read outside it gives the default, which is
how the models treat an index that the program checks before it uses it. Where the bound
is part of the index, as for the slots of a ring, the lemmas about `get` and `set` serve
instead.
-/

import Mathlib.Tactic.Common

namespace Slots

variable {Value : Type} {count : Nat}

theorem getD_of_lt (values : Vector Value count) {slot : Nat} (default : Value)
    (bound : slot < count) : values.getD slot default = values.get ⟨slot, bound⟩ := by
  show values.toArray.getD slot default = _
  rw [Array.getD, dif_pos (by simpa using bound)]
  rfl

theorem getD_of_ge (values : Vector Value count) {slot : Nat} (default : Value)
    (bound : count ≤ slot) : values.getD slot default = default := by
  show values.toArray.getD slot default = _
  rw [Array.getD, dif_neg (by simpa using bound)]

/-- A write in bounds is what is read at its slot, and nothing else changes. -/
theorem getD_setIfInBounds (values : Vector Value count) (slot other : Nat)
    (value default : Value) :
    (values.setIfInBounds slot value).getD other default =
      if other = slot ∧ slot < count then value else values.getD other default := by
  by_cases bound : other < count
  · rw [getD_of_lt _ default bound, getD_of_lt _ default bound]
    show (values.setIfInBounds slot value)[other] = _
    rw [Vector.getElem_setIfInBounds]
    by_cases same : slot = other
    · rw [if_pos same, if_pos ⟨same.symm, same ▸ bound⟩]
    · rw [if_neg same, if_neg fun both => same both.1.symm]
      rfl
  · rw [getD_of_ge _ default (by omega), getD_of_ge _ default (by omega), if_neg (by omega)]

theorem get_set (values : Vector Value count) (slot other : Fin count) (value : Value) :
    (values.set slot.val value slot.isLt).get other =
      if other = slot then value else values.get other := by
  show (values.set slot.val value slot.isLt)[other.val] = _
  rw [Vector.getElem_set]
  by_cases same : slot.val = other.val
  · rw [if_pos same, if_pos (Fin.ext same.symm)]
  · rw [if_neg same, if_neg fun equal => same (congrArg Fin.val equal.symm)]
    rfl

theorem getD_ofFn (values : Fin count → Value) (slot : Nat) (default : Value) :
    (Vector.ofFn values).getD slot default =
      if bound : slot < count then values ⟨slot, bound⟩ else default := by
  by_cases bound : slot < count
  · rw [dif_pos bound, getD_of_lt _ default bound]
    exact Vector.getElem_ofFn bound
  · rw [dif_neg bound, getD_of_ge _ default (by omega)]

theorem getD_replicate (slot : Nat) (value : Value) :
    (Vector.replicate count value).getD slot value = value := by
  by_cases bound : slot < count
  · rw [getD_of_lt _ value bound]
    exact Vector.getElem_replicate bound
  · rw [getD_of_ge _ value (by omega)]

end Slots
