/-
This file collects what a ring buffer with free-running counters rests on. A counter is
a word that is only ever incremented and may wrap; its distance to an older value of
itself is still the number of increments between the two, and a power-of-two mask sends
fewer than so many successive values to different slots. The second half is what such a
buffer is for: a bounded first-in first-out queue that answers every push and every pop
at once, and what its answers say over a whole history.
-/

import Mathlib.Data.Nat.ModEq
import Mathlib.Tactic.Common

namespace RingBuffer

/-! ### Counters -/

section Counters

variable {width : Nat}

/-- A counter after so many increments. -/
def advance (start : BitVec width) (count : Nat) : BitVec width :=
  start + BitVec.ofNat width count

theorem advance_zero (start : BitVec width) : advance start 0 = start := by
  simp [advance]

theorem advance_succ (start : BitVec width) (count : Nat) :
    advance start (count + 1) = advance start count + 1 := by
  rw [advance, advance, BitVec.ofNat_add, BitVec.add_assoc]
  rfl

theorem toNat_advance (start : BitVec width) (count : Nat) :
    (advance start count).toNat = (start.toNat + count) % 2 ^ width := by
  rw [advance, BitVec.toNat_add, BitVec.toNat_ofNat, Nat.add_mod_mod]

theorem advance_sub_advance (start : BitVec width) (earlier count : Nat) :
    advance start (earlier + count) - advance start earlier = BitVec.ofNat width count := by
  rw [advance, advance, BitVec.ofNat_add, ← BitVec.add_assoc, BitVec.add_comm,
    BitVec.add_sub_cancel]

/-- The distance of a counter to an older value of itself, wrapped or not. -/
theorem toNat_advance_sub (start : BitVec width) (earlier count : Nat) (near : count < 2 ^ width) :
    (advance start (earlier + count) - advance start earlier).toNat = count := by
  rw [advance_sub_advance, BitVec.toNat_ofNat, Nat.mod_eq_of_lt near]

/-- However often it has wrapped, a counter does not seem further from an older value of itself
than it is. -/
theorem toNat_advance_sub_le (start : BitVec width) (earlier count : Nat) :
    (advance start (earlier + count) - advance start earlier).toNat ≤ count := by
  rw [advance_sub_advance, BitVec.toNat_ofNat]
  exact Nat.mod_le _ _

theorem advance_add_eq_iff (start : BitVec width) (earlier count : Nat)
    (near : count < 2 ^ width) :
    advance start earlier = advance start (earlier + count) ↔ count = 0 := by
  constructor
  · intro same
    rw [← toNat_advance_sub start earlier count near, ← same, BitVec.sub_self]
    rfl
  · rintro rfl
    rfl

end Counters

/-! ### Slots -/

section Masks

variable {width size : Nat}

/-- The slot a counter is masked to. -/
def slotOf (size : Nat) (counter : BitVec width) : Nat :=
  (counter &&& BitVec.ofNat width (size - 1)).toNat

theorem slotOf_lt (positive : 0 < size) (counter : BitVec width) : slotOf size counter < size := by
  have masked : slotOf size counter ≤ (BitVec.ofNat width (size - 1)).toNat := by
    rw [slotOf, BitVec.toNat_and]
    exact Nat.and_le_right
  have mask : (BitVec.ofNat width (size - 1)).toNat ≤ size - 1 := by
    rw [BitVec.toNat_ofNat]
    exact Nat.mod_le _ _
  omega

theorem slotOf_eq_mod (power : size.isPowerOfTwo) (fits : size < 2 ^ width)
    (counter : BitVec width) : slotOf size counter = counter.toNat % size := by
  obtain ⟨bits, rfl⟩ := power
  rw [slotOf, BitVec.toNat_and, BitVec.toNat_ofNat,
    Nat.mod_eq_of_lt (lt_of_le_of_lt (Nat.sub_le _ 1) fits), Nat.and_two_pow_sub_one_eq_mod]

theorem slotOf_advance (power : size.isPowerOfTwo) (fits : size < 2 ^ width)
    (start : BitVec width) (count : Nat) :
    slotOf size (advance start count) = (start.toNat + count) % size := by
  have divides : size ∣ 2 ^ width := by
    obtain ⟨bits, rfl⟩ := power
    exact Nat.pow_dvd_pow 2 (Nat.pow_lt_pow_iff_right (by decide) |>.mp fits).le
  rw [slotOf_eq_mod power fits, toNat_advance, Nat.mod_mod_of_dvd _ divides]

/-- Fewer increments than there are slots lead to another slot. -/
theorem slotOf_advance_add_eq_iff (power : size.isPowerOfTwo) (fits : size < 2 ^ width)
    (start : BitVec width) (earlier count : Nat) (near : count < size) :
    slotOf size (advance start earlier) = slotOf size (advance start (earlier + count)) ↔
      count = 0 := by
  rw [slotOf_advance power fits, slotOf_advance power fits, ← Nat.add_assoc]
  constructor
  · intro same
    have divides : size ∣ count := by
      simpa using (Nat.modEq_iff_dvd' (Nat.le_add_right _ count)).mp same
    exact Nat.eq_zero_of_dvd_of_lt divides near
  · rintro rfl
    rfl

end Masks

/-! ### The bounded queue -/

section Queue

variable {Value : Type}

/-- What a push or a pop came to. -/
inductive Answer (Value : Type) where
  | pushed (value : Value)
  | refused
  | popped (value : Value)
  | missed
deriving DecidableEq

namespace Answer

/-- The value a successful push was given. -/
def pushedValue : Answer Value → Option Value
  | pushed value => some value
  | _ => none

/-- The value a successful pop returned. -/
def poppedValue : Answer Value → Option Value
  | popped value => some value
  | _ => none

end Answer

/-- The values of the successful pushes of a history. -/
def pushes (history : List (Answer Value)) : List Value := history.filterMap Answer.pushedValue

/-- The values of the successful pops of a history. -/
def pops (history : List (Answer Value)) : List Value := history.filterMap Answer.poppedValue

theorem pushes_concat (history : List (Answer Value)) (answer : Answer Value) :
    pushes (history ++ [answer]) = pushes history ++ answer.pushedValue.toList := by
  rw [pushes, List.filterMap_append]
  cases answer <;> rfl

theorem pops_concat (history : List (Answer Value)) (answer : Answer Value) :
    pops (history ++ [answer]) = pops history ++ answer.poppedValue.toList := by
  rw [pops, List.filterMap_append]
  cases answer <;> rfl

/-- One answer of a queue that holds at most `bound` values, with what it holds before and
after. -/
inductive Serves (bound : Nat) : List Value → Answer Value → List Value → Prop where
  | pushed (queue : List Value) (value : Value) (room : queue.length < bound) :
      Serves bound queue (.pushed value) (queue ++ [value])
  | refused (queue : List Value) (full : queue.length = bound) : Serves bound queue .refused queue
  | popped (value : Value) (queue : List Value) :
      Serves bound (value :: queue) (.popped value) queue
  | missed : Serves bound [] .missed []

/-- The histories of an initially empty queue, with what it holds after them. -/
inductive Served (bound : Nat) : List (Answer Value) → List Value → Prop where
  | nothing : Served bound [] []
  | later {history : List (Answer Value)} {queue after : List Value} {answer : Answer Value}
      (earlier : Served bound history queue) (last : Serves bound queue answer after) :
      Served bound (history ++ [answer]) after

variable {bound : Nat} {history : List (Answer Value)} {queue : List Value}

/-- What was pushed is what was popped and what is held, in this order. -/
theorem Served.pushes_eq (served : Served bound history queue) :
    pushes history = pops history ++ queue := by
  induction served with
  | nothing => rfl
  | later earlier last inductionHypothesis =>
    rw [pushes_concat, pops_concat, inductionHypothesis]
    cases last <;> simp [Answer.pushedValue, Answer.poppedValue]

theorem Served.length_le (served : Served bound history queue) : queue.length ≤ bound := by
  induction served with
  | nothing => exact Nat.zero_le _
  | later earlier last inductionHypothesis =>
    cases last with
    | pushed queue value room =>
      rw [List.length_append, List.length_singleton]
      exact room
    | refused queue full => exact inductionHypothesis
    | popped value queue => exact Nat.le_of_succ_le inductionHypothesis
    | missed => exact inductionHypothesis

theorem Served.length_pushes (served : Served bound history queue) :
    (pushes history).length = (pops history).length + queue.length := by
  rw [served.pushes_eq, List.length_append]

theorem Served.pops_isPrefix (served : Served bound history queue) :
    pops history <+: pushes history := by
  rw [served.pushes_eq]
  exact List.prefix_append _ _

end Queue

end RingBuffer
