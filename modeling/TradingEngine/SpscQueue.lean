/-
This file models the queue between the network thread and the strategy thread: one
producer in `try_push` and one consumer in `try_pop`, each atomic load, slot access and
atomic store one step, in any interleaving. A push holds the head and a pop the tail
it loaded until it stores the next one, so between two steps of one side the other side
can move as far as it likes. The counters start at any value and wrap.

Two fields are no state of the program: `answers` records what each call came to, in
the order of the calls' last steps, and `unread` marks the slots that were written and
not read since.
-/

import TradingEngine.Lib.RingBuffer
import TradingEngine.Lib.Slots

namespace Trading

open RingBuffer

/-- The capacities the assertions of the queue accept. -/
structure QueueCapacity where
  size : Nat
  powerOfTwo : size &&& (size - 1) = 0
  atLeastTwo : 2 ≤ size
  fits : size < 2 ^ 64

/-- Where the producer stands in `try_push`. -/
inductive Producer (Value : Type) where
  | ready
  /-- holding the head it loaded -/
  | loadingTail (value : Value) (head : BitVec 64)
  | writing (value : Value) (head : BitVec 64)
  | storing (value : Value) (head : BitVec 64)
deriving DecidableEq

/-- Where the consumer stands in `try_pop`. -/
inductive Consumer (Value : Type) where
  | ready
  /-- holding the tail it loaded -/
  | loadingHead (tail : BitVec 64)
  | reading (tail : BitVec 64)
  | storing (value : Value) (tail : BitVec 64)
deriving DecidableEq

/-- The ring, its two counters, where both threads stand, and what the calls answered. -/
structure SPSCQueue (Value : Type) (capacity : QueueCapacity) where
  head : BitVec 64
  tail : BitVec 64
  slots : Vector Value capacity.size
  producer : Producer Value
  consumer : Consumer Value
  answers : List (Answer Value)
  unread : Vector Bool capacity.size

/-- One step of the producer or of the consumer; the first one of a call begins it. -/
inductive QueueAction (Value : Type) where
  | tryPush (value : Value)
  | loadTail
  | writeSlot
  | storeHead
  | tryPop
  | loadHead
  | readSlot
  | storeTail
deriving DecidableEq

namespace QueueCapacity

/-- The slot `counter & (Capacity - 1)`. -/
def slot (capacity : QueueCapacity) (counter : BitVec 64) : Fin capacity.size :=
  ⟨slotOf capacity.size counter,
    slotOf_lt (Nat.lt_of_lt_of_le Nat.zero_lt_two capacity.atLeastTwo) counter⟩

theorem isPowerOfTwo (capacity : QueueCapacity) : capacity.size.isPowerOfTwo :=
  (Nat.and_sub_one_eq_zero_iff_isPowerOfTwo (by have := capacity.atLeastTwo; omega)).mp
    capacity.powerOfTwo

/-- Fewer than `Capacity` increments lead to another slot. -/
theorem slot_advance_add_ne (capacity : QueueCapacity) (start : BitVec 64) (earlier count : Nat)
    (positive : 0 < count) (near : count < capacity.size) :
    capacity.slot (advance start (earlier + count)) ≠ capacity.slot (advance start earlier) := by
  intro same
  have zero := (slotOf_advance_add_eq_iff capacity.isPowerOfTwo capacity.fits start earlier count
    near).mp (congrArg Fin.val same).symm
  omega

end QueueCapacity

namespace SPSCQueue

variable {Value : Type} {capacity : QueueCapacity}

/-- A queue no call was made on, with any counter and any slots. -/
def initial (start : BitVec 64) (slots : Vector Value capacity.size) :
    SPSCQueue Value capacity where
  head := start
  tail := start
  slots := slots
  producer := .ready
  consumer := .ready
  answers := []
  unread := Vector.replicate capacity.size false

/-- Put a value in a slot and note whether it is still to be read. -/
def setSlot (q : SPSCQueue Value capacity) (slot : Fin capacity.size) (value : Value)
    (unread : Bool) : SPSCQueue Value capacity :=
  { q with
    slots := q.slots.set slot.val value slot.isLt
    unread := q.unread.set slot.val unread slot.isLt }

theorem setSlot_slots (q : SPSCQueue Value capacity) (slot other : Fin capacity.size)
    (value : Value) (unread : Bool) :
    (q.setSlot slot value unread).slots.get other =
      if other = slot then value else q.slots.get other :=
  Slots.get_set q.slots slot other value

theorem setSlot_unread (q : SPSCQueue Value capacity) (slot other : Fin capacity.size)
    (value : Value) (unread : Bool) :
    (q.setSlot slot value unread).unread.get other =
      if other = slot then unread else q.unread.get other :=
  Slots.get_set q.unread slot other unread

/-! ### The producer -/

/-- Load `tail` and return false if the queue is full. -/
def loadTail (q : SPSCQueue Value capacity) (value : Value) (head : BitVec 64) :
    SPSCQueue Value capacity :=
  if capacity.size ≤ (head - q.tail).toNat then
    { q with producer := .ready, answers := q.answers ++ [.refused] }
  else { q with producer := .writing value head }

/-- Write the value to its slot. -/
def writeSlot (q : SPSCQueue Value capacity) (value : Value) (head : BitVec 64) :
    SPSCQueue Value capacity :=
  { q.setSlot (capacity.slot head) value true with producer := .storing value head }

theorem writeSlot_slots (q : SPSCQueue Value capacity) (value : Value) (head : BitVec 64)
    (slot : Fin capacity.size) :
    (q.writeSlot value head).slots.get slot =
      if slot = capacity.slot head then value else q.slots.get slot :=
  setSlot_slots q _ slot value true

theorem writeSlot_unread (q : SPSCQueue Value capacity) (value : Value) (head : BitVec 64)
    (slot : Fin capacity.size) :
    (q.writeSlot value head).unread.get slot =
      if slot = capacity.slot head then true else q.unread.get slot :=
  setSlot_unread q _ slot value true

/-- Publish the value by storing the head; the call returns. -/
def storeHead (q : SPSCQueue Value capacity) (value : Value) (head : BitVec 64) :
    SPSCQueue Value capacity :=
  { q with head := head + 1, producer := .ready, answers := q.answers ++ [.pushed value] }

/-! ### The consumer -/

/-- Load `head` and return false if the queue is empty. -/
def loadHead (q : SPSCQueue Value capacity) (tail : BitVec 64) : SPSCQueue Value capacity :=
  if tail = q.head then { q with consumer := .ready, answers := q.answers ++ [.missed] }
  else { q with consumer := .reading tail }

/-- Move the value out of its slot, which keeps what a move leaves. -/
def readSlot (moved : Value → Value) (q : SPSCQueue Value capacity) (tail : BitVec 64) :
    SPSCQueue Value capacity :=
  let value := q.slots.get (capacity.slot tail)
  { q.setSlot (capacity.slot tail) (moved value) false with consumer := .storing value tail }

theorem readSlot_slots (moved : Value → Value) (q : SPSCQueue Value capacity) (tail : BitVec 64)
    (slot : Fin capacity.size) :
    (readSlot moved q tail).slots.get slot =
      if slot = capacity.slot tail then moved (q.slots.get (capacity.slot tail))
      else q.slots.get slot :=
  setSlot_slots q _ slot _ false

theorem readSlot_unread (moved : Value → Value) (q : SPSCQueue Value capacity) (tail : BitVec 64)
    (slot : Fin capacity.size) :
    (readSlot moved q tail).unread.get slot =
      if slot = capacity.slot tail then false else q.unread.get slot :=
  setSlot_unread q _ slot (moved (q.slots.get (capacity.slot tail))) false

/-- Give the slot back by storing the tail; the call returns. -/
def storeTail (q : SPSCQueue Value capacity) (value : Value) (tail : BitVec 64) :
    SPSCQueue Value capacity :=
  { q with tail := tail + 1, consumer := .ready, answers := q.answers ++ [.popped value] }

/-! ### Steps -/

/-- One step, if the side that makes it stands there. -/
def step (moved : Value → Value) (q : SPSCQueue Value capacity) :
    QueueAction Value → Option (SPSCQueue Value capacity)
  | .tryPush value => match q.producer with
      | .ready => some { q with producer := .loadingTail value q.head }
      | _ => none
  | .loadTail => match q.producer with
      | .loadingTail value head => some (q.loadTail value head)
      | _ => none
  | .writeSlot => match q.producer with
      | .writing value head => some (q.writeSlot value head)
      | _ => none
  | .storeHead => match q.producer with
      | .storing value head => some (q.storeHead value head)
      | _ => none
  | .tryPop => match q.consumer with
      | .ready => some { q with consumer := .loadingHead q.tail }
      | _ => none
  | .loadHead => match q.consumer with
      | .loadingHead tail => some (q.loadHead tail)
      | _ => none
  | .readSlot => match q.consumer with
      | .reading tail => some (readSlot moved q tail)
      | _ => none
  | .storeTail => match q.consumer with
      | .storing value tail => some (q.storeTail value tail)
      | _ => none

/-- The step that ends a call with an answer. -/
def lastAction : Answer Value → QueueAction Value
  | .pushed _ => .storeHead
  | .refused => .loadTail
  | .popped _ => .storeTail
  | .missed => .loadHead

/-- The steps of the queue, each with where its side stands and what it leaves. -/
inductive Moves (moved : Value → Value) (q : SPSCQueue Value capacity) :
    QueueAction Value → SPSCQueue Value capacity → Prop where
  | tryPush (value : Value) (ready : q.producer = .ready) :
      Moves moved q (.tryPush value) { q with producer := .loadingTail value q.head }
  | loadTail (value : Value) (head : BitVec 64) (loading : q.producer = .loadingTail value head) :
      Moves moved q .loadTail (q.loadTail value head)
  | writeSlot (value : Value) (head : BitVec 64) (writing : q.producer = .writing value head) :
      Moves moved q .writeSlot (q.writeSlot value head)
  | storeHead (value : Value) (head : BitVec 64) (storing : q.producer = .storing value head) :
      Moves moved q .storeHead (q.storeHead value head)
  | tryPop (ready : q.consumer = .ready) :
      Moves moved q .tryPop { q with consumer := .loadingHead q.tail }
  | loadHead (tail : BitVec 64) (loading : q.consumer = .loadingHead tail) :
      Moves moved q .loadHead (q.loadHead tail)
  | readSlot (tail : BitVec 64) (reading : q.consumer = .reading tail) :
      Moves moved q .readSlot (readSlot moved q tail)
  | storeTail (value : Value) (tail : BitVec 64) (storing : q.consumer = .storing value tail) :
      Moves moved q .storeTail (q.storeTail value tail)

theorem moves_of_step {moved : Value → Value} {q after : SPSCQueue Value capacity}
    {action : QueueAction Value} (stepped : step moved q action = some after) :
    q.Moves moved action after := by
  cases action <;> simp only [step] at stepped <;> split at stepped <;> try cases stepped
  · exact .tryPush _ ‹_›
  · exact .loadTail _ _ ‹_›
  · exact .writeSlot _ _ ‹_›
  · exact .storeHead _ _ ‹_›
  · exact .tryPop ‹_›
  · exact .loadHead _ ‹_›
  · exact .readSlot _ ‹_›
  · exact .storeTail _ _ ‹_›

end SPSCQueue

end Trading
