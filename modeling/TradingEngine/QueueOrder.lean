/-
This file proves that the queue hands its values on in order. A queue in any state
represents a list: the values pushed and not yet popped, the first of them in the slot
of `tail`. Every step either leaves the list alone or is the one answer of a call, and
then the list changes as a bounded first-in first-out queue does. The slot of a value
the consumer has read but not yet released and the slot the producer has written but
not yet published are the two that differ from the list, and the invariant names both.
The last section says that the queue of the threads is such a list.
-/

import TradingEngine.Lib.Transition
import TradingEngine.Pipeline
import TradingEngine.SpscQueue

namespace Trading

open RingBuffer

namespace SPSCQueue

variable {Value : Type} {capacity : QueueCapacity}

/-! ### The list a queue represents -/

/-- How many values were popped. -/
def popCount (q : SPSCQueue Value capacity) : Nat := (pops q.answers).length

/-- The slots in front of `tail` that are read already. -/
def taken (q : SPSCQueue Value capacity) : Nat :=
  match q.consumer with
  | .storing _ _ => 1
  | _ => 0

/-- The slots from `head` on that are written already. -/
def placed (q : SPSCQueue Value capacity) : Nat :=
  match q.producer with
  | .storing _ _ => 1
  | _ => 0

/-- What the producer holds: the head of the queue, room once it has tested for it, and its
value in the slot of the head once it has written it. -/
def ProducerAgrees (q : SPSCQueue Value capacity) (held : List Value) : Prop :=
  match q.producer with
  | .ready => True
  | .loadingTail _ head => head = q.head
  | .writing _ head => head = q.head ∧ held.length < capacity.size
  | .storing value head =>
    head = q.head ∧ held.length < capacity.size ∧ q.slots.get (capacity.slot head) = value

/-- What the consumer holds: the tail of the queue, a value to read once it has tested for
one, and the oldest value once it has read it. -/
def ConsumerAgrees (q : SPSCQueue Value capacity) (held : List Value) : Prop :=
  match q.consumer with
  | .ready => True
  | .loadingHead tail => tail = q.tail
  | .reading tail => tail = q.tail ∧ 0 < held.length
  | .storing value tail => tail = q.tail ∧ held.head? = some value

/-- The queue holds `held` after its counters started at `start`. -/
structure Represents (start : BitVec 64) (q : SPSCQueue Value capacity) (held : List Value) :
    Prop where
  served : Served capacity.size q.answers held
  head : q.head = advance start (q.popCount + held.length)
  tail : q.tail = advance start q.popCount
  slots : ∀ index value, q.taken ≤ index → held[index]? = some value →
    q.slots.get (capacity.slot (advance start (q.popCount + index))) = value
  unread : ∀ slot, q.unread.get slot = true → ∃ index, q.taken ≤ index ∧
    index < held.length + q.placed ∧ slot = capacity.slot (advance start (q.popCount + index))
  producer : q.ProducerAgrees held
  consumer : q.ConsumerAgrees held

variable {moved : Value → Value} {start : BitVec 64} {q : SPSCQueue Value capacity}
  {held : List Value}

theorem represents_initial (start : BitVec 64) (slots : Vector Value capacity.size) :
    (initial start slots).Represents start [] where
  served := .nothing
  head := (advance_zero start).symm
  tail := (advance_zero start).symm
  slots := by
    intro index value _ found
    cases found
  unread := by
    intro slot marked
    have clear : (Vector.replicate capacity.size false).get slot = false :=
      Vector.getElem_replicate slot.isLt
    exact absurd (marked.symm.trans clear) (by decide)
  producer := trivial
  consumer := trivial

theorem Represents.length_le (represents : q.Represents start held) :
    held.length ≤ capacity.size :=
  represents.served.length_le

theorem Represents.length_lt (represents : q.Represents start held) :
    held.length < 2 ^ 64 :=
  lt_of_le_of_lt represents.length_le capacity.fits

/-- The test of `try_push` finds the number of values held. -/
theorem Represents.toNat_head_sub_tail (represents : q.Represents start held) :
    (q.head - q.tail).toNat = held.length := by
  rw [represents.head, represents.tail]
  exact toNat_advance_sub start _ _ represents.length_lt

/-- The test of `try_pop` finds whether a value is held. -/
theorem Represents.tail_eq_head_iff (represents : q.Represents start held) :
    q.tail = q.head ↔ held.length = 0 := by
  rw [represents.head, represents.tail]
  exact advance_add_eq_iff start _ _ represents.length_lt

/-- Where the producer stands may change, if it knows what it has to there. -/
theorem Represents.setProducer (represents : q.Represents start held) {producer : Producer Value}
    (placedSame : placed { q with producer := producer } = q.placed)
    (agrees : ProducerAgrees { q with producer := producer } held) :
    Represents start { q with producer := producer } held where
  served := represents.served
  head := represents.head
  tail := represents.tail
  slots := represents.slots
  unread := by
    rw [placedSame]
    exact represents.unread
  producer := agrees
  consumer := represents.consumer

/-- Where the consumer stands may change, if it knows what it has to there. -/
theorem Represents.setConsumer (represents : q.Represents start held) {consumer : Consumer Value}
    (takenSame : taken { q with consumer := consumer } = q.taken)
    (agrees : ConsumerAgrees { q with consumer := consumer } held) :
    Represents start { q with consumer := consumer } held where
  served := represents.served
  head := represents.head
  tail := represents.tail
  slots := by
    rw [takenSame]
    exact represents.slots
  unread := by
    rw [takenSame]
    exact represents.unread
  producer := represents.producer
  consumer := agrees

/-- A call that returned false. -/
theorem Represents.answer (represents : q.Represents start held) {answer : Answer Value}
    (serves : Serves capacity.size held answer held) (unsuccessful : answer.poppedValue = none) :
    Represents start { q with answers := q.answers ++ [answer] } held := by
  have popCountSame : popCount { q with answers := q.answers ++ [answer] } = q.popCount := by
    rw [popCount, pops_concat, unsuccessful, Option.toList_none, List.append_nil]
    rfl
  constructor
  case served => exact represents.served.later serves
  case producer => exact represents.producer
  case consumer => exact represents.consumer
  all_goals rw [popCountSame]
  case head => exact represents.head
  case tail => exact represents.tail
  case slots => exact represents.slots
  case unread => exact represents.unread

/-! ### The steps of the producer -/

theorem Represents.tryPush (represents : q.Represents start held) (value : Value)
    (ready : q.producer = .ready) :
    Represents start { q with producer := .loadingTail value q.head } held := by
  refine represents.setProducer ?_ rfl
  rw [placed, placed, ready]

/-- A push that finds the queue full. -/
theorem Represents.serves_refused (represents : q.Represents start held) {value : Value}
    {head : BitVec 64} (loading : q.producer = .loadingTail value head)
    (full : capacity.size ≤ (head - q.tail).toNat) :
    Serves capacity.size held .refused held := by
  have agrees := represents.producer
  rw [ProducerAgrees, loading] at agrees
  rw [agrees, represents.toNat_head_sub_tail] at full
  exact .refused held (Nat.le_antisymm represents.length_le full)

theorem Represents.loadTail (represents : q.Represents start held) (value : Value)
    (head : BitVec 64) (loading : q.producer = .loadingTail value head) :
    (q.loadTail value head).Represents start held := by
  have nonePlaced : q.placed = 0 := by rw [placed, loading]
  unfold SPSCQueue.loadTail
  split
  · rename_i full
    have released : Represents start { q with producer := .ready } held :=
      represents.setProducer nonePlaced.symm trivial
    exact released.answer (represents.serves_refused loading full) rfl
  · rename_i room
    have agrees := represents.producer
    rw [ProducerAgrees, loading] at agrees
    rw [agrees, represents.toNat_head_sub_tail] at room
    exact represents.setProducer nonePlaced.symm ⟨agrees, Nat.lt_of_not_le room⟩

/-- While there is room, the slot of the head holds none of the values. -/
theorem Represents.slot_ne_head (represents : q.Represents start held)
    (room : held.length < capacity.size) {index : Nat} (inside : index < held.length) :
    capacity.slot (advance start (q.popCount + index)) ≠ capacity.slot q.head := by
  have later : q.popCount + held.length = q.popCount + index + (held.length - index) := by omega
  rw [represents.head, later]
  exact (capacity.slot_advance_add_ne start _ _ (by omega) (by omega)).symm

theorem Represents.taken_le (represents : q.Represents start held) : q.taken ≤ held.length := by
  have agrees := represents.consumer
  unfold taken
  unfold ConsumerAgrees at agrees
  split
  · rename_i value tail storing
    rw [storing] at agrees
    exact List.length_pos_of_mem (List.mem_of_head? agrees.2)
  · exact Nat.zero_le _

theorem Represents.writeSlot (represents : q.Represents start held) (value : Value)
    (head : BitVec 64) (writing : q.producer = .writing value head) :
    (q.writeSlot value head).Represents start held := by
  have agrees := represents.producer
  rw [ProducerAgrees, writing] at agrees
  obtain ⟨rfl, room⟩ := agrees
  constructor
  case served => exact represents.served
  case head => exact represents.head
  case tail => exact represents.tail
  case slots =>
    intro index stored untaken found
    have inside : index < held.length := (List.getElem?_eq_some_iff.mp found).1
    have popCountSame : (q.writeSlot value q.head).popCount = q.popCount := rfl
    rw [popCountSame, writeSlot_slots, if_neg (represents.slot_ne_head room inside)]
    exact represents.slots index stored untaken found
  case unread =>
    intro slot marked
    rw [writeSlot_unread] at marked
    split at marked
    · rename_i same
      refine ⟨held.length, represents.taken_le, Nat.lt_succ_self _, ?_⟩
      rw [same, represents.head]
      rfl
    · obtain ⟨index, untaken, inside, found⟩ := represents.unread slot marked
      rw [placed, writing] at inside
      exact ⟨index, untaken, Nat.lt_succ_of_lt inside, found⟩
  case producer =>
    refine ⟨rfl, room, ?_⟩
    rw [writeSlot_slots, if_pos rfl]
  case consumer => exact represents.consumer

/-- What the consumer holds stays so when a value is added. -/
theorem ConsumerAgrees.append (agrees : q.ConsumerAgrees held) (value : Value) :
    q.ConsumerAgrees (held ++ [value]) := by
  unfold ConsumerAgrees at agrees ⊢
  split at agrees
  · trivial
  · exact agrees
  · refine ⟨agrees.1, ?_⟩
    rw [List.length_append]
    exact Nat.add_pos_left agrees.2 _
  · refine ⟨agrees.1, ?_⟩
    rw [List.head?_append, agrees.2, Option.some_or]

theorem Represents.storeHead (represents : q.Represents start held) (value : Value)
    (head : BitVec 64) (storing : q.producer = .storing value head) :
    (q.storeHead value head).Represents start (held ++ [value]) := by
  have agrees := represents.producer
  rw [ProducerAgrees, storing] at agrees
  obtain ⟨rfl, room, written⟩ := agrees
  have popCountSame : (q.storeHead value q.head).popCount = q.popCount := by
    rw [popCount, SPSCQueue.storeHead, pops_concat]
    exact congrArg List.length (List.append_nil _)
  have length : (held ++ [value]).length = held.length + 1 := by
    rw [List.length_append, List.length_singleton]
  constructor
  case served => exact represents.served.later (.pushed held value room)
  case producer => trivial
  case consumer => exact represents.consumer.append value
  all_goals rw [popCountSame]
  case head =>
    rw [length, ← Nat.add_assoc, advance_succ, ← represents.head]
    rfl
  case tail => exact represents.tail
  case slots =>
    intro index stored untaken found
    by_cases inside : index < held.length
    · rw [List.getElem?_append_left inside] at found
      exact represents.slots index stored untaken found
    · have bound := (List.getElem?_eq_some_iff.mp found).1
      obtain rfl : index = held.length := by omega
      rw [List.getElem?_concat_length, Option.some.injEq] at found
      rw [← represents.head, ← found]
      exact written
  case unread =>
    intro slot marked
    obtain ⟨index, untaken, inside, found⟩ := represents.unread slot marked
    rw [placed, storing] at inside
    exact ⟨index, untaken, Nat.lt_of_lt_of_eq inside length.symm, found⟩

/-! ### The steps of the consumer -/

theorem Represents.tryPop (represents : q.Represents start held) (ready : q.consumer = .ready) :
    Represents start { q with consumer := .loadingHead q.tail } held := by
  refine represents.setConsumer ?_ rfl
  rw [taken, taken, ready]

/-- A pop that finds the queue empty. -/
theorem Represents.serves_missed (represents : q.Represents start held) {tail : BitVec 64}
    (loading : q.consumer = .loadingHead tail) (empty : tail = q.head) :
    Serves capacity.size held .missed held := by
  have agrees := represents.consumer
  rw [ConsumerAgrees, loading] at agrees
  rw [agrees, represents.tail_eq_head_iff] at empty
  rw [List.length_eq_zero_iff.mp empty]
  exact .missed

theorem Represents.loadHead (represents : q.Represents start held) (tail : BitVec 64)
    (loading : q.consumer = .loadingHead tail) : (q.loadHead tail).Represents start held := by
  have noneTaken : q.taken = 0 := by rw [taken, loading]
  unfold SPSCQueue.loadHead
  split
  · rename_i empty
    have released : Represents start { q with consumer := .ready } held :=
      represents.setConsumer noneTaken.symm trivial
    exact released.answer (represents.serves_missed loading empty) rfl
  · rename_i nonempty
    have agrees := represents.consumer
    rw [ConsumerAgrees, loading] at agrees
    rw [agrees, represents.tail_eq_head_iff] at nonempty
    exact represents.setConsumer noneTaken.symm ⟨agrees, Nat.pos_of_ne_zero nonempty⟩

/-- The slot of the tail is not the one of a later value, nor the one the next value goes
to while there is room. -/
theorem Represents.slot_ne_tail (represents : q.Represents start held) {index : Nat}
    (later : 0 < index) (near : index < capacity.size) :
    capacity.slot (advance start (q.popCount + index)) ≠ capacity.slot q.tail := by
  rw [represents.tail]
  exact capacity.slot_advance_add_ne start _ _ later near

/-- What the producer holds is in no slot the consumer empties. -/
theorem ProducerAgrees.setSlot (agrees : q.ProducerAgrees held) {slot : Fin capacity.size}
    (value : Value) (unread : Bool)
    (apart : held.length < capacity.size → capacity.slot q.head ≠ slot) :
    (q.setSlot slot value unread).ProducerAgrees held := by
  have producerSame : (q.setSlot slot value unread).producer = q.producer := rfl
  unfold ProducerAgrees at agrees ⊢
  rw [producerSame]
  split at agrees
  · trivial
  · exact agrees
  · exact agrees
  · obtain ⟨rfl, room, written⟩ := agrees
    refine ⟨rfl, room, ?_⟩
    rw [setSlot_slots, if_neg (apart room)]
    exact written

/-- The consumer reads the oldest value. -/
theorem Represents.head?_eq (represents : q.Represents start held) {tail : BitVec 64}
    (reading : q.consumer = .reading tail) :
    held.head? = some (q.slots.get (capacity.slot tail)) := by
  have agrees := represents.consumer
  rw [ConsumerAgrees, reading] at agrees
  obtain ⟨rfl, nonempty⟩ := agrees
  have first : held[0]? = some held[0] := List.getElem?_eq_getElem nonempty
  have stored := represents.slots 0 held[0] (by rw [taken, reading]) first
  rw [represents.tail, List.head?_eq_getElem?, first]
  exact congrArg some stored.symm

theorem Represents.readSlot (represents : q.Represents start held) (tail : BitVec 64)
    (reading : q.consumer = .reading tail) :
    (readSlot moved q tail).Represents start held := by
  have oldest := represents.head?_eq reading
  have noneTaken : q.taken = 0 := by rw [taken, reading]
  have agrees := represents.consumer
  rw [ConsumerAgrees, reading] at agrees
  obtain ⟨rfl, nonempty⟩ := agrees
  have fits := represents.length_le
  constructor
  case served => exact represents.served
  case head => exact represents.head
  case tail => exact represents.tail
  case slots =>
    intro index stored untaken found
    have inside : index < held.length := (List.getElem?_eq_some_iff.mp found).1
    have other := represents.slot_ne_tail untaken (Nat.lt_of_lt_of_le inside fits)
    have popCountSame : (SPSCQueue.readSlot moved q q.tail).popCount = q.popCount := rfl
    rw [popCountSame, readSlot_slots, if_neg other]
    exact represents.slots index stored (noneTaken ▸ Nat.zero_le index) found
  case unread =>
    intro slot marked
    rw [readSlot_unread] at marked
    split at marked
    · cases marked
    · rename_i other
      obtain ⟨index, untaken, inside, found⟩ := represents.unread slot marked
      refine ⟨index, ?_, inside, found⟩
      by_contra first
      obtain rfl : index = 0 := Nat.eq_zero_of_not_pos first
      exact other (found.trans (congrArg capacity.slot represents.tail.symm))
  case producer =>
    refine represents.producer.setSlot _ false fun room => ?_
    rw [represents.head]
    exact represents.slot_ne_tail nonempty room
  case consumer => exact ⟨rfl, oldest⟩

/-- What the producer holds stays so when a value is taken. -/
theorem ProducerAgrees.mono (agrees : q.ProducerAgrees held) {fewer : List Value}
    (shorter : fewer.length ≤ held.length) : q.ProducerAgrees fewer := by
  unfold ProducerAgrees at agrees ⊢
  split at agrees
  · trivial
  · exact agrees
  · exact ⟨agrees.1, Nat.lt_of_le_of_lt shorter agrees.2⟩
  · exact ⟨agrees.1, Nat.lt_of_le_of_lt shorter agrees.2.1, agrees.2.2⟩

theorem Represents.held_eq_cons (represents : q.Represents start held) {value : Value}
    {tail : BitVec 64} (storing : q.consumer = .storing value tail) :
    held = value :: held.tail := by
  have agrees := represents.consumer
  rw [ConsumerAgrees, storing] at agrees
  exact List.eq_cons_of_mem_head? agrees.2

theorem Represents.storeTail (represents : q.Represents start held) (value : Value)
    (tail : BitVec 64) (storing : q.consumer = .storing value tail) :
    (q.storeTail value tail).Represents start held.tail := by
  have shape := represents.held_eq_cons storing
  generalize held.tail = rest at shape
  subst shape
  have agrees := represents.consumer
  rw [ConsumerAgrees, storing] at agrees
  obtain ⟨rfl, -⟩ := agrees
  have popCountNext : (q.storeTail value q.tail).popCount = q.popCount + 1 := by
    rw [popCount, SPSCQueue.storeTail, pops_concat]
    exact List.length_append
  have oneTaken : q.taken = 1 := by rw [taken, storing]
  constructor
  case served => exact represents.served.later (.popped value rest)
  case producer => exact represents.producer.mono (Nat.le_succ _)
  case consumer => trivial
  all_goals rw [popCountNext]
  case head =>
    rw [Nat.add_assoc, Nat.add_comm 1]
    exact represents.head
  case tail =>
    rw [advance_succ, ← represents.tail]
    rfl
  case slots =>
    intro index stored _ found
    rw [Nat.add_assoc, Nat.add_comm 1]
    exact represents.slots (index + 1) stored (by omega) found
  case unread =>
    intro slot marked
    obtain ⟨index, untaken, inside, found⟩ := represents.unread slot marked
    rw [oneTaken] at untaken
    rw [List.length_cons] at inside
    refine ⟨index - 1, Nat.zero_le _, ?_, ?_⟩
    · show index - 1 < rest.length + q.placed
      omega
    · rw [found, Nat.add_assoc, Nat.add_sub_cancel' untaken]

/-! ### Runs -/

/-- What a step does to the list: nothing, or the one answer of the call it ends. -/
theorem Represents.step (represents : q.Represents start held) {action : QueueAction Value}
    {after : SPSCQueue Value capacity} (stepped : step moved q action = some after) :
    ∃ heldAfter, after.Represents start heldAfter ∧
      ((after.answers = q.answers ∧ heldAfter = held) ∨
        ∃ answer, after.answers = q.answers ++ [answer] ∧ action = lastAction answer ∧
          Serves capacity.size held answer heldAfter) := by
  cases moves_of_step stepped with
  | tryPush value ready => exact ⟨held, represents.tryPush value ready, .inl ⟨rfl, rfl⟩⟩
  | loadTail value head loading =>
    refine ⟨held, represents.loadTail value head loading, ?_⟩
    unfold SPSCQueue.loadTail
    split
    · rename_i full
      exact .inr ⟨.refused, rfl, rfl, represents.serves_refused loading full⟩
    · exact .inl ⟨rfl, rfl⟩
  | writeSlot value head writing =>
    exact ⟨held, represents.writeSlot value head writing, .inl ⟨rfl, rfl⟩⟩
  | storeHead value head storing =>
    have agrees := represents.producer
    rw [ProducerAgrees, storing] at agrees
    exact ⟨_, represents.storeHead value head storing,
      .inr ⟨.pushed value, rfl, rfl, .pushed held value agrees.2.1⟩⟩
  | tryPop ready => exact ⟨held, represents.tryPop ready, .inl ⟨rfl, rfl⟩⟩
  | loadHead tail loading =>
    refine ⟨held, represents.loadHead tail loading, ?_⟩
    unfold SPSCQueue.loadHead
    split
    · rename_i empty
      exact .inr ⟨.missed, rfl, rfl, represents.serves_missed loading empty⟩
    · exact .inl ⟨rfl, rfl⟩
  | readSlot tail reading => exact ⟨held, represents.readSlot tail reading, .inl ⟨rfl, rfl⟩⟩
  | storeTail value tail storing =>
    refine ⟨_, represents.storeTail value tail storing, .inr ⟨.popped value, rfl, rfl, ?_⟩⟩
    have popped : Serves capacity.size (value :: held.tail) (.popped value) held.tail :=
      .popped value held.tail
    rwa [← represents.held_eq_cons storing] at popped

/-- Every state of every run represents a list. -/
theorem exists_represents {slots : Vector Value capacity.size}
    (reached : Transition.Reaches (step moved) Transition.Free (initial start slots) q) :
    ∃ held, q.Represents start held := by
  have initially : ∃ held, (initial start slots).Represents start held :=
    ⟨[], represents_initial start slots⟩
  refine @Transition.Reaches.invariant _ _ (SPSCQueue.step moved) _ _
    (fun state => ∃ held, state.Represents start held) initially ?_ q reached
  rintro state action after ⟨held, represents⟩ - stepped
  obtain ⟨heldAfter, representsAfter, -⟩ := represents.step stepped
  exact ⟨heldAfter, representsAfter⟩

/-- The slot a push writes was read since it was last written. -/
theorem Represents.unread_head (represents : q.Represents start held) {value : Value}
    {head : BitVec 64} (writing : q.producer = .writing value head) :
    q.unread.get (capacity.slot head) = false := by
  have agrees := represents.producer
  rw [ProducerAgrees, writing] at agrees
  obtain ⟨rfl, room⟩ := agrees
  by_contra marked
  obtain ⟨index, -, inside, found⟩ := represents.unread _ (Bool.eq_true_of_not_eq_false marked)
  rw [placed, writing] at inside
  exact represents.slot_ne_head room inside found.symm

/-- What a step that adds an answer is. -/
theorem Represents.serves_of_answers (represents : q.Represents start held)
    {action : QueueAction Value} {after : SPSCQueue Value capacity} {answer : Answer Value}
    (stepped : SPSCQueue.step moved q action = some after)
    (answered : after.answers = q.answers ++ [answer]) :
    action = lastAction answer ∧ ∃ heldAfter, Serves capacity.size held answer heldAfter := by
  obtain ⟨heldAfter, -, ⟨same, -⟩ | ⟨other, added, last, serves⟩⟩ := represents.step stepped
  · rw [same] at answered
    exact absurd answered (by simp)
  · rw [answered] at added
    obtain rfl : answer = other := by simpa using added
    exact ⟨last, heldAfter, serves⟩

/-- In every interleaving of one producer and one consumer, from any counters and any slots and
whatever a move leaves: what was popped is a prefix of what was pushed, at most `Capacity`
values are held, no push is about to write a slot that was written and not read since, a push
fails only on a load of `tail` that finds `Capacity` values held, and a pop fails only on a
load of `head` that finds none. -/
theorem queue_is_fifo {slots : Vector Value capacity.size}
    (reached : Transition.Reaches (step moved) Transition.Free (initial start slots) q) :
    pops q.answers <+: pushes q.answers ∧
    (pushes q.answers).length ≤ (pops q.answers).length + capacity.size ∧
    (∀ value head, q.producer = .writing value head →
      q.unread.get (capacity.slot head) = false) ∧
    (∀ action after, step moved q action = some after →
      after.answers = q.answers ++ [.refused] → action = .loadTail ∧
        (pushes q.answers).length = (pops q.answers).length + capacity.size) ∧
    (∀ action after, step moved q action = some after →
      after.answers = q.answers ++ [.missed] → action = .loadHead ∧
        (pushes q.answers).length = (pops q.answers).length) := by
  obtain ⟨held, represents⟩ := exists_represents reached
  have length := represents.served.length_pushes
  refine ⟨represents.served.pops_isPrefix, ?_, ?_, ?_, ?_⟩
  · rw [length]
    exact Nat.add_le_add_left represents.length_le _
  · intro value head writing
    exact represents.unread_head writing
  · intro action after stepped answered
    obtain ⟨last, heldAfter, serves⟩ := represents.serves_of_answers stepped answered
    cases serves with
    | refused _ full => exact ⟨last, by rw [length, full]⟩
  · intro action after stepped answered
    obtain ⟨last, heldAfter, serves⟩ := represents.serves_of_answers stepped answered
    cases serves with
    | missed => exact ⟨last, length⟩

/-- Two slots. -/
def twoSlots : QueueCapacity where
  size := 2
  powerOfTwo := rfl
  atLeastTwo := Nat.le_refl 2
  fits := by decide

/-- Two pushes across the wrap of the counters, and a pop of the first value half done. -/
def wrapActions : List (QueueAction Nat) :=
  [.tryPush 7, .loadTail, .writeSlot, .storeHead, .tryPush 8, .tryPop, .loadTail, .writeSlot,
    .loadHead, .storeHead, .tryPush 9]

/-- A queue of two values whose head has wrapped around and whose tail has not. -/
def wrapState : SPSCQueue Nat twoSlots where
  head := 1
  tail := BitVec.allOnes 64
  slots := #v[8, 7]
  producer := .loadingTail 9 1
  consumer := .reading (BitVec.allOnes 64)
  answers := [.pushed 7, .pushed 8]
  unread := #v[true, true]

theorem reaches_wrapState :
    Transition.Reaches (step id) Transition.Free
      (initial (BitVec.allOnes 64) (#v[0, 0] : Vector Nat twoSlots.size)) wrapState := by
  have executed : Transition.execute (step id) Transition.Free
      (initial (BitVec.allOnes 64) (#v[0, 0] : Vector Nat twoSlots.size)) wrapActions =
      some wrapState := by
    rfl
  exact Transition.Reaches.start.execute executed

theorem queue_is_fifo_wrapState :
    (wrapState.loadTail 9 1).answers = wrapState.answers ++ [.refused] ∧
    (pushes wrapState.answers).length = (pops wrapState.answers).length + 2 := by
  have parts := queue_is_fifo reaches_wrapState
  have refused : (wrapState.loadTail 9 1).answers = wrapState.answers ++ [.refused] := by rfl
  exact ⟨refused, (parts.2.2.2.1 .loadTail _ rfl refused).2⟩

end SPSCQueue

/-! ### The queue of the runtime -/

/-- The capacity of the queue between the two threads. -/
def eventQueueCapacity : QueueCapacity where
  size := queueCapacity
  powerOfTwo := by decide
  atLeastTwo := by decide
  fits := by decide

end Trading
