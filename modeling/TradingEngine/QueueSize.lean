/-
This file models `size`, which the network thread calls after it has pushed. The call
loads the two counters one after the other, in an order the language leaves open, while
the consumer goes on popping. What the answer means rests on who asks: the head cannot
move during the call, so whichever counter is loaded first, the difference is the number
of values held when the tail was loaded.

The history of the queue at three moments of a call is kept beside its answer; the
histories are no state of the program.
-/

import TradingEngine.QueueOrder

namespace Trading

open RingBuffer

/-- Where the producer's thread stands in `size`. -/
inductive Sizing (Value : Type) where
  | idle
  /-- holding the head it loaded, with the history the call began in -/
  | loadingTail (head : BitVec 64) (began : List (Answer Value))
  /-- holding the tail it loaded, with the history the call began in and so loaded it -/
  | loadingHead (tail : BitVec 64) (began : List (Answer Value))
deriving DecidableEq

/-- What a call of `size` returned, and the histories of the queue when it began, when it
loaded the tail and when it returned. -/
structure SizeAnswer (Value : Type) where
  size : BitVec 64
  began : List (Answer Value)
  loadedTail : List (Answer Value)
  returned : List (Answer Value)
deriving DecidableEq

/-- The answer is the number of values held when the call loaded the tail, and between its
beginning and its return the call saw no push. -/
structure SizeAnswer.Meets {Value : Type} (answer : SizeAnswer Value)
    (capacity : QueueCapacity) : Prop where
  counted : (pushes answer.loadedTail).length = (pops answer.loadedTail).length + answer.size.toNat
  bounded : answer.size.toNat ≤ capacity.size
  after : answer.began <+: answer.loadedTail
  before : answer.loadedTail <+: answer.returned
  alone : pushes answer.returned = pushes answer.began

/-- A queue together with a thread that asks for its size. -/
structure SizedQueue (Value : Type) (capacity : QueueCapacity) where
  queue : SPSCQueue Value capacity
  sizing : Sizing Value
  sizes : List (SizeAnswer Value)

/-- A step of the queue, or one of the two loads of `size`. -/
inductive SizedAction (Value : Type) where
  | queue (action : QueueAction Value)
  | sizeHead
  | sizeTail
deriving DecidableEq

namespace SizedQueue

variable {Value : Type} {capacity : QueueCapacity}

/-- A fresh queue nobody has asked. -/
def initial (start : BitVec 64) (slots : Vector Value capacity.size) :
    SizedQueue Value capacity where
  queue := SPSCQueue.initial start slots
  sizing := .idle
  sizes := []

/-- Both counters are loaded: return their difference. -/
def finish (s : SizedQueue Value capacity) (head tail : BitVec 64)
    (began loadedTail : List (Answer Value)) : SizedQueue Value capacity :=
  { s with
    sizing := .idle
    sizes := s.sizes ++ [⟨head - tail, began, loadedTail, s.queue.answers⟩] }

/-- Load the head, in a call that begins or after the tail. A call begins between two pushes. -/
def sizeHead (s : SizedQueue Value capacity) : Option (SizedQueue Value capacity) :=
  match s.sizing, s.queue.producer with
  | .idle, .ready => some { s with sizing := .loadingTail s.queue.head s.queue.answers }
  | .loadingHead tail began, _ => some (s.finish s.queue.head tail began began)
  | _, _ => none

/-- Load the tail, in a call that begins or after the head. -/
def sizeTail (s : SizedQueue Value capacity) : Option (SizedQueue Value capacity) :=
  match s.sizing, s.queue.producer with
  | .idle, .ready => some { s with sizing := .loadingHead s.queue.tail s.queue.answers }
  | .loadingTail head began, _ => some (s.finish head s.queue.tail began s.queue.answers)
  | _, _ => none

/-- One step; the thread that is in `size` begins no push. -/
def step (moved : Value → Value) (s : SizedQueue Value capacity) :
    SizedAction Value → Option (SizedQueue Value capacity)
  | .queue (.tryPush value) => match s.sizing with
      | .idle => (s.queue.step moved (.tryPush value)).map fun queue => { s with queue := queue }
      | _ => none
  | .queue action => (s.queue.step moved action).map fun queue => { s with queue := queue }
  | .sizeHead => s.sizeHead
  | .sizeTail => s.sizeTail

/-- The steps: what each finds and what it leaves. -/
inductive Moves (moved : Value → Value) (s : SizedQueue Value capacity) :
    SizedAction Value → SizedQueue Value capacity → Prop where
  | queue (action : QueueAction Value) (after : SPSCQueue Value capacity)
      (free : ∀ value, action = .tryPush value → s.sizing = .idle)
      (stepped : s.queue.step moved action = some after) :
      Moves moved s (.queue action) { s with queue := after }
  | beginHead (idle : s.sizing = .idle) (ready : s.queue.producer = .ready) :
      Moves moved s .sizeHead { s with sizing := .loadingTail s.queue.head s.queue.answers }
  | beginTail (idle : s.sizing = .idle) (ready : s.queue.producer = .ready) :
      Moves moved s .sizeTail { s with sizing := .loadingHead s.queue.tail s.queue.answers }
  | endTail (head : BitVec 64) (began : List (Answer Value))
      (loading : s.sizing = .loadingTail head began) :
      Moves moved s .sizeTail (s.finish head s.queue.tail began s.queue.answers)
  | endHead (tail : BitVec 64) (began : List (Answer Value))
      (loading : s.sizing = .loadingHead tail began) :
      Moves moved s .sizeHead (s.finish s.queue.head tail began began)

variable {moved : Value → Value} {start : BitVec 64} {s after : SizedQueue Value capacity}

theorem moves_of_step {action : SizedAction Value} (stepped : step moved s action = some after) :
    s.Moves moved action after := by
  cases action with
  | queue action =>
    have free : ∀ value, action = .tryPush value → s.sizing = .idle := by
      rintro value rfl
      rw [step] at stepped
      split at stepped
      · assumption
      · cases stepped
    have moves : ((s.queue.step moved action).map fun queue => { s with queue := queue }) =
        some after := by
      cases action with
      | tryPush value =>
        rw [step] at stepped
        split at stepped
        · exact stepped
        · cases stepped
      | _ => exact stepped
    obtain ⟨queue, moved, rfl⟩ := Option.map_eq_some_iff.mp moves
    exact .queue action queue free moved
  | sizeHead =>
    rw [step, sizeHead] at stepped
    split at stepped <;> cases stepped
    · exact .beginHead ‹_› ‹_›
    · exact .endHead _ _ ‹_›
  | sizeTail =>
    rw [step, sizeTail] at stepped
    split at stepped <;> cases stepped
    · exact .beginTail ‹_› ‹_›
    · exact .endTail _ _ ‹_›

/-! ### What a call of `size` keeps -/

/-- While the producer's thread is elsewhere, only pops are answered. -/
theorem answers_of_ready {queue next : SPSCQueue Value capacity} {action : QueueAction Value}
    (ready : queue.producer = .ready) (other : ∀ value, action ≠ .tryPush value)
    (stepped : queue.step moved action = some next) :
    next.producer = .ready ∧ next.head = queue.head ∧ queue.answers <+: next.answers ∧
      pushes next.answers = pushes queue.answers := by
  cases SPSCQueue.moves_of_step stepped with
  | tryPush value => exact absurd rfl (other value)
  | loadTail value head loading => exact absurd (ready.symm.trans loading) (by simp)
  | writeSlot value head writing => exact absurd (ready.symm.trans writing) (by simp)
  | storeHead value head storing => exact absurd (ready.symm.trans storing) (by simp)
  | tryPop => exact ⟨ready, rfl, List.prefix_rfl, rfl⟩
  | loadHead tail loading =>
    rw [SPSCQueue.loadHead]
    split
    · refine ⟨ready, rfl, List.prefix_append _ _, ?_⟩
      rw [pushes_concat]
      exact List.append_nil _
    · exact ⟨ready, rfl, List.prefix_rfl, rfl⟩
  | readSlot tail reading => exact ⟨ready, rfl, List.prefix_rfl, rfl⟩
  | storeTail value tail storing =>
    refine ⟨ready, rfl, List.prefix_append _ _, ?_⟩
    rw [SPSCQueue.storeTail, pushes_concat]
    exact List.append_nil _

/-- The call is between its two loads: what it holds and how far the queue has come since it
began. -/
def SizingAgrees (start : BitVec 64) (s : SizedQueue Value capacity) : Prop :=
  match s.sizing with
  | .idle => True
  | .loadingTail head began => s.queue.producer = .ready ∧ began <+: s.queue.answers ∧
      pushes s.queue.answers = pushes began ∧ head = s.queue.head
  | .loadingHead tail began => s.queue.producer = .ready ∧ began <+: s.queue.answers ∧
      pushes s.queue.answers = pushes began ∧ tail = advance start (pops began).length ∧
      ∃ held, Served capacity.size began held

/-- The counters after a history tell how many values are held. -/
theorem toNat_counters {history : List (Answer Value)} {held : List Value}
    (served : Served capacity.size history held) :
    (advance start (pushes history).length - advance start (pops history).length).toNat =
      held.length := by
  rw [served.length_pushes]
  exact toNat_advance_sub start _ _ (lt_of_le_of_lt served.length_le capacity.fits)

/-- Every state of a run: the queue represents a list, the call that is under way agrees with
it, and every answer given so far is right. -/
structure Sound (start : BitVec 64) (s : SizedQueue Value capacity) : Prop where
  represented : ∃ held, s.queue.Represents start held
  sizing : s.SizingAgrees start
  sizes : ∀ answer ∈ s.sizes, answer.Meets capacity ∧ answer.returned <+: s.queue.answers

theorem Sound.queue (sound : s.Sound start) {action : QueueAction Value}
    {next : SPSCQueue Value capacity} (free : ∀ value, action = .tryPush value → s.sizing = .idle)
    (stepped : s.queue.step moved action = some next) :
    Sound start { s with queue := next } := by
  obtain ⟨held, represents⟩ := sound.represented
  obtain ⟨heldAfter, representsAfter, answers⟩ := represents.step stepped
  have longer : s.queue.answers <+: next.answers := by
    rcases answers with ⟨same, -⟩ | ⟨answer, added, -⟩
    · rw [same]
    · rw [added]
      exact List.prefix_append _ _
  have sizing := sound.sizing
  refine ⟨⟨heldAfter, representsAfter⟩, ?_, fun answer mem => ?_⟩
  · unfold SizingAgrees at sizing ⊢
    dsimp only
    have other (busy : s.sizing ≠ .idle) : ∀ value, action ≠ .tryPush value :=
      fun value push => busy (free value push)
    split at sizing
    · trivial
    · rename_i head began loading
      obtain ⟨ready, earlier, alone, rfl⟩ := sizing
      obtain ⟨still, head, later, pushed⟩ :=
        answers_of_ready ready (other (by rw [loading]; simp)) stepped
      exact ⟨still, earlier.trans later, pushed.trans alone, head.symm⟩
    · rename_i tail began loading
      obtain ⟨ready, earlier, alone, loaded⟩ := sizing
      obtain ⟨still, -, later, pushed⟩ :=
        answers_of_ready ready (other (by rw [loading]; simp)) stepped
      exact ⟨still, earlier.trans later, pushed.trans alone, loaded⟩
  · obtain ⟨meets, returned⟩ := sound.sizes answer mem
    exact ⟨meets, returned.trans longer⟩

/-- Both counters are loaded. -/
theorem Sound.finish (sound : s.Sound start) {head tail : BitVec 64}
    {began loadedTail : List (Answer Value)} {held : List Value}
    (served : Served capacity.size loadedTail held)
    (headLoaded : head = advance start (pushes loadedTail).length)
    (tailLoaded : tail = advance start (pops loadedTail).length)
    (beganBefore : began <+: loadedTail) (loadedBefore : loadedTail <+: s.queue.answers)
    (alone : pushes s.queue.answers = pushes began) :
    (s.finish head tail began loadedTail).Sound start := by
  refine ⟨sound.represented, trivial, fun answer mem => ?_⟩
  rw [SizedQueue.finish, List.mem_append, List.mem_singleton] at mem
  rcases mem with earlier | rfl
  · exact sound.sizes answer earlier
  · have size : (head - tail).toNat = held.length := by
      rw [headLoaded, tailLoaded]
      exact toNat_counters served
    refine ⟨⟨?_, ?_, beganBefore, loadedBefore, alone⟩, List.prefix_rfl⟩
    · rw [size]
      exact served.length_pushes
    · rw [size]
      exact served.length_le

theorem Sound.step (sound : s.Sound start) {action : SizedAction Value}
    (stepped : SizedQueue.step moved s action = some after) : after.Sound start := by
  have sizing := sound.sizing
  obtain ⟨held, represents⟩ := sound.represented
  have served := represents.served
  have head : s.queue.head = advance start (pushes s.queue.answers).length := by
    rw [represents.head, served.length_pushes]
    rfl
  have tail : s.queue.tail = advance start (pops s.queue.answers).length := represents.tail
  cases moves_of_step stepped with
  | queue action next free made => exact sound.queue free made
  | beginHead idle ready =>
    exact ⟨sound.represented, ⟨ready, List.prefix_rfl, rfl, rfl⟩, sound.sizes⟩
  | beginTail idle ready =>
    exact ⟨sound.represented, ⟨ready, List.prefix_rfl, rfl, tail, held, served⟩, sound.sizes⟩
  | endTail loadedHead began loading =>
    rw [SizingAgrees, loading] at sizing
    obtain ⟨-, earlier, alone, rfl⟩ := sizing
    exact sound.finish served head tail earlier List.prefix_rfl alone
  | endHead loadedTail began loading =>
    rw [SizingAgrees, loading] at sizing
    obtain ⟨-, earlier, alone, loaded, heldThen, servedThen⟩ := sizing
    exact sound.finish servedThen (by rw [head, alone]) loaded List.prefix_rfl earlier alone

/-- In every interleaving of the consumer with a producer's thread that pushes and calls `size`,
from any counters and whichever counter a call loads first: what `size` returns is the number of
values pushed and not popped when the call loaded the tail, at most `Capacity`, and the queue
had no push between the beginning of the call and its return. -/
theorem size_counts {slots : Vector Value capacity.size}
    (reached : Transition.Reaches (step moved) Transition.Free (initial start slots) s) :
    ∀ answer ∈ s.sizes, answer.Meets capacity ∧ answer.returned <+: s.queue.answers := by
  have initially : (initial start slots).Sound start :=
    ⟨⟨[], SPSCQueue.represents_initial start slots⟩, trivial, fun answer none => by cases none⟩
  have sound : s.Sound start :=
    @Transition.Reaches.invariant _ _ (SizedQueue.step moved) _ _ (Sound start) initially
      (fun state action next held _ stepped => held.step stepped) _ reached
  exact sound.sizes

/-- Two pushes, and a call of `size` that loads the head before and the tail after a pop. -/
def overtakenActions : List (SizedAction Nat) :=
  [.queue (.tryPush 7), .queue .loadTail, .queue .writeSlot, .queue .storeHead,
    .queue (.tryPush 8), .queue .loadTail, .queue .writeSlot, .queue .storeHead,
    .sizeHead, .queue .tryPop, .queue .loadHead, .queue .readSlot, .queue .storeTail, .sizeTail]

theorem reaches_overtaken :
    ∃ s : SizedQueue Nat SPSCQueue.twoSlots, Transition.Reaches (step id) Transition.Free
      (initial (BitVec.allOnes 64) (#v[0, 0] : Vector Nat SPSCQueue.twoSlots.size)) s ∧
      s.sizes.map SizeAnswer.size = [1#64] := by
  have executed : ∃ s : SizedQueue Nat SPSCQueue.twoSlots,
      Transition.execute (step id) Transition.Free
      (initial (BitVec.allOnes 64) (#v[0, 0] : Vector Nat SPSCQueue.twoSlots.size))
      overtakenActions = some s ∧ s.sizes.map SizeAnswer.size = [1#64] :=
    ⟨_, rfl, rfl⟩
  obtain ⟨s, executed, sizes⟩ := executed
  exact ⟨s, Transition.Reaches.start.execute executed, sizes⟩

theorem size_counts_overtaken :
    ∃ s : SizedQueue Nat SPSCQueue.twoSlots, s.sizes.map SizeAnswer.size = [1#64] ∧
      ∀ answer ∈ s.sizes, answer.Meets SPSCQueue.twoSlots ∧
        answer.returned <+: s.queue.answers := by
  obtain ⟨s, reached, sizes⟩ := reaches_overtaken
  exact ⟨s, sizes, size_counts reached⟩

end SizedQueue

end Trading
