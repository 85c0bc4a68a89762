/-
This file puts the ring buffer between the two threads. `System` pushes, pops and measures its
queue in one step each; here every atomic access of `try_push`, `try_pop` and `size` is a step of
its own, between which the other threads go on. What a run leaves is still what the system leaves:
a call of the queue that succeeds takes effect with its last store, one that fails with the load
that fails, and the depth is that of the load of the tail. If this is the first load of `size`, the
depth is recorded a step too early for the system; but nothing the strategy thread does meanwhile
touches it.
-/

import TradingEngine.FeedCounters
import TradingEngine.OrderPath
import TradingEngine.QueueSize
import TradingEngine.StopReturns

namespace Trading

open RingBuffer Transition

/-! ### The depth and the strategy thread -/

namespace Runtime

/-- Record a depth of the queue. -/
def recordDepth (rt : Runtime) (depth : Nat) : Runtime :=
  { rt with
    metrics := { rt.metrics with queueDepth := rt.metrics.queueDepth.recordNs depth } }

variable (rt : Runtime) (depth : Nat)

theorem bookFill_recordDepth (order : NewOrder) (report : ExecutionReport) :
    (rt.recordDepth depth).bookFill order report =
      (rt.bookFill order report).recordDepth depth := by
  unfold bookFill
  split <;> rfl

theorem dispatchOrder_recordDepth (signal : Signal) (clock : EventClock) :
    (rt.recordDepth depth).dispatchOrder signal clock =
      (rt.dispatchOrder signal clock).recordDepth depth := by
  unfold dispatchOrder
  dsimp only
  by_cases tripped : rt.countSent.breaker.isTripped = true
  · rw [if_pos tripped]
    exact if_pos tripped
  · rw [if_neg tripped]
    refine (if_neg tripped).trans ?_
    by_cases refused : (!rt.countSent.risk.approve (rt.orderOf signal clock.signalDone)) = true
    · rw [if_pos refused]
      exact if_pos refused
    · rw [if_neg refused]
      exact (if_neg refused).trans (bookFill_recordDepth (rt.countSent.countApproved clock) depth
        (rt.orderOf signal clock.signalDone) (ExecutionEngine.simulate
          (rt.orderOf signal clock.signalDone) rt.book rt.cfg.tickSize clock.simulateNow))

theorem evaluate_recordDepth (clock : EventClock) (recvNs : Timestamp) :
    (rt.recordDepth depth).evaluate clock recvNs =
      (rt.evaluate clock recvNs).recordDepth depth := by
  rw [evaluate_eq, evaluate_eq]
  generalize decision : rt.strategy.onMarketUpdate rt.book clock.bookDone = decided
  have same : (rt.recordDepth depth).strategy.onMarketUpdate (rt.recordDepth depth).book
      clock.bookDone = decided := decision
  rw [same]
  dsimp only
  split
  · exact dispatchOrder_recordDepth
      ((rt.countBook clock).publishMarks.keepStrategy decided.2 clock recvNs).countSignal depth
      decided.1 clock
  · rfl

/-- Handling an event and recording the depth of the queue do not touch each other. -/
theorem processEvent_recordDepth (clock : EventClock) (ev : MarketEvent) :
    (rt.recordDepth depth).processEvent clock ev =
      (rt.processEvent clock ev).recordDepth depth := by
  unfold processEvent
  cases ev.kind with
  | snapshot =>
    exact evaluate_recordDepth (rt.countMessage.rebuildBook ev.snap) depth clock ev.recvNs
  | l2Update =>
    dsimp only
    by_cases unready : (!rt.bookReady) = true
    · rw [if_pos unready]
      exact if_pos unready
    · rw [if_neg unready]
      exact (if_neg unready).trans
        (evaluate_recordDepth (rt.countMessage.changeBook ev.l2) depth clock ev.recvNs)
  | heartbeat => rfl

end Runtime

/-! ### What a call of the queue leaves -/

namespace System

/-- The system with another queue. -/
def withQueue (s : System) (queue : List Entry) : System := { s with queue }

/-- A push succeeded. -/
def pushed (s : System) : System :=
  match s.network with
  | .pushing event _ rest => offer { s with accepted := s.accepted ++ [⟨s.connection, event⟩] } rest
  | _ => s

/-- A push found the queue full. -/
def refused (s : System) : System :=
  match s.network with
  | .pushing event retries rest =>
    if 0 < retries then { s with network := .pushing event (retries - 1) rest }
    else s.countDrop.offer rest
  | _ => s

/-- A pop returned an entry. -/
def popped (s : System) (entry : Entry) : System :=
  { s with strategy := .handling entry (decide (s.strategy = .draining)) }

/-- A pop found the queue empty. -/
def missed (s : System) : System :=
  { s with strategy := if s.strategy = .draining then .done else .head }

/-- The depth of the queue is known. -/
def measured (s : System) (depth : Nat) : System :=
  { s with rt := s.rt.recordDepth depth, network := .online }

variable {s : System}

theorem offer_withQueue (s : System) (events : List MarketEvent) (queue : List Entry) :
    (s.withQueue queue).offer events = (s.offer events).withQueue queue := by
  cases events with
  | nil => rfl
  | cons event rest => cases rest <;> rfl

theorem push_of_room {event : MarketEvent} {retries : Nat} {rest : List MarketEvent}
    (pushing : s.network = .pushing event retries rest) {queue : List Entry}
    (room : queue.length < queueCapacity) :
    (s.withQueue queue).step .push =
      some (s.pushed.withQueue (queue ++ [⟨s.connection, event⟩])) := by
  have there : (s.withQueue queue).network = .pushing event retries rest := pushing
  have accepted : s.pushed =
      offer { s with accepted := s.accepted ++ [⟨s.connection, event⟩] } rest := by
    unfold pushed
    split
    · rename_i other
      cases pushing.symm.trans other
      rfl
    · rename_i other
      exact absurd pushing (other _ _ _)
  have offered := offer_withQueue { s with accepted := s.accepted ++ [⟨s.connection, event⟩] } rest
    (queue ++ [⟨s.connection, event⟩])
  unfold step
  rw [there, accepted]
  exact congrArg some ((if_pos room).trans offered)

theorem push_of_full {event : MarketEvent} {retries : Nat} {rest : List MarketEvent}
    (pushing : s.network = .pushing event retries rest) {queue : List Entry}
    (full : queue.length = queueCapacity) :
    (s.withQueue queue).step .push = some (s.refused.withQueue queue) := by
  have there : (s.withQueue queue).network = .pushing event retries rest := pushing
  unfold step refused
  rw [there, pushing]
  refine congrArg some ((if_neg (not_lt.mpr (ge_of_eq full))).trans ?_)
  dsimp only
  split
  · rfl
  · exact offer_withQueue s.countDrop rest queue

theorem pop_of_nil (popping : s.strategy = .popping ∨ s.strategy = .draining) :
    (s.withQueue []).step .pop = some (s.missed.withQueue []) := by
  unfold step missed withQueue
  rcases popping with loop | drain
  · rw [loop]
    rfl
  · rw [drain]
    rfl

theorem pop_of_cons (popping : s.strategy = .popping ∨ s.strategy = .draining) (entry : Entry)
    (queue : List Entry) :
    (s.withQueue (entry :: queue)).step .pop = some ((s.popped entry).withQueue queue) := by
  unfold step popped withQueue
  rcases popping with loop | drain
  · rw [loop]
    rfl
  · rw [drain]
    rfl

theorem measure_withQueue (measuring : s.network = .measuring) (queue : List Entry) :
    (s.withQueue queue).step .measure = some ((s.measured queue.length).withQueue queue) :=
  if_pos measuring

end System

/-- A step that makes no call of the queue. -/
def Action.OutsideQueue : Action → Prop
  | .push | .pop | .measure => False
  | _ => True

instance : (action : Action) → Decidable action.OutsideQueue
  | .push | .pop | .measure => .isFalse id
  | .dial | .connect | .connectFailed | .testWsRunning | .readTimeout | .parseError | .disconnect
  | .receive _ _ _ | .testRunning | .exchange | .handle _ | .stop | .joinNetwork | .clearRunning
  | .joinStrategy => .isTrue trivial

namespace System

variable {s after : System}

theorem receive_withQueue (s : System) (queue : List Entry) (msg : CoinbaseMessage)
    (recvTs parseDone : Timestamp) :
    (s.withQueue queue).receive msg recvTs parseDone =
      (s.receive msg recvTs parseDone).withQueue queue := by
  unfold receive
  dsimp only
  generalize found : msg.events s.rt.cfg.tickSize recvTs = events
  have same : msg.events (s.withQueue queue).rt.cfg.tickSize recvTs = events := found
  rw [same]
  cases events with
  | nil => rfl
  | cons event rest =>
    exact offer_withQueue
      ({ s with received := s.received ++ [(msg, recvTs)] }.countWire msg.type recvTs parseDone)
      (event :: rest) queue

/-- The other steps do not look at the queue. -/
theorem step_withQueue {action : Action} (outside : action.OutsideQueue)
    (stepped : s.step action = some after) (queue : List Entry) :
    (s.withQueue queue).step action = some (after.withQueue queue) := by
  cases moves_of_step stepped with
  | push | pop | drain | measure => exact outside.elim
  | dial there | connectFailed there | testWsRunning there | readTimeout there
  | parseError there | disconnect there | testRunning there | stop there | clearRunning there =>
    exact if_pos there
  | connect there =>
    refine (if_pos there).trans (congrArg some ?_)
    unfold connect withQueue
    dsimp only
    split <;> rfl
  | receive msg recvTs parseDone there =>
    exact (if_pos there).trans (congrArg some (receive_withQueue s queue msg recvTs parseDone))
  | exchange there =>
    refine (if_pos there).trans (congrArg some ?_)
    unfold exchange withQueue
    dsimp only
    split <;> rfl
  | handle entry drained clock there =>
    unfold step withQueue
    rw [there]
    rfl
  | joinNetwork joining exited => exact if_pos ⟨joining, exited⟩
  | joinStrategy joining done => exact if_pos ⟨joining, done⟩

theorem pop_measured (s : System) (depth : Nat) (drained : Bool) :
    (s.measured depth).pop drained = (s.pop drained).measured depth := by
  unfold pop measured
  dsimp only
  split <;> rfl

/-- While the depth is measured, the other threads do not notice. -/
theorem step_measured {action : Action} (measuring : s.network = .measuring)
    (other : action ≠ .measure) (stepped : s.step action = some after) (depth : Nat) :
    (s.measured depth).step action = some (after.measured depth) := by
  have elsewhere : ∀ {network : NetworkThread}, s.network = network → network ≠ .measuring →
      (s.measured depth).step action = some (after.measured depth) :=
    fun there apart => absurd (there.symm.trans measuring) apart
  cases moves_of_step stepped with
  | measure => exact absurd rfl other
  | dial there | connect there | connectFailed there | testWsRunning there | readTimeout there
  | parseError there | receive _ _ _ there | push _ _ _ there | joinNetwork _ there =>
    exact elsewhere there nofun
  | disconnect connected =>
    rcases connected with there | there
    · exact elsewhere there nofun
    · exact elsewhere there nofun
  | testRunning there | stop there | clearRunning there => exact if_pos there
  | joinStrategy joining done => exact if_pos ⟨joining, done⟩
  | exchange there =>
    refine (if_pos there).trans (congrArg some ?_)
    unfold exchange measured
    dsimp only
    split <;> rfl
  | pop there =>
    unfold step measured
    rw [there]
    exact congrArg some (pop_measured s depth false)
  | drain there =>
    unfold step measured
    rw [there]
    exact congrArg some (pop_measured s depth true)
  | handle entry drained clock there =>
    unfold step measured
    rw [there]
    refine congrArg some ?_
    unfold handle
    dsimp only
    rw [Runtime.processEvent_recordDepth]

/-- Outside the queue, a network thread with a message at hand makes no step. -/
theorem network_of_outside {action : Action} (outside : action.OutsideQueue)
    (busy : s.network.unmeasured ≠ 0) (stepped : s.step action = some after) :
    after.network = s.network ∧ after.connection = s.connection := by
  have elsewhere : ∀ {network : NetworkThread} {P : Prop}, s.network = network →
      network.unmeasured = 0 → P :=
    fun there idle => absurd ((congrArg NetworkThread.unmeasured there).trans idle) busy
  cases moves_of_step stepped with
  | push | pop | drain | measure => exact outside.elim
  | dial there | connect there | connectFailed there | testWsRunning there | readTimeout there
  | parseError there | receive _ _ _ there => exact elsewhere there rfl
  | disconnect connected =>
    rcases connected with there | there
    · exact elsewhere there rfl
    · exact elsewhere there rfl
  | exchange there =>
    unfold exchange
    split <;> exact ⟨rfl, rfl⟩
  | testRunning | handle | stop | joinNetwork | clearRunning | joinStrategy => exact ⟨rfl, rfl⟩

/-- Outside the queue, a strategy thread about to pop makes no step. -/
theorem strategy_of_outside {action : Action} (outside : action.OutsideQueue)
    (popping : s.strategy = .popping ∨ s.strategy = .draining)
    (stepped : s.step action = some after) : after.strategy = s.strategy := by
  have elsewhere : ∀ {strategy : StrategyThread}, s.strategy = strategy →
      strategy ≠ .popping → strategy ≠ .draining → after.strategy = s.strategy := by
    rintro strategy rfl loop drain
    exact absurd popping (not_or.mpr ⟨loop, drain⟩)
  cases moves_of_step stepped with
  | push | pop | drain | measure => exact outside.elim
  | connect => exact (connect_keepsOthers s).strategy
  | receive msg recvTs parseDone => exact (receive_keepsOthers s msg recvTs parseDone).strategy
  | testRunning there | exchange there | handle _ _ _ there => exact elsewhere there nofun nofun
  | dial | connectFailed | testWsRunning | readTimeout | parseError | disconnect | stop
  | joinNetwork | clearRunning | joinStrategy => rfl

theorem pushed_strategy (s : System) : s.pushed.strategy = s.strategy := by
  unfold pushed
  split
  · exact (offer_keepsOthers _ _).strategy
  · rfl

theorem refused_strategy (s : System) : s.refused.strategy = s.strategy := by
  unfold refused
  split
  · split
    · rfl
    · exact (offer_keepsOthers _ _).strategy
  · rfl

end System

/-! ### The threads over the ring buffer -/

/-- The threads, with the ring buffer in place of the queue of `system`, which stays empty. -/
structure RingedSystem where
  system : System
  ring : SizedQueue Entry eventQueueCapacity

/-- A step outside the queue, the begin of a push, or an access to the ring buffer. -/
inductive RingedAction where
  | thread (action : Action)
  | tryPush
  | access (action : SizedAction Entry)

/-- The value of the push at hand. -/
def Producer.value? {Value : Type} : Producer Value → Option Value
  | .ready => none
  | .loadingTail value _ | .writing value _ | .storing value _ => some value

namespace SPSCQueue

variable {Value : Type} {capacity : QueueCapacity}

/-- The load of the tail finds no room. -/
def refuses (q : SPSCQueue Value capacity) : Bool :=
  match q.producer with
  | .loadingTail _ head => capacity.size ≤ (head - q.tail).toNat
  | _ => false

/-- The load of the head finds nothing. -/
def misses (q : SPSCQueue Value capacity) : Bool :=
  match q.consumer with
  | .loadingHead tail => tail = q.head
  | _ => false

end SPSCQueue

namespace RingedSystem

/-- A system that has not started, over a fresh ring. -/
def initial (cfg : RuntimeConfig) (start : BitVec 64)
    (slots : Vector Entry eventQueueCapacity.size) : RingedSystem :=
  ⟨System.initial cfg, SizedQueue.initial start slots⟩

/-- The thread that makes an access stands in the call; a push is begun by its own step. -/
def admits (s : RingedSystem) : SizedAction Entry → Bool
  | .queue (.tryPush _) => false
  | .queue .tryPop => s.system.strategy = .popping ∨ s.system.strategy = .draining
  | .queue _ => true
  | .sizeHead | .sizeTail => s.system.network = .measuring

/-- What its thread makes of an access that ends a call. -/
def answer (s : RingedSystem) : SizedAction Entry → System
  | .queue .loadTail => if s.ring.queue.refuses then s.system.refused else s.system
  | .queue .storeHead => s.system.pushed
  | .queue .loadHead => if s.ring.queue.misses then s.system.missed else s.system
  | .queue .storeTail => match s.ring.queue.consumer with
      | .storing entry _ => s.system.popped entry
      | _ => s.system
  | .queue _ => s.system
  | .sizeHead => match s.ring.sizing with
      | .loadingHead tail _ => s.system.measured (s.ring.queue.head - tail).toNat
      | _ => s.system
  | .sizeTail => match s.ring.sizing with
      | .loadingTail head _ => s.system.measured (head - s.ring.queue.tail).toNat
      | _ => s.system

/-- One step: outside the queue as in the system, at the queue one access to the ring. -/
def step (moved : Entry → Entry) (s : RingedSystem) : RingedAction → Option RingedSystem
  | .thread action => if action.OutsideQueue then
      (s.system.step action).map fun system => { s with system } else none
  | .tryPush => match s.system.network with
      | .pushing event _ _ =>
        (s.ring.step moved (.queue (.tryPush ⟨s.system.connection, event⟩))).map
          fun ring => { s with ring }
      | _ => none
  | .access action => if s.admits action then
      (s.ring.step moved action).map fun ring => ⟨s.answer action, ring⟩ else none

/-- The steps, each with where its thread stands and what it leaves. -/
inductive Moves (moved : Entry → Entry) (s : RingedSystem) :
    RingedAction → RingedSystem → Prop where
  | thread (action : Action) (system : System) (outside : action.OutsideQueue)
      (stepped : s.system.step action = some system) :
      Moves moved s (.thread action) { s with system }
  | tryPush (event : MarketEvent) (retries : Nat) (rest : List MarketEvent)
      (ring : SizedQueue Entry eventQueueCapacity)
      (pushing : s.system.network = .pushing event retries rest)
      (stepped : s.ring.step moved (.queue (.tryPush ⟨s.system.connection, event⟩)) = some ring) :
      Moves moved s .tryPush { s with ring }
  | access (action : SizedAction Entry) (ring : SizedQueue Entry eventQueueCapacity)
      (admitted : s.admits action = true) (stepped : s.ring.step moved action = some ring) :
      Moves moved s (.access action) ⟨s.answer action, ring⟩

variable {moved : Entry → Entry} {start : BitVec 64} {s after : RingedSystem}

theorem moves_of_step {action : RingedAction} (stepped : s.step moved action = some after) :
    s.Moves moved action after := by
  unfold step at stepped
  cases action with
  | thread action =>
    simp only [Option.ite_none_right_eq_some] at stepped
    obtain ⟨outside, stepped⟩ := stepped
    obtain ⟨system, made, rfl⟩ := Option.map_eq_some_iff.mp stepped
    exact .thread action system outside made
  | tryPush =>
    dsimp only at stepped
    split at stepped
    · rename_i event retries rest pushing
      obtain ⟨ring, made, rfl⟩ := Option.map_eq_some_iff.mp stepped
      exact .tryPush event retries rest ring pushing made
    · cases stepped
  | access action =>
    simp only [Option.ite_none_right_eq_some] at stepped
    obtain ⟨admitted, stepped⟩ := stepped
    obtain ⟨ring, made, rfl⟩ := Option.map_eq_some_iff.mp stepped
    exact .access action ring admitted made

/-! ### The system it stands for -/

/-- What a history of answers leaves on the queue. -/
def heldAfter (history : List (Answer Entry)) : List Entry :=
  (pushes history).drop (pops history).length

theorem heldAfter_of_served {bound : Nat} {history : List (Answer Entry)} {held : List Entry}
    (served : Served bound history held) : heldAfter history = held := by
  rw [heldAfter, served.pushes_eq, List.drop_left]

/-- The system with the queue the ring buffer stands for; while `size` still has the head to load,
the depth is recorded already. -/
def view (s : RingedSystem) : System :=
  match s.ring.sizing with
  | .loadingHead _ began =>
    (s.system.withQueue (heldAfter s.ring.queue.answers)).measured (heldAfter began).length
  | _ => s.system.withQueue (heldAfter s.ring.queue.answers)

/-- The threads stand where their calls of the queue are. -/
structure Linked (start : BitVec 64) (s : RingedSystem) : Prop where
  sound : s.ring.Sound start
  offering : ∀ entry, s.ring.queue.producer.value? = some entry →
    ∃ event retries rest, s.system.network = .pushing event retries rest ∧
      entry = ⟨s.system.connection, event⟩
  popping : s.ring.queue.consumer ≠ .ready →
    s.system.strategy = .popping ∨ s.system.strategy = .draining
  sizing : s.ring.sizing ≠ .idle → s.system.network = .measuring

theorem initial_linked (cfg : RuntimeConfig) (start : BitVec 64)
    (slots : Vector Entry eventQueueCapacity.size) : (initial cfg start slots).Linked start where
  sound := ⟨⟨[], SPSCQueue.represents_initial start slots⟩, trivial,
    fun answer none => by cases none⟩
  offering := fun entry none => by cases none
  popping := fun called => absurd rfl called
  sizing := fun called => absurd rfl called

/-! ### Every access is a step of the system or changes nothing it knows of -/

/-- A step of the system is one of the view, also while the depth is recorded already. -/
theorem view_step (linked : s.Linked start) {action : Action} (other : action ≠ .measure)
    (sizing : after.ring.sizing = s.ring.sizing)
    (made : (s.system.withQueue (heldAfter s.ring.queue.answers)).step action =
      some (after.system.withQueue (heldAfter after.ring.queue.answers))) :
    s.view.step action = some after.view := by
  unfold view
  rw [sizing]
  split
  · rename_i tail began loading
    have measuring : (s.system.withQueue (heldAfter s.ring.queue.answers)).network = .measuring :=
      linked.sizing (by rw [loading]; exact nofun)
    exact System.step_measured measuring other made _
  · exact made

theorem queue_view (linked : s.Linked start) {action : QueueAction Entry}
    {queue : SPSCQueue Entry eventQueueCapacity} (admitted : s.admits (.queue action) = true)
    (accessed : s.ring.queue.step moved action = some queue) :
    view ⟨s.answer (.queue action), { s.ring with queue }⟩ = s.view ∨
      ∃ taken, s.view.step taken =
        some (view ⟨s.answer (.queue action), { s.ring with queue }⟩) := by
  obtain ⟨held, represents⟩ := linked.sound.represented
  have before := heldAfter_of_served represents.served
  cases SPSCQueue.moves_of_step accessed with
  | tryPush value ready => cases admitted
  | loadTail value head loading =>
    obtain ⟨event, retries, rest, pushing, -⟩ :=
      linked.offering value (by rw [loading]; rfl)
    by_cases full : eventQueueCapacity.size ≤ (head - s.ring.queue.tail).toNat
    · right
      have refuses : s.ring.queue.refuses = true := by
        rw [SPSCQueue.refuses, loading]
        exact decide_eq_true full
      have after := heldAfter_of_served (represents.loadTail value head loading).served
      refine ⟨.push, view_step linked (by simp) rfl ?_⟩
      rw [before, answer, if_pos refuses, after]
      refine System.push_of_full pushing ?_
      cases represents.serves_refused loading full with
      | refused _ length => exact length
    · left
      have admits : ¬s.ring.queue.refuses = true := by
        rw [SPSCQueue.refuses, loading]
        exact fun refused => full (of_decide_eq_true refused)
      rw [answer, if_neg admits, SPSCQueue.loadTail, if_neg full]
      rfl
  | writeSlot | tryPop | readSlot => exact Or.inl rfl
  | storeHead value head storing =>
    right
    obtain ⟨event, retries, rest, pushing, rfl⟩ :=
      linked.offering value (by rw [storing]; rfl)
    have agrees := represents.producer
    rw [SPSCQueue.ProducerAgrees, storing] at agrees
    have after := heldAfter_of_served (represents.storeHead _ head storing).served
    refine ⟨.push, view_step linked (by simp) rfl ?_⟩
    rw [before, answer, after]
    exact System.push_of_room pushing agrees.2.1
  | loadHead tail loading =>
    have popping := linked.popping (by simp [loading])
    by_cases empty : tail = s.ring.queue.head
    · right
      have misses : s.ring.queue.misses = true := by
        rw [SPSCQueue.misses, loading]
        exact decide_eq_true empty
      have after := heldAfter_of_served (represents.loadHead tail loading).served
      refine ⟨.pop, view_step linked (by simp) rfl ?_⟩
      rw [before, answer, if_pos misses, after]
      cases represents.serves_missed loading empty with
      | missed => exact System.pop_of_nil popping
    · left
      have finds : ¬s.ring.queue.misses = true := by
        rw [SPSCQueue.misses, loading]
        exact fun missed => empty (of_decide_eq_true missed)
      rw [answer, if_neg finds, SPSCQueue.loadHead, if_neg empty]
      rfl
  | storeTail value tail storing =>
    right
    have popping := linked.popping (by simp [storing])
    have after := heldAfter_of_served (represents.storeTail value tail storing).served
    have popped : s.answer (.queue .storeTail) = s.system.popped value := by
      rw [answer, storing]
    refine ⟨.pop, view_step linked (by simp) rfl ?_⟩
    rw [before, popped, after, represents.held_eq_cons storing]
    exact System.pop_of_cons popping value held.tail

theorem step_view (linked : s.Linked start) {action : RingedAction}
    (stepped : s.step moved action = some after) :
    after.view = s.view ∨ ∃ taken, s.view.step taken = some after.view := by
  cases moves_of_step stepped with
  | thread action system outside made =>
    refine Or.inr ⟨action, view_step linked ?_ rfl (System.step_withQueue outside made _)⟩
    rintro rfl
    exact outside
  | tryPush event retries rest ring pushing made =>
    cases SizedQueue.moves_of_step made with
    | queue _ queue free accessed =>
      cases SPSCQueue.moves_of_step accessed with
      | tryPush => exact Or.inl rfl
  | access action ring admitted made =>
    have sizing := linked.sound.sizing
    obtain ⟨held, represents⟩ := linked.sound.represented
    have before := heldAfter_of_served represents.served
    cases SizedQueue.moves_of_step made with
    | queue action queue free accessed => exact queue_view linked admitted accessed
    | beginHead idle ready =>
      left
      simp only [view, answer, idle]
    | beginTail idle ready =>
      refine Or.inr ⟨.measure, ?_⟩
      have measuring : s.system.network = .measuring := of_decide_eq_true admitted
      have viewed : s.view = s.system.withQueue (heldAfter s.ring.queue.answers) := by
        simp only [view, idle]
      rw [viewed, System.measure_withQueue measuring]
      simp only [view, answer, idle]
      rfl
    | endTail head began loading =>
      refine Or.inr ⟨.measure, ?_⟩
      have measuring : s.system.network = .measuring := of_decide_eq_true admitted
      have viewed : s.view = s.system.withQueue (heldAfter s.ring.queue.answers) := by
        simp only [view, loading]
      rw [SizedQueue.SizingAgrees, loading] at sizing
      obtain ⟨-, -, -, rfl⟩ := sizing
      rw [viewed, System.measure_withQueue measuring]
      simp only [view, answer, loading, SizedQueue.finish]
      rw [represents.toNat_head_sub_tail, before]
    | endHead tail began loading =>
      left
      rw [SizedQueue.SizingAgrees, loading] at sizing
      obtain ⟨-, -, alone, rfl, heldThen, served⟩ := sizing
      have head : s.ring.queue.head = advance start (pushes began).length := by
        rw [represents.head, ← alone, represents.served.length_pushes]
        rfl
      simp only [view, answer, loading, SizedQueue.finish]
      rw [head, SizedQueue.toNat_counters served, heldAfter_of_served served]
      rfl

/-! ### The threads stay where their calls are -/

/-- A producer that offers a value is not in `size`. -/
theorem Linked.idle (linked : s.Linked start) {entry : Entry}
    (offered : s.ring.queue.producer.value? = some entry) : s.ring.sizing = .idle := by
  by_contra called
  obtain ⟨event, retries, rest, pushing, -⟩ := linked.offering entry offered
  cases (linked.sizing called).symm.trans pushing

theorem Linked.thread (linked : s.Linked start) {action : Action} {system : System}
    (outside : action.OutsideQueue) (stepped : s.system.step action = some system) :
    Linked start { s with system } := by
  refine ⟨linked.sound, fun entry offered => ?_, fun called => ?_, fun called => ?_⟩
  · obtain ⟨event, retries, rest, pushing, same⟩ := linked.offering entry offered
    obtain ⟨network, connection⟩ := System.network_of_outside outside
      (by rw [pushing]; exact Nat.one_ne_zero) stepped
    exact ⟨event, retries, rest, network.trans pushing, connection ▸ same⟩
  · have popping := linked.popping called
    rw [show ({ s with system } : RingedSystem).system.strategy = s.system.strategy from
      System.strategy_of_outside outside popping stepped]
    exact popping
  · have measuring := linked.sizing called
    exact (System.network_of_outside outside (by rw [measuring]; exact Nat.one_ne_zero)
      stepped).1.trans measuring

theorem Linked.queue (linked : s.Linked start) {action : QueueAction Entry}
    {queue : SPSCQueue Entry eventQueueCapacity} (admitted : s.admits (.queue action) = true)
    (sound : SizedQueue.Sound start { s.ring with queue })
    (accessed : s.ring.queue.step moved action = some queue) :
    Linked start ⟨s.answer (.queue action), { s.ring with queue }⟩ := by
  cases SPSCQueue.moves_of_step accessed with
  | tryPush value ready => cases admitted
  | loadTail value head loading =>
    have offered : s.ring.queue.producer.value? = some value := by rw [loading]; rfl
    have idle := linked.idle offered
    unfold answer SPSCQueue.refuses
    rw [loading]
    dsimp only
    unfold SPSCQueue.loadTail at sound ⊢
    by_cases full : eventQueueCapacity.size ≤ (head - s.ring.queue.tail).toNat
    · rw [if_pos full] at sound ⊢
      rw [if_pos (decide_eq_true full)]
      refine ⟨sound, nofun, fun called => ?_, fun called => absurd idle called⟩
      exact (System.refused_strategy s.system).symm ▸ linked.popping called
    · rw [if_neg full] at sound ⊢
      rw [if_neg fun refuses => full (of_decide_eq_true refuses)]
      refine ⟨sound, fun entry same => ?_, linked.popping, linked.sizing⟩
      exact linked.offering entry (offered.trans same)
  | writeSlot value head writing =>
    have offered : s.ring.queue.producer.value? = some value := by rw [writing]; rfl
    exact ⟨sound, fun entry same => linked.offering entry (offered.trans same), linked.popping,
      linked.sizing⟩
  | storeHead value head storing =>
    have offered : s.ring.queue.producer.value? = some value := by rw [storing]; rfl
    have idle := linked.idle offered
    refine ⟨sound, nofun, fun called => ?_, fun called => absurd idle called⟩
    exact (System.pushed_strategy s.system).symm ▸ linked.popping called
  | tryPop =>
    exact ⟨sound, linked.offering, fun _ => of_decide_eq_true admitted, linked.sizing⟩
  | loadHead tail loading =>
    have popping := linked.popping (by rw [loading]; exact nofun)
    unfold answer SPSCQueue.misses
    rw [loading]
    dsimp only
    unfold SPSCQueue.loadHead at sound ⊢
    by_cases empty : tail = s.ring.queue.head
    · rw [if_pos empty] at sound ⊢
      rw [if_pos (decide_eq_true empty)]
      exact ⟨sound, linked.offering, fun called => absurd rfl called, linked.sizing⟩
    · rw [if_neg empty] at sound ⊢
      rw [if_neg fun misses => empty (of_decide_eq_true misses)]
      exact ⟨sound, linked.offering, fun _ => popping, linked.sizing⟩
  | readSlot tail reading =>
    exact ⟨sound, linked.offering, fun _ => linked.popping (by rw [reading]; exact nofun),
      linked.sizing⟩
  | storeTail value tail storing =>
    unfold answer
    rw [storing]
    exact ⟨sound, linked.offering, fun called => absurd rfl called, linked.sizing⟩

theorem Linked.size (linked : s.Linked start) (measuring : s.system.network = .measuring)
    {ring : SizedQueue Entry eventQueueCapacity} (sound : ring.Sound start)
    (queue : ring.queue = s.ring.queue) {system : System}
    (strategy : system.strategy = s.system.strategy)
    (network : ring.sizing ≠ .idle → system.network = .measuring) :
    Linked start ⟨system, ring⟩ := by
  refine ⟨sound, fun entry offered => ?_, fun called => ?_, network⟩
  · rw [queue] at offered
    obtain ⟨event, retries, rest, pushing, -⟩ := linked.offering entry offered
    cases measuring.symm.trans pushing
  · rw [queue] at called
    rw [strategy]
    exact linked.popping called

theorem Linked.step (linked : s.Linked start) {action : RingedAction}
    (stepped : s.step moved action = some after) : after.Linked start := by
  cases moves_of_step stepped with
  | thread action system outside made => exact linked.thread outside made
  | tryPush event retries rest ring pushing made =>
    have sound := linked.sound.step made
    cases SizedQueue.moves_of_step made with
    | queue _ queue free accessed =>
      have idle := free _ rfl
      cases SPSCQueue.moves_of_step accessed with
      | tryPush value ready =>
        refine ⟨sound, fun entry same => ?_, linked.popping, linked.sizing⟩
        obtain rfl := Option.some.inj same
        exact ⟨event, retries, rest, pushing, rfl⟩
  | access action ring admitted made =>
    have sound := linked.sound.step made
    cases SizedQueue.moves_of_step made with
    | queue action queue free accessed => exact linked.queue admitted sound accessed
    | beginHead idle ready =>
      have measuring : s.system.network = .measuring := of_decide_eq_true admitted
      unfold answer
      rw [idle]
      exact linked.size measuring sound rfl rfl fun _ => measuring
    | beginTail idle ready =>
      have measuring : s.system.network = .measuring := of_decide_eq_true admitted
      unfold answer
      rw [idle]
      exact linked.size measuring sound rfl rfl fun _ => measuring
    | endTail head began loading =>
      have measuring : s.system.network = .measuring := of_decide_eq_true admitted
      unfold answer
      rw [loading]
      exact linked.size measuring sound rfl rfl fun called => absurd rfl called
    | endHead tail began loading =>
      have measuring : s.system.network = .measuring := of_decide_eq_true admitted
      unfold answer
      rw [loading]
      exact linked.size measuring sound rfl rfl fun called => absurd rfl called

/-- Refinement: whatever the threads do over the ring buffer, access by access and from any
counters, slots and leavings of a move, they do over a queue that pushes, pops and measures in one
step. -/
theorem reaches_atomicQueue (moved : Entry → Entry) (cfg : RuntimeConfig) (start : BitVec 64)
    (slots : Vector Entry eventQueueCapacity.size) (s : RingedSystem)
    (reached : Reaches (step moved) Free (initial cfg start slots) s) :
    Reaches System.step Free (System.initial cfg) s.view :=
  reached.simulate (Linked start) (initial_linked cfg start slots)
    (fun _ _ _ linked stepped => linked.step stepped)
    (fun _ _ _ linked stepped => step_view linked stepped)

/-- One event is pushed and popped while the depth of the queue is measured. -/
def poppedMeanwhile : List RingedAction :=
  [.thread .dial, .thread .connect, .thread .testWsRunning,
    .thread (.receive ⟨.heartbeat, [], [], []⟩ 1 1), .tryPush, .access (.queue .loadTail),
    .access (.queue .writeSlot), .access (.queue .storeHead), .thread .testRunning,
    .thread .exchange, .access .sizeTail, .access (.queue .tryPop), .access (.queue .loadHead),
    .access (.queue .readSlot), .access (.queue .storeTail), .access .sizeHead]

theorem reaches_atomicQueue_poppedMeanwhile :
    ∃ s : RingedSystem, s.view.queue = [] ∧ s.view.accepted.length = 1 ∧
      s.view.rt.metrics.queueDepth.max = 1 ∧
      Reaches System.step Free (System.initial {}) s.view := by
  have executed : ∃ s, execute (step id) Free (initial {} (BitVec.allOnes 64)
      (Vector.replicate _ ⟨0, .empty⟩)) poppedMeanwhile = some s ∧ s.view.queue = [] ∧
      s.view.accepted.length = 1 ∧ s.view.rt.metrics.queueDepth.max = 1 :=
    ⟨_, rfl, rfl, rfl, rfl⟩
  obtain ⟨s, executed, empty, accepted, depth⟩ := executed
  exact ⟨s, empty, accepted, depth,
    reaches_atomicQueue id {} _ _ s (Reaches.start.execute executed)⟩

end RingedSystem

end Trading
