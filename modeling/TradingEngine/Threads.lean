/-
This file puts the runtime's threads together: the network thread that receives
messages and pushes their events, the strategy thread that pops and handles them, and
a caller of `Runtime::stop`. Each access to what the threads share (the queue and the
flags) is one step, and a run is any interleaving of steps.

Five fields are no state of the program: `connection` numbers the connections made so
far, an entry of the queue carries the number of the connection it was pushed on, and
`received`, `accepted`, `handled` and `rebuiltFrom` record the messages received, the
events the queue took, the events handled and the connection of the last snapshot the
book was rebuilt from.
-/

import TradingEngine.Feed
import TradingEngine.Lib.Transition
import TradingEngine.RuntimeBook

namespace Trading

/-- The number of slots of the queue between the two threads. -/
def queueCapacity : Nat := 4096

/-- The pushes of a snapshot that follow a failed first one. -/
def snapshotRetries : Nat := 200

/-- An event on the queue, with the connection it was pushed on. -/
structure Entry where
  connection : Nat
  event : MarketEvent
deriving DecidableEq

/-- Where the network thread stands. -/
inductive NetworkThread where
  /-- at the head of the connection loop -/
  | offline
  /-- connecting -/
  | dialing
  /-- at the head of the read loop -/
  | online
  /-- in a read -/
  | reading
  /-- about to push an event, with so many retries left and the later chunks of its message -/
  | pushing (event : MarketEvent) (retries : Nat) (rest : List MarketEvent)
  /-- about to record the depth of the queue -/
  | measuring
  | exited
deriving DecidableEq

/-- Where the strategy thread stands. -/
inductive StrategyThread where
  /-- between two iterations, about to test `running` -/
  | head
  /-- about to exchange `bookInvalidate` -/
  | exchanging
  /-- about to pop -/
  | popping
  /-- holding an event, in the loop or, after it, in the drain -/
  | handling (entry : Entry) (drained : Bool)
  /-- about to pop in the drain -/
  | draining
  | done
deriving DecidableEq

/-- Where the caller of `stop` stands. -/
inductive Caller where
  | running
  | joiningNetwork
  | clearing
  | joiningStrategy
  | returned
deriving DecidableEq

/-- The runtime, the queue and the flags, where each thread stands, and what has happened so far. -/
structure System where
  rt : Runtime
  queue : List Entry
  running : Bool
  wsRunning : Bool
  bookInvalidate : Bool
  network : NetworkThread
  strategy : StrategyThread
  caller : Caller
  connection : Nat
  received : List (CoinbaseMessage × Timestamp)
  accepted : List Entry
  handled : List Entry
  rebuiltFrom : Option Nat
deriving DecidableEq

/-- One step of one thread, with what it reads from outside. -/
inductive Action where
  | dial
  | connect
  | connectFailed
  | testWsRunning
  | readTimeout
  | parseError
  | disconnect
  | receive (msg : CoinbaseMessage) (recvTs parseDone : Timestamp)
  | push
  | measure
  | testRunning
  | exchange
  | pop
  | handle (clock : EventClock)
  | stop
  | joinNetwork
  | clearRunning
  | joinStrategy
deriving DecidableEq

namespace System

variable [DoubleDivision]

/-- The state after `start`. -/
def initial (cfg : RuntimeConfig) : System where
  rt := Runtime.create cfg
  queue := []
  running := true
  wsRunning := true
  bookInvalidate := false
  network := .offline
  strategy := .head
  caller := .running
  connection := 0
  received := []
  accepted := []
  handled := []
  rebuiltFrom := none

/-- Update the metrics and nothing else. -/
def setMetrics (s : System) (update : Metrics → Metrics) : System :=
  { s with rt := { s.rt with metrics := update s.rt.metrics } }

/-! ### The network thread -/

/-- The reconnect callback. -/
def onReconnect (s : System) : System :=
  { s.setMetrics fun metrics => { metrics with reconnects := metrics.reconnects + 1 } with
    bookInvalidate := true }

/-- A new connection; all but the first one run the reconnect callback. -/
def connect (s : System) : System :=
  let connected := { s with network := .online, connection := s.connection + 1 }
  if 0 < s.connection then connected.onReconnect else connected

/-- The parse error callback. -/
def onParseError (s : System) : System :=
  s.setMetrics fun metrics => { metrics with parseErrors := metrics.parseErrors + 1 }

/-- Count a message that was received. -/
def countMsg (s : System) : System :=
  s.setMetrics fun metrics => { metrics with msgsReceived := metrics.msgsReceived + 1 }

/-- Count a message of a type and record how long its parse took. -/
def countWire (s : System) (type : CoinbaseMsgType) (recvTs parseDone : Timestamp) : System :=
  s.setMetrics fun metrics =>
    { metrics with
      wireToParse := metrics.wireToParse.recordNs (parseDone - recvTs)
      heartbeatsRecv := if type = .heartbeat then metrics.heartbeatsRecv + 1
        else metrics.heartbeatsRecv }

/-- Turn to the next event of a message; a message counts as received before its last push. -/
def offer (s : System) : List MarketEvent → System
  | [] => { s with network := .measuring }
  | event :: rest =>
    { if rest = [] then s.countMsg else s with
      network := .pushing event (if event.kind = .snapshot then snapshotRetries else 0) rest }

/-- `onCoinbaseMessage` up to its first push. A message without events is only counted. -/
def receive (s : System) (msg : CoinbaseMessage) (recvTs parseDone : Timestamp) : System :=
  let counted := { s with received := s.received ++ [(msg, recvTs)] }.countWire msg.type recvTs
    parseDone
  match msg.events s.rt.cfg.tickSize recvTs with
  | [] => { counted.countMsg with network := .online }
  | events => counted.offer events

/-- Count an event lost to a full queue. -/
def countDrop (s : System) : System :=
  s.setMetrics fun metrics => { metrics with queueFullDrops := metrics.queueFullDrops + 1 }

/-- One `try_push`. A snapshot is retried; any other event that finds the queue full is
counted and lost. -/
def push (s : System) (event : MarketEvent) (retries : Nat) (rest : List MarketEvent) : System :=
  if s.queue.length < queueCapacity then
    let entry : Entry := ⟨s.connection, event⟩
    offer { s with queue := s.queue ++ [entry], accepted := s.accepted ++ [entry] } rest
  else if 0 < retries then { s with network := .pushing event (retries - 1) rest }
  else s.countDrop.offer rest

/-- Record how deep the queue is, when a message has been pushed. -/
def measure (s : System) : System :=
  { s.setMetrics fun metrics =>
      { metrics with queueDepth := metrics.queueDepth.recordNs s.queue.length } with
    network := .online }

/-! ### The strategy thread -/

/-- Take the invalidation, if there is one, and reset what depends on the connection. -/
def exchange (s : System) : System :=
  if s.bookInvalidate then
    { s with
      bookInvalidate := false
      rt := { s.rt with bookReady := false, strategy := s.rt.strategy.onReconnect }
      strategy := .popping }
  else { s with strategy := .popping }

/-- One `try_pop`, in the loop or in the drain. -/
def pop (s : System) (drained : Bool) : System :=
  match s.queue with
  | [] => { s with strategy := if drained then .done else .head }
  | entry :: queue => { s with queue, strategy := .handling entry drained }

/-- One `processEvent`. -/
def handle (s : System) (entry : Entry) (drained : Bool) (clock : EventClock) : System :=
  { s with
    rt := s.rt.processEvent clock entry.event
    handled := s.handled ++ [entry]
    rebuiltFrom := if entry.event.kind = .snapshot then some entry.connection else s.rebuiltFrom
    strategy := if drained then .draining else .head }

/-! ### Steps -/

/-- One step of the system, if the thread that makes it stands there. -/
def step (s : System) : Action → Option System
  | .dial => if s.network = .offline then
      some { s with network := if s.wsRunning then .dialing else .exited } else none
  | .connect => if s.network = .dialing then some s.connect else none
  | .connectFailed => if s.network = .dialing then some { s with network := .offline } else none
  | .testWsRunning => if s.network = .online then
      some { s with network := if s.wsRunning then .reading else .offline } else none
  | .readTimeout => if s.network = .reading then some { s with network := .online } else none
  | .parseError => if s.network = .reading then
      some { s.onParseError with network := .online } else none
  | .disconnect => if s.network = .online ∨ s.network = .reading then
      some { s with network := .offline } else none
  | .receive msg recvTs parseDone => if s.network = .reading then
      some (s.receive msg recvTs parseDone) else none
  | .push => match s.network with
      | .pushing event retries rest => some (s.push event retries rest)
      | _ => none
  | .measure => if s.network = .measuring then some s.measure else none
  | .testRunning => if s.strategy = .head then
      some { s with strategy := if s.running then .exchanging else .draining } else none
  | .exchange => if s.strategy = .exchanging then some s.exchange else none
  | .pop => match s.strategy with
      | .popping => some (s.pop false)
      | .draining => some (s.pop true)
      | _ => none
  | .handle clock => match s.strategy with
      | .handling entry drained => some (s.handle entry drained clock)
      | _ => none
  | .stop => if s.caller = .running then
      some { s with wsRunning := false, caller := .joiningNetwork } else none
  | .joinNetwork => if s.caller = .joiningNetwork ∧ s.network = .exited then
      some { s with caller := .clearing } else none
  | .clearRunning => if s.caller = .clearing then
      some { s with running := false, caller := .joiningStrategy } else none
  | .joinStrategy => if s.caller = .joiningStrategy ∧ s.strategy = .done then
      some { s with caller := .returned } else none

/-! ### What a step can do -/

/-- The steps of the system, each with where its thread stands and what it leaves. -/
inductive Moves (s : System) : Action → System → Prop where
  | dial (offline : s.network = .offline) :
      Moves s .dial { s with network := if s.wsRunning then .dialing else .exited }
  | connect (dialing : s.network = .dialing) : Moves s .connect s.connect
  | connectFailed (dialing : s.network = .dialing) :
      Moves s .connectFailed { s with network := .offline }
  | testWsRunning (online : s.network = .online) :
      Moves s .testWsRunning { s with network := if s.wsRunning then .reading else .offline }
  | readTimeout (reading : s.network = .reading) :
      Moves s .readTimeout { s with network := .online }
  | parseError (reading : s.network = .reading) :
      Moves s .parseError { s.onParseError with network := .online }
  | disconnect (connected : s.network = .online ∨ s.network = .reading) :
      Moves s .disconnect { s with network := .offline }
  | receive (msg : CoinbaseMessage) (recvTs parseDone : Timestamp)
      (reading : s.network = .reading) :
      Moves s (.receive msg recvTs parseDone) (s.receive msg recvTs parseDone)
  | push (event : MarketEvent) (retries : Nat) (rest : List MarketEvent)
      (pushing : s.network = .pushing event retries rest) :
      Moves s .push (s.push event retries rest)
  | measure (measuring : s.network = .measuring) : Moves s .measure s.measure
  | testRunning (head : s.strategy = .head) :
      Moves s .testRunning { s with strategy := if s.running then .exchanging else .draining }
  | exchange (exchanging : s.strategy = .exchanging) : Moves s .exchange s.exchange
  | pop (popping : s.strategy = .popping) : Moves s .pop (s.pop false)
  | drain (draining : s.strategy = .draining) : Moves s .pop (s.pop true)
  | handle (entry : Entry) (drained : Bool) (clock : EventClock)
      (handling : s.strategy = .handling entry drained) :
      Moves s (.handle clock) (s.handle entry drained clock)
  | stop (running : s.caller = .running) :
      Moves s .stop { s with wsRunning := false, caller := .joiningNetwork }
  | joinNetwork (joining : s.caller = .joiningNetwork) (exited : s.network = .exited) :
      Moves s .joinNetwork { s with caller := .clearing }
  | clearRunning (clearing : s.caller = .clearing) :
      Moves s .clearRunning { s with running := false, caller := .joiningStrategy }
  | joinStrategy (joining : s.caller = .joiningStrategy) (done : s.strategy = .done) :
      Moves s .joinStrategy { s with caller := .returned }

theorem moves_of_step {s after : System} {action : Action} (stepped : s.step action = some after) :
    s.Moves action after := by
  unfold step at stepped
  cases action with
  | push =>
    dsimp only at stepped
    split at stepped
    · rename_i event retries rest pushing
      obtain rfl := Option.some.inj stepped
      exact .push event retries rest pushing
    · cases stepped
  | pop =>
    dsimp only at stepped
    split at stepped
    · obtain rfl := Option.some.inj stepped
      exact .pop ‹_›
    · obtain rfl := Option.some.inj stepped
      exact .drain ‹_›
    · cases stepped
  | handle clock =>
    dsimp only at stepped
    split at stepped
    · rename_i entry drained handling
      obtain rfl := Option.some.inj stepped
      exact .handle entry drained clock handling
    · cases stepped
  | joinNetwork =>
    simp only [Option.ite_none_right_eq_some, Option.some.injEq] at stepped
    obtain ⟨⟨joining, exited⟩, rfl⟩ := stepped
    exact .joinNetwork joining exited
  | joinStrategy =>
    simp only [Option.ite_none_right_eq_some, Option.some.injEq] at stepped
    obtain ⟨⟨joining, done⟩, rfl⟩ := stepped
    exact .joinStrategy joining done
  | _ =>
    simp only [Option.ite_none_right_eq_some, Option.some.injEq] at stepped
    obtain ⟨there, rfl⟩ := stepped
    constructor
    exact there

end System

end Trading
