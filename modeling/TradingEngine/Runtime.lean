/-
This file is the strategy thread's half of `runtime.hpp` and `runtime.cpp`: market events,
the state they act on, and the functions that handle one event. The queue and the two
flags the threads share are added in `Threads.lean`.

Every reading of the clock while an event is handled is an argument, so a statement about
all runs is a statement about all timestamps. The published copies of marks and account
are fields of the state, stored where the source stores them, and the metrics are updated
at the places where the source does. An order is dispatched inside the evaluation that
sent it, so the account an event finds is the one the event before it left.
-/

import TradingEngine.CircuitBreaker
import TradingEngine.ExecutionEngine
import TradingEngine.ImbalanceStrategy
import TradingEngine.Metrics
import TradingEngine.RiskManager

namespace Trading

/-- What a runtime is configured with, and the defaults. -/
structure RuntimeConfig where
  symbolId : SymbolId := 0
  tickSize : ℚ := 1 / 100
  maxPosition : ℚ := 5
  initialCash : ℚ := 10000
  strategy : StrategyParams := {}
  circuitErrorThreshold : Nat := 20
  circuitWindowMsgs : Nat := 500
deriving DecidableEq

/-- The checks of `loadConfig` on the fields the runtime reads. -/
structure RuntimeConfig.Valid (cfg : RuntimeConfig) : Prop where
  tickSize : 0 < cfg.tickSize
  maxPosition : 0 < cfg.maxPosition
  initialCash : 0 ≤ cfg.initialCash
  symbolId : cfg.symbolId < maxSymbols
  depthLevels : 0 < cfg.strategy.depthLevels ∧ cfg.strategy.depthLevels ≤ maxDepth
  smoothingWindow : 0 < cfg.strategy.smoothingWindow ∧ cfg.strategy.smoothingWindow ≤ maxRolling
  circuitErrorThreshold : 0 < cfg.circuitErrorThreshold
  circuitWindowMsgs : 0 < cfg.circuitWindowMsgs
  tradeFraction : 0 < cfg.strategy.tradeFraction ∧ cfg.strategy.tradeFraction ≤ 1
  entryImbalance : 0 ≤ cfg.strategy.entryImbalance ∧ cfg.strategy.entryImbalance ≤ 1
  takeProfitBps : 0 < cfg.strategy.takeProfitBps
  stopLossBps : 0 < cfg.strategy.stopLossBps

/-! ### Market events -/

/-- The kinds of events in the queue. -/
inductive MarketEvent.Kind where
  | snapshot
  | l2Update
  | heartbeat
deriving DecidableEq, Repr

/-- The length of the arrays `bids` and `asks` of an event. -/
def maxSnapLevels : Nat := 64

/-- The length of the arrays of changes of an event. -/
def maxL2Changes : Nat := 128

/-- A snapshot: fixed arrays of which the first `nBids` and `nAsks` entries count. -/
structure MarketEvent.Snap where
  nBids : Nat
  nAsks : Nat
  bids : Vector PriceLevel maxSnapLevels
  asks : Vector PriceLevel maxSnapLevels
  nBids_le : nBids ≤ maxSnapLevels
  nAsks_le : nAsks ≤ maxSnapLevels
deriving DecidableEq

/-- A batch of level changes: fixed arrays of which the first `nChanges` entries count. -/
structure MarketEvent.L2 where
  nChanges : Nat
  changeSides : Vector Side maxL2Changes
  changePrices : Vector ℚ maxL2Changes
  changeQtys : Vector ℚ maxL2Changes
  nChanges_le : nChanges ≤ maxL2Changes
deriving DecidableEq

/-- One event. The source overlays `snap` and `l2`; only the member its kind names is ever
read. -/
structure MarketEvent where
  kind : MarketEvent.Kind
  recvNs : Timestamp
  snap : MarketEvent.Snap
  l2 : MarketEvent.L2
deriving DecidableEq

namespace MarketEvent

/-- A snapshot without levels. -/
def Snap.empty : Snap :=
  ⟨0, 0, Vector.replicate _ ⟨⟨0⟩, ⟨0⟩⟩, Vector.replicate _ ⟨⟨0⟩, ⟨0⟩⟩, Nat.zero_le _, Nat.zero_le _⟩

/-- An update without changes. -/
def L2.empty : L2 :=
  ⟨0, Vector.replicate _ .bid, Vector.replicate _ 0, Vector.replicate _ 0, Nat.zero_le _⟩

/-- The value-initialised event. -/
def empty : MarketEvent := ⟨.heartbeat, 0, Snap.empty, L2.empty⟩

/-- The bids a snapshot carries, in the order they are listed. -/
def Snap.bidLevels (snap : Snap) : List PriceLevel := snap.bids.toList.take snap.nBids

/-- The asks a snapshot carries, in the order they are listed. -/
def Snap.askLevels (snap : Snap) : List PriceLevel := snap.asks.toList.take snap.nAsks

end MarketEvent

/-- One level change of the feed. -/
structure CoinbaseChange where
  side : Side
  price : ℚ
  qty : ℚ
deriving DecidableEq, Repr

/-- The changes a batch carries, in order. -/
def MarketEvent.L2.changes (l2 : MarketEvent.L2) : List CoinbaseChange :=
  (List.range l2.nChanges).map fun i =>
    ⟨l2.changeSides.getD i .bid, l2.changePrices.getD i 0, l2.changeQtys.getD i 0⟩

/-! ### The book under one event -/

/-- The least 64-bit integer. -/
def int64Min : Int := -2 ^ 63

/-- The largest 64-bit integer. -/
def int64Max : Int := 2 ^ 63 - 1

/-- The best live bid tick of a snapshot, or `int64Min`. -/
def bestBidTick (levels : List PriceLevel) : Int :=
  levels.foldl (fun best level =>
    if 0 < level.qty.value then max best level.price.ticks else best) int64Min

/-- The best live ask tick of a snapshot, or `int64Max`. -/
def bestAskTick (levels : List PriceLevel) : Int :=
  levels.foldl (fun best level =>
    if 0 < level.qty.value then min best level.price.ticks else best) int64Max

namespace BoundedBook

variable {capacity : Nat}

/-- Anchor the window on the middle of a two-sided snapshot. -/
def anchorOnMid (book : BoundedBook capacity) (bids asks : List PriceLevel) :
    BoundedBook capacity :=
  let bestBid := bestBidTick bids
  let bestAsk := bestAskTick asks
  if bestBid ≠ int64Min ∧ bestAsk ≠ int64Max then
    book.seedReference (Price.fromTicks (bestBid + (bestAsk - bestBid).tdiv 2))
  else book

/-- Put a list of levels into one side. -/
def insertLevels (book : BoundedBook capacity) (side : Side) (levels : List PriceLevel) :
    BoundedBook capacity :=
  levels.foldl (fun book level => book.update side level.price level.qty) book

/-- Rebuild the book from a snapshot. -/
def applySnapshot (book : BoundedBook capacity) (snap : MarketEvent.Snap) :
    BoundedBook capacity :=
  ((book.clear.anchorOnMid snap.bidLevels snap.askLevels).insertLevels .bid
    snap.bidLevels).insertLevels .ask snap.askLevels

/-- Apply a list of feed changes. -/
def applyChanges [DoubleDivision] (book : BoundedBook capacity) (tickSize : ℚ)
    (changes : List CoinbaseChange) : BoundedBook capacity :=
  changes.foldl (fun book change =>
    book.update change.side (Price.fromDouble change.price tickSize) ⟨change.qty⟩) book

end BoundedBook

/-! ### The runtime -/

/-- The capacity of the runtime's book. -/
def bookCapacity : Nat := 4096

instance : ValidCapacity bookCapacity := ⟨⟨12, by decide⟩⟩

/-- The state the strategy thread owns, with the metrics. -/
structure Runtime where
  cfg : RuntimeConfig
  metrics : Metrics
  book : BoundedBook bookCapacity
  strategy : ImbalanceStrategy
  risk : RiskManager
  breaker : CircuitBreaker
  bookReady : Bool
  markBid : ℚ
  markAsk : ℚ
  pnlCash : ℚ
  pnlPosition : ℚ
  pnlAvgEntry : ℚ
  pnlRealized : ℚ
  nextOrderId : OrderId
deriving DecidableEq

/-- The readings of the clock while one event is handled. -/
structure EventClock where
  bookStart : Timestamp
  bookDone : Timestamp
  signalDone : Timestamp
  orderDone : Timestamp
  simulateNow : Timestamp
  fillDone : Timestamp
deriving DecidableEq, Repr

namespace Runtime

/-- Publish the ledger for the reporter. -/
def publishPnl (rt : Runtime) : Runtime :=
  { rt with
    pnlCash := rt.strategy.cash
    pnlPosition := rt.strategy.position
    pnlAvgEntry := rt.strategy.avgEntry
    pnlRealized := rt.strategy.realized }

/-- The constructor. -/
def create (cfg : RuntimeConfig) : Runtime :=
  publishPnl
    { cfg
      metrics := {}
      book := BoundedBook.fresh bookCapacity
      strategy := ((ImbalanceStrategy.create cfg.strategy).setSymbol cfg.symbolId
        cfg.tickSize).setInitialCash cfg.initialCash
      risk := RiskManager.fresh.configure cfg.symbolId cfg.maxPosition cfg.initialCash cfg.tickSize
      breaker := { threshold := cfg.circuitErrorThreshold, windowMessages := cfg.circuitWindowMsgs }
      bookReady := false
      markBid := 0
      markAsk := 0
      pnlCash := 0
      pnlPosition := 0
      pnlAvgEntry := 0
      pnlRealized := 0
      nextOrderId := 1 }

/-- The order a signal becomes. -/
def orderOf (rt : Runtime) (signal : Signal) (now : Timestamp) : NewOrder where
  id := rt.nextOrderId
  symbolId := rt.cfg.symbolId
  side := if signal.action = .buy then .bid else .ask
  price := signal.price
  qty := signal.qty
  createdNs := now

/-- Book a report with both ledgers. -/
def bookFill (rt : Runtime) (order : NewOrder) (report : ExecutionReport) : Runtime :=
  if report.isFill then
    publishPnl
      { rt with
        metrics := { rt.metrics with
          fills := rt.metrics.fills + 1
          partialFills := if report.execQty.value < order.qty.value - tinyQty
            then rt.metrics.partialFills + 1 else rt.metrics.partialFills }
        risk := rt.risk.onFill report
        strategy := rt.strategy.onFill report }
  else rt

/-- Count an approved order and its latencies. -/
def countApproved (rt : Runtime) (clock : EventClock) : Runtime :=
  { rt with
    metrics := { rt.metrics with
      ordersApproved := rt.metrics.ordersApproved + 1
      signalToOrder := rt.metrics.signalToOrder.recordNs (clock.orderDone - clock.signalDone)
      orderToFill := rt.metrics.orderToFill.recordNs (clock.fillDone - clock.orderDone) } }

/-- An order past the breaker and the risk check is filled against the book. -/
def executeOrder [DoubleDivision] (rt : Runtime) (order : NewOrder) (clock : EventClock) :
    Runtime :=
  (rt.countApproved clock).bookFill order
    (ExecutionEngine.simulate order rt.book rt.cfg.tickSize clock.simulateNow)

/-- Number an order and count it as sent. -/
def countSent (rt : Runtime) : Runtime :=
  { rt with
    nextOrderId := rt.nextOrderId + 1
    metrics := { rt.metrics with ordersSent := rt.metrics.ordersSent + 1 } }

/-- Count an order the breaker holds back. -/
def blockOrder (rt : Runtime) : Runtime :=
  { rt with metrics := { rt.metrics with circuitBlocked := rt.metrics.circuitBlocked + 1 } }

/-- Count an order the risk check turns down, which is an error to the breaker. -/
def rejectOrder (rt : Runtime) : Runtime :=
  { rt with
    metrics := { rt.metrics with ordersRejected := rt.metrics.ordersRejected + 1 }
    breaker := rt.breaker.recordError }

/-- Send an order for a signal: the breaker comes first, then the risk manager, then the simulator.
-/
def dispatchOrder [DoubleDivision] (rt : Runtime) (signal : Signal) (clock : EventClock) :
    Runtime :=
  let order := rt.orderOf signal clock.signalDone
  let sent := rt.countSent
  if sent.breaker.isTripped then sent.blockOrder
  else if !sent.risk.approve order then sent.rejectOrder
  else sent.executeOrder order clock

/-- Publish the marks of the sides that have a top. -/
def publishMarks (rt : Runtime) : Runtime :=
  { rt with
    markBid := match rt.book.topOfBook .bid with
      | some bid => bid.price.toDouble rt.cfg.tickSize
      | none => rt.markBid
    markAsk := match rt.book.topOfBook .ask with
      | some ask => ask.price.toDouble rt.cfg.tickSize
      | none => rt.markAsk }

/-- Record how long the book took. -/
def countBook (rt : Runtime) (clock : EventClock) : Runtime :=
  { rt with
    metrics := { rt.metrics with
      parseToBook := rt.metrics.parseToBook.recordNs (clock.bookDone - clock.bookStart) } }

/-- Keep the strategy's new state and record how long it took. -/
def keepStrategy (rt : Runtime) (strategy : ImbalanceStrategy) (clock : EventClock)
    (recvNs : Timestamp) : Runtime :=
  { rt with
    strategy
    metrics := { rt.metrics with
      bookToSignal := rt.metrics.bookToSignal.recordNs (clock.signalDone - clock.bookDone)
      tickToSignal := rt.metrics.tickToSignal.recordNs (clock.signalDone - recvNs) } }

/-- Count a signal that asks for an order. -/
def countSignal (rt : Runtime) : Runtime :=
  { rt with metrics := { rt.metrics with signalsGenerated := rt.metrics.signalsGenerated + 1 } }

/-- What follows a change of the book: marks, strategy, dispatch. -/
def evaluate [DoubleDivision] (rt : Runtime) (clock : EventClock) (recvNs : Timestamp) : Runtime :=
  let marked := (rt.countBook clock).publishMarks
  let decided := marked.strategy.onMarketUpdate marked.book clock.bookDone
  let signalled := marked.keepStrategy decided.2 clock recvNs
  if decided.1.isActionable then signalled.countSignal.dispatchOrder decided.1 clock
  else signalled

/-- Rebuild the book from a snapshot. -/
def rebuildBook (rt : Runtime) (snap : MarketEvent.Snap) : Runtime :=
  { rt with book := rt.book.applySnapshot snap, bookReady := true }

/-- Apply the changes of a batch to the book. -/
def changeBook [DoubleDivision] (rt : Runtime) (l2 : MarketEvent.L2) : Runtime :=
  { rt with book := rt.book.applyChanges rt.cfg.tickSize l2.changes }

/-- Count an update that came before a snapshot. -/
def dropUpdate (rt : Runtime) : Runtime :=
  { rt with metrics := { rt.metrics with preSnapshotDrops := rt.metrics.preSnapshotDrops + 1 } }

/-- Tell the breaker of a message. -/
def countMessage (rt : Runtime) : Runtime := { rt with breaker := rt.breaker.recordMessage }

/-- Handle one event. -/
def processEvent [DoubleDivision] (rt : Runtime) (clock : EventClock) (ev : MarketEvent) :
    Runtime :=
  match ev.kind with
  | .snapshot => (rt.countMessage.rebuildBook ev.snap).evaluate clock ev.recvNs
  | .l2Update =>
    if !rt.bookReady then rt.countMessage.dropUpdate
    else (rt.countMessage.changeBook ev.l2).evaluate clock ev.recvNs
  | .heartbeat => rt.countMessage

end Runtime

end Trading
