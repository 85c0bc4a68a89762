/-
This file takes out of the runtime the part that orders move, the desk: the strategy, the risk
ledger, the breaker and the counters. What an event does to the desk is a function of the desk,
the clock and what the book lists once the event is in it, and of nothing else: not of the
latencies, the marks or the shape of the book.

So the width of the window does not matter to the desk either, where the window covers what the
book lists. Behind a snapshot inside a band, the desk may be moved by a small book in place of
the runtime's. That is how whole runs with orders in them are evaluated.
-/

import TradingEngine.ReferenceBook
import TradingEngine.RuntimeBook

namespace Trading

open BoundedBook (Call)

/-! ### Only the listed levels count -/

section Listed

variable {capacity other : Nat} {book : BoundedBook capacity} {stand : BoundedBook other}

/-- The sizer sees of a book only what `depth` lists. -/
theorem OrderSizer.computeOrder_congr (same : ∀ side n, stand.depth side n = book.depth side n)
    (tickSize : ℚ) (side : Side) (targetQty : ℚ) :
    OrderSizer.computeOrder stand tickSize side targetQty =
      OrderSizer.computeOrder book tickSize side targetQty := by
  unfold OrderSizer.computeOrder
  simp only [same]

theorem ImbalanceStrategy.onMarketUpdate_congr
    (same : ∀ side n, stand.depth side n = book.depth side n) (strategy : ImbalanceStrategy)
    (now : Timestamp) : strategy.onMarketUpdate stand now = strategy.onMarketUpdate book now := by
  unfold onMarketUpdate decision
  simp only [same, OrderSizer.computeOrder_congr same]

theorem ExecutionEngine.simulate_congr
    (same : ∀ side n, stand.depth side n = book.depth side n) (order : NewOrder) (tickSize : ℚ)
    (now : Timestamp) : simulate order stand tickSize now = simulate order book tickSize now := by
  unfold simulate
  simp only [same]

end Listed

/-! ### The desk -/

/-- The part of the runtime that orders move. -/
structure Desk where
  strategy : ImbalanceStrategy
  risk : RiskManager
  breaker : CircuitBreaker
  nextOrderId : OrderId
  signalsGenerated : Nat
  ordersSent : Nat
  ordersApproved : Nat
  ordersRejected : Nat
  circuitBlocked : Nat
  fills : Nat
  partialFills : Nat

namespace Desk

/-- A message counted by the breaker, and the strategy after its update. -/
def hear (desk : Desk) (strategy : ImbalanceStrategy) : Desk :=
  { desk with breaker := desk.breaker.recordMessage, strategy }

/-- An actionable signal became a numbered order. -/
def send (desk : Desk) : Desk :=
  { desk with
    signalsGenerated := desk.signalsGenerated + 1
    nextOrderId := desk.nextOrderId + 1
    ordersSent := desk.ordersSent + 1 }

/-- The breaker holds the order back. -/
def block (desk : Desk) : Desk := { desk with circuitBlocked := desk.circuitBlocked + 1 }

/-- The risk manager refuses the order, which counts as an error. -/
def reject (desk : Desk) : Desk :=
  { desk with
    ordersRejected := desk.ordersRejected + 1
    breaker := desk.breaker.recordError }

/-- The order passes the risk manager. -/
def approve (desk : Desk) : Desk := { desk with ordersApproved := desk.ordersApproved + 1 }

/-- The order is filled: both ledgers book the report. -/
def fill (desk : Desk) (order : NewOrder) (report : ExecutionReport) : Desk :=
  { desk with
    fills := desk.fills + 1
    partialFills := if report.execQty.value < order.qty.value - tinyQty
      then desk.partialFills + 1 else desk.partialFills
    risk := desk.risk.onFill report
    strategy := desk.strategy.onFill report }

/-- What an event does once the book lists it: the order it sends, if any, and the desk after
it. -/
def trade (cfg : RuntimeConfig) (desk : Desk) {capacity : Nat} (book : BoundedBook capacity)
    (clock : EventClock) : Option NewOrder × Desk :=
  let decided := desk.strategy.onMarketUpdate book clock.bookDone
  let heard := desk.hear decided.2
  if decided.1.isActionable then
    let order : NewOrder :=
      { id := desk.nextOrderId
        symbolId := cfg.symbolId
        side := if decided.1.action = .buy then .bid else .ask
        price := decided.1.price
        qty := decided.1.qty
        createdNs := clock.signalDone }
    let report := ExecutionEngine.simulate order book cfg.tickSize clock.simulateNow
    (some order,
      if heard.breaker.isTripped then heard.send.block
      else if !heard.risk.approve order then heard.send.reject
      else if report.isFill then heard.send.approve.fill order report
      else heard.send.approve)
  else (none, heard)

/-- The desk trades by what `depth` lists and sees nothing else of the book. -/
theorem trade_congr {capacity other : Nat} {book : BoundedBook capacity}
    {stand : BoundedBook other} (same : ∀ side n, stand.depth side n = book.depth side n)
    (cfg : RuntimeConfig) (desk : Desk) (clock : EventClock) :
    desk.trade cfg stand clock = desk.trade cfg book clock := by
  unfold trade
  simp only [ImbalanceStrategy.onMarketUpdate_congr same, ExecutionEngine.simulate_congr same]

end Desk

namespace Runtime

/-- The desk of a runtime. -/
def desk (rt : Runtime) : Desk where
  strategy := rt.strategy
  risk := rt.risk
  breaker := rt.breaker
  nextOrderId := rt.nextOrderId
  signalsGenerated := rt.metrics.signalsGenerated
  ordersSent := rt.metrics.ordersSent
  ordersApproved := rt.metrics.ordersApproved
  ordersRejected := rt.metrics.ordersRejected
  circuitBlocked := rt.metrics.circuitBlocked
  fills := rt.metrics.fills
  partialFills := rt.metrics.partialFills

/-! ### The order an event sends -/

/-- The runtime with the event counted and in its book, when the event gets that far. -/
def withBook (rt : Runtime) (ev : MarketEvent) : Option Runtime :=
  match ev.kind with
  | .snapshot => some (rt.countMessage.rebuildBook ev.snap)
  | .l2Update => if rt.bookReady then some (rt.countMessage.changeBook ev.l2) else none
  | .heartbeat => none

/-- The order the strategy's answer to a book becomes. -/
def orderOn (rt : Runtime) (clock : EventClock) : Option NewOrder :=
  let decided := rt.strategy.onMarketUpdate rt.book clock.bookDone
  if decided.1.isActionable then some (rt.orderOf decided.1 clock.signalDone) else none

/-- The order handed to `dispatchOrder` while an event is handled. -/
def sentOrder (rt : Runtime) (clock : EventClock) (ev : MarketEvent) : Option NewOrder :=
  (rt.withBook ev).bind fun ready => ready.orderOn clock

theorem processEvent_of_withBook {rt ready : Runtime} {ev : MarketEvent}
    (found : rt.withBook ev = some ready) (clock : EventClock) :
    rt.processEvent clock ev = ready.evaluate clock ev.recvNs := by
  unfold withBook at found
  unfold processEvent
  cases kind : ev.kind with
  | snapshot =>
    rw [kind] at found
    rw [← Option.some.inj found]
  | heartbeat =>
    rw [kind] at found
    cases found
  | l2Update =>
    rw [kind] at found
    dsimp only at found ⊢
    split at found
    · rename_i ready
      rw [ready, ← Option.some.inj found]
      rfl
    · cases found

theorem desk_of_withBook_none {rt : Runtime} {ev : MarketEvent} (found : rt.withBook ev = none)
    (clock : EventClock) : (rt.processEvent clock ev).desk = rt.desk.hear rt.strategy := by
  unfold withBook at found
  unfold processEvent
  cases kind : ev.kind with
  | snapshot =>
    rw [kind] at found
    cases found
  | heartbeat => rfl
  | l2Update =>
    rw [kind] at found
    dsimp only at found ⊢
    split at found
    · cases found
    · rename_i unready
      rw [Bool.eq_false_iff.mpr unready]
      rfl

/-- What stays when the event is counted and put in the book. -/
theorem withBook_keeps {rt ready : Runtime} {ev : MarketEvent}
    (found : rt.withBook ev = some ready) :
    ready.cfg = rt.cfg ∧ ready.nextOrderId = rt.nextOrderId ∧
      ready.desk = { rt.desk with breaker := rt.breaker.recordMessage } := by
  unfold withBook at found
  split at found
  · rw [← Option.some.inj found]
    exact ⟨rfl, rfl, rfl⟩
  · split at found
    · rw [← Option.some.inj found]
      exact ⟨rfl, rfl, rfl⟩
    · cases found
  · cases found

theorem withBook_book {rt ready : Runtime} {ev : MarketEvent}
    (found : rt.withBook ev = some ready) (clock : EventClock) :
    (rt.processEvent clock ev).book = ready.book := by
  rw [processEvent_of_withBook found, (evaluate_keepsMarket _ _ _).book]

/-! ### What an event does to the desk -/

/-- `evaluate`, with the stages before the strategy written away. -/
theorem evaluate_eq (rt : Runtime) (clock : EventClock) (recvNs : Timestamp) :
    rt.evaluate clock recvNs =
      let decided := rt.strategy.onMarketUpdate rt.book clock.bookDone
      let signalled := (rt.countBook clock).publishMarks.keepStrategy decided.2 clock recvNs
      if decided.1.isActionable then signalled.countSignal.dispatchOrder decided.1 clock
      else signalled :=
  rfl

/-- The exits of `dispatchOrder`. -/
theorem dispatchOrder_desk (rt : Runtime) (signal : Signal) (clock : EventClock) :
    (rt.dispatchOrder signal clock).desk =
      let order := rt.orderOf signal clock.signalDone
      let report := ExecutionEngine.simulate order rt.book rt.cfg.tickSize clock.simulateNow
      if rt.breaker.isTripped then rt.countSent.desk.block
      else if !rt.risk.approve order then rt.countSent.desk.reject
      else if report.isFill then rt.countSent.desk.approve.fill order report
      else rt.countSent.desk.approve := by
  unfold dispatchOrder executeOrder bookFill
  dsimp only
  rw [apply_ite desk, apply_ite desk, apply_ite desk]
  rfl

/-- What the strategy's answer to a book does to a desk that has counted the message. -/
theorem evaluate_trade {rt : Runtime} {before : Desk}
    (counted : rt.desk = { before with breaker := before.breaker.recordMessage })
    (clock : EventClock) (recvNs : Timestamp) :
    before.trade rt.cfg rt.book clock = (rt.orderOn clock, (rt.evaluate clock recvNs).desk) := by
  have strategy : rt.strategy = before.strategy := congrArg Desk.strategy counted
  have risk : rt.risk = before.risk := congrArg Desk.risk counted
  have breaker : rt.breaker = before.breaker.recordMessage := congrArg Desk.breaker counted
  have number : rt.nextOrderId = before.nextOrderId := congrArg Desk.nextOrderId counted
  have heard (next : ImbalanceStrategy) : { rt.desk with strategy := next } = before.hear next := by
    rw [counted]
    rfl
  rw [evaluate_eq]
  unfold Desk.trade orderOn
  rw [strategy]
  generalize before.strategy.onMarketUpdate rt.book clock.bookDone = decided
  dsimp only
  split
  · rw [dispatchOrder_desk]
    have sent : ((rt.countBook clock).publishMarks.keepStrategy decided.2 clock
        recvNs).countSignal.countSent.desk = (before.hear decided.2).send := by
      rw [← heard]
      rfl
    rw [sent]
    show _ = (some (rt.orderOf decided.1 clock.signalDone),
      if rt.breaker.isTripped then _
      else if !rt.risk.approve (rt.orderOf decided.1 clock.signalDone) then _
      else if (ExecutionEngine.simulate (rt.orderOf decided.1 clock.signalDone) rt.book
          rt.cfg.tickSize clock.simulateNow).isFill then _
      else _)
    unfold orderOf
    rw [breaker, risk, number]
    rfl
  · exact congrArg (Prod.mk none) (heard decided.2).symm

/-- Handling an event that gets as far as the book moves the desk by what the book lists then. -/
theorem processEvent_trade {rt ready : Runtime} {ev : MarketEvent}
    (found : rt.withBook ev = some ready) (clock : EventClock) :
    rt.desk.trade rt.cfg ready.book clock =
      (rt.sentOrder clock ev, (rt.processEvent clock ev).desk) := by
  obtain ⟨cfg, -, counted⟩ := withBook_keeps found
  rw [processEvent_of_withBook found, sentOrder, found, ← cfg]
  exact evaluate_trade counted clock ev.recvNs

end Runtime

/-! ### Behind a snapshot inside a band -/

/-- A capacity at which books are evaluated. -/
def smallCapacity : Nat := 64

instance : ValidCapacity smallCapacity := ⟨⟨6, by decide⟩⟩

namespace MarketEvent

/-- The book behind a snapshot on a small window. -/
def Snap.smallBook (snap : Snap) : BoundedBook smallCapacity :=
  (BoundedBook.fresh smallCapacity).applySnapshot snap

/-- A snapshot whose levels all fit in half a small window. -/
structure Small (ev : MarketEvent) : Prop where
  kind : ev.kind = .snapshot
  inside : ∃ low, ∀ call ∈ ev.snap.calls.tail, call.InBand smallCapacity low

end MarketEvent

/-- A band of a small window is one of the runtime's window as well. -/
theorem BoundedBook.Call.InBand.of_small {low : Int} {call : Call}
    (inside : call.InBand smallCapacity low) : call.InBand bookCapacity low := by
  have wider {tick : Int} (small : Band smallCapacity low tick) : Band bookCapacity low tick :=
    ⟨small.1, le_trans small.2 (by
      have first : center smallCapacity = 32 := by decide
      have second : center bookCapacity = 2048 := by decide
      omega)⟩
  cases call with
  | clear => trivial
  | seedReference price => exact wider inside
  | update side price qty => exact wider inside

/-- A book that is rebuilt and then changed inside a band agrees with the reference map. -/
theorem agrees_rebuilt {capacity : Nat} [ValidCapacity capacity] {low : Int}
    (book : BoundedBook capacity) {snap : MarketEvent.Snap} {calls : List Call}
    (inside : ∀ call ∈ snap.calls.tail ++ calls, call.InBand capacity low) :
    BoundedBook.Agrees low (calls.foldl BoundedBook.call (book.applySnapshot snap))
      ((snap.calls.tail ++ calls).foldl ReferenceBook.call ReferenceBook.empty) := by
  have rebuilt : book.applySnapshot snap =
      snap.calls.tail.foldl BoundedBook.call book.clear := by
    rw [BoundedBook.applySnapshot_eq, MarketEvent.Snap.calls, List.tail_cons, List.foldl_cons]
    rfl
  rw [rebuilt, ← List.foldl_append]
  exact (BoundedBook.Agrees.clear low book).foldl _ inside

/-- A book rebuilt by a snapshot lists what the plain map does, if all calls stay in one band. -/
theorem depth_rebuilt {capacity : Nat} [ValidCapacity capacity] {low : Int}
    (book : BoundedBook capacity) {snap : MarketEvent.Snap} {calls : List Call}
    (inside : ∀ call ∈ snap.calls.tail ++ calls, call.InBand capacity low) (side : Side)
    (n : Nat) :
    (calls.foldl BoundedBook.call (book.applySnapshot snap)).depth side n =
      (((snap.calls.tail ++ calls).foldl ReferenceBook.call ReferenceBook.empty).levels
        side).take n :=
  ((agrees_rebuilt book inside).queries side).2 n

/-- The small book answers as the runtime's does. -/
theorem MarketEvent.Small.queries {ev : MarketEvent} (small : ev.Small)
    (book : BoundedBook bookCapacity) (side : Side) :
    ev.snap.smallBook.topOfBook side = (book.applySnapshot ev.snap).topOfBook side ∧
      ∀ n, ev.snap.smallBook.depth side n = (book.applySnapshot ev.snap).depth side n := by
  obtain ⟨low, inside⟩ := small.inside
  rw [← List.append_nil ev.snap.calls.tail] at inside
  obtain ⟨narrowTop, narrow⟩ :=
    (agrees_rebuilt (BoundedBook.fresh smallCapacity) inside).queries side
  obtain ⟨wideTop, wide⟩ :=
    (agrees_rebuilt book fun call member => (inside call member).of_small).queries side
  exact ⟨narrowTop.trans wideTop.symm, fun n => (narrow n).trans (wide n).symm⟩

/-- Snapshots on small books, one after another. -/
def Desk.tradeAll (cfg : RuntimeConfig) (desk : Desk) (events : List (EventClock × MarketEvent)) :
    Desk :=
  events.foldl (fun desk next => (desk.trade cfg next.2.snap.smallBook next.1).2) desk

namespace Runtime

/-- A small snapshot sends an order and moves the desk as the small book says. -/
theorem processEvent_small (rt : Runtime) {ev : MarketEvent} (small : ev.Small)
    (clock : EventClock) :
    rt.sentOrder clock ev = (rt.desk.trade rt.cfg ev.snap.smallBook clock).1 ∧
      (rt.processEvent clock ev).desk =
        (rt.desk.trade rt.cfg ev.snap.smallBook clock).2 := by
  have found : rt.withBook ev = some (rt.countMessage.rebuildBook ev.snap) := by
    rw [withBook, small.kind]
  have traded := processEvent_trade found clock
  have same : rt.desk.trade rt.cfg ev.snap.smallBook clock = _ :=
    (Desk.trade_congr (fun side => (small.queries rt.book side).2) rt.cfg rt.desk clock).trans
      traded
  rw [same]
  exact ⟨rfl, rfl⟩

/-- The same of a runtime whose desk and configuration are known. -/
theorem processEvent_of_desk {cfg : RuntimeConfig} {rt : Runtime} {desk : Desk}
    (same : rt.desk = desk) (configured : rt.cfg = cfg) {ev : MarketEvent} (small : ev.Small)
    (clock : EventClock) :
    rt.sentOrder clock ev = (desk.trade cfg ev.snap.smallBook clock).1 ∧
      (rt.processEvent clock ev).desk = (desk.trade cfg ev.snap.smallBook clock).2 ∧
      (rt.processEvent clock ev).cfg = cfg := by
  obtain ⟨sent, moved⟩ := rt.processEvent_small small clock
  rw [same, configured] at sent moved
  exact ⟨sent, moved, (processEvent_cfg _ _ _).trans configured⟩

/-- A run of small snapshots moves the desk as their small books say. -/
theorem run_desk (cfg : RuntimeConfig) {events : List (EventClock × MarketEvent)}
    (small : ∀ next ∈ events, next.2.Small) :
    (run cfg events).desk = (create cfg).desk.tradeAll cfg events := by
  have steps (rt : Runtime) (configured : rt.cfg = cfg) :
      (events.foldl (fun rt handled => rt.processEvent handled.1 handled.2) rt).desk =
        rt.desk.tradeAll cfg events := by
    induction events generalizing rt with
    | nil => rfl
    | cons next rest inductionHypothesis =>
      obtain ⟨first, later⟩ := List.forall_mem_cons.mp small
      obtain ⟨-, moved, kept⟩ := processEvent_of_desk rfl configured first next.1
      rw [List.foldl_cons, inductionHypothesis later (rt.processEvent next.1 next.2) kept, moved]
      rfl
  exact steps (create cfg) rfl

theorem one_le_maxSnapLevels : 1 ≤ maxSnapLevels :=
  Nat.le_add_left 1 63

/-- A snapshot of one level a side. -/
def quote (bid ask : PriceLevel) : MarketEvent :=
  { MarketEvent.empty with
    kind := .snapshot
    snap := ⟨1, 1, Vector.replicate _ bid, Vector.replicate _ ask, one_le_maxSnapLevels,
      one_le_maxSnapLevels⟩ }

/-- Much more bid than ask, past the cooldown. -/
def entryQuote : EventClock × MarketEvent :=
  (⟨1, 3000000000, 3000000001, 3000000002, 3000000003, 3000000004⟩,
    quote ⟨⟨10000⟩, ⟨1000⟩⟩ ⟨⟨10001⟩, ⟨100⟩⟩)

/-- The same touch, when there is little left to buy. -/
def thinQuote : EventClock × MarketEvent :=
  (⟨5999999999, 6000000000, 6000000001, 6000000002, 6000000003, 6000000004⟩,
    quote ⟨⟨10000⟩, ⟨1000⟩⟩ ⟨⟨10001⟩, ⟨5⟩⟩)

/-- A touch far above. -/
def rallyQuote : EventClock × MarketEvent :=
  (⟨8999999999, 9000000000, 9000000001, 9000000002, 9000000003, 9000000004⟩,
    quote ⟨⟨50000⟩, ⟨3⟩⟩ ⟨⟨50001⟩, ⟨3⟩⟩)

theorem entryQuote_small : entryQuote.2.Small := ⟨rfl, 10000, by decide +kernel⟩

theorem thinQuote_small : thinQuote.2.Small := ⟨rfl, 10000, by decide +kernel⟩

theorem rallyQuote_small : rallyQuote.2.Small := ⟨rfl, 50000, by decide +kernel⟩

/-- The default configuration passes the checks. -/
theorem default_valid : RuntimeConfig.Valid {} := by
  constructor <;> decide +kernel

/-- The defaults, but for the fraction committed to an entry, the position limit and the
breaker. -/
def entryConfig (fraction maxPosition : ℚ) (threshold window : Nat) : RuntimeConfig where
  maxPosition := maxPosition
  strategy := { tradeFraction := fraction }
  circuitErrorThreshold := threshold
  circuitWindowMsgs := window

/-- Such a configuration passes the checks. -/
theorem entryConfig_valid {fraction maxPosition : ℚ} {threshold window : Nat}
    (positive : 0 < fraction) (atMost : fraction ≤ 1) (limit : 0 < maxPosition)
    (errors : 0 < threshold) (messages : 0 < window) :
    (entryConfig fraction maxPosition threshold window).Valid where
  tickSize := default_valid.tickSize
  maxPosition := limit
  initialCash := default_valid.initialCash
  symbolId := default_valid.symbolId
  depthLevels := default_valid.depthLevels
  smoothingWindow := default_valid.smoothingWindow
  circuitErrorThreshold := errors
  circuitWindowMsgs := messages
  tradeFraction := ⟨positive, atMost⟩
  entryImbalance := default_valid.entryImbalance
  takeProfitBps := default_valid.takeProfitBps
  stopLossBps := default_valid.stopLossBps

/-- All of the cash is committed, the position limit is out of reach, and shorts are off. -/
def boldConfig : RuntimeConfig where
  maxPosition := 1000
  strategy := { tradeFraction := 1, allowShort := false }

theorem boldConfig_valid : boldConfig.Valid := by
  constructor <;> decide +kernel

/-- An order for more than the cash buys, an entry, and an exit. -/
def tradingDay : List (EventClock × MarketEvent) := [entryQuote, thinQuote, rallyQuote]

theorem tradingDay_small : ∀ next ∈ tradingDay, next.2.Small :=
  List.forall_mem_cons.mpr ⟨entryQuote_small, List.forall_mem_cons.mpr
    ⟨thinQuote_small, List.forall_mem_singleton.mpr rallyQuote_small⟩⟩

/-- The counters and the strategy of a runtime are those of its desk. -/
theorem of_desk {rt : Runtime} {desk : Desk} (same : rt.desk = desk) :
    rt.metrics.ordersSent = desk.ordersSent ∧ rt.metrics.ordersRejected = desk.ordersRejected ∧
      rt.metrics.fills = desk.fills ∧ rt.strategy = desk.strategy := by
  rw [← same]
  exact ⟨rfl, rfl, rfl, rfl⟩

/-- The desk through the day, evaluated: refused, bought, sold in part. -/
theorem tradingDay_desk :
    (((create boldConfig).desk.tradeAll boldConfig [entryQuote]).fills = 0 ∧
      ((create boldConfig).desk.tradeAll boldConfig [entryQuote]).strategy.position = 0) ∧
    (((create boldConfig).desk.tradeAll boldConfig [entryQuote, thinQuote]).fills = 1 ∧
      ((create boldConfig).desk.tradeAll boldConfig
        [entryQuote, thinQuote]).strategy.position = 5) ∧
    ((create boldConfig).desk.tradeAll boldConfig tradingDay).ordersSent = 3 ∧
      ((create boldConfig).desk.tradeAll boldConfig tradingDay).ordersRejected = 1 ∧
      ((create boldConfig).desk.tradeAll boldConfig tradingDay).fills = 2 ∧
      ((create boldConfig).desk.tradeAll boldConfig tradingDay).strategy.position = 2 := by
  decide +kernel

/-- The first order is refused, the second buys five and the third sells three of them. -/
theorem run_tradingDay :
    ((run boldConfig [entryQuote]).metrics.fills = 0 ∧
      (run boldConfig [entryQuote]).strategy.position = 0) ∧
    ((run boldConfig [entryQuote, thinQuote]).metrics.fills = 1 ∧
      (run boldConfig [entryQuote, thinQuote]).strategy.position = 5) ∧
    (run boldConfig tradingDay).metrics.ordersSent = 3 ∧
      (run boldConfig tradingDay).metrics.ordersRejected = 1 ∧
      (run boldConfig tradingDay).metrics.fills = 2 ∧
      (run boldConfig tradingDay).strategy.position = 2 := by
  obtain ⟨refused, bought, sold⟩ := tradingDay_desk
  obtain ⟨-, -, noFill, flat⟩ :=
    of_desk (run_desk boldConfig (List.forall_mem_singleton.mpr entryQuote_small))
  obtain ⟨-, -, oneFill, long⟩ := of_desk (run_desk boldConfig (List.forall_mem_cons.mpr
    ⟨entryQuote_small, List.forall_mem_singleton.mpr thinQuote_small⟩))
  obtain ⟨sent, rejected, twoFills, left⟩ := of_desk (run_desk boldConfig tradingDay_small)
  rw [flat, long, left]
  exact ⟨⟨noFill.trans refused.1, refused.2⟩, ⟨oneFill.trans bought.1, bought.2⟩,
    sent.trans sold.1, rejected.trans sold.2.1, twoFills.trans sold.2.2.1, sold.2.2.2⟩

end Runtime

end Trading
