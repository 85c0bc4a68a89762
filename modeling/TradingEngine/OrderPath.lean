/-
This file says, once for every exit of `processEvent` and `dispatchOrder`, what handling
one event does to the desk. It also describes the order an event sends, with all that the
strategy and the sizer guarantee of it. Facts about whole runs are then invariants of this
one step.

`Handles` lists the exits: no order, an order held back by the breaker, one rejected by
the risk manager, and one that fills, each with the desk it leaves. `Sound` is what the
desk of a priced run keeps. The invariants of the trading results name only these two and
never unfold the runtime.
-/

import Mathlib.Data.List.Induction
import TradingEngine.RiskLimits
import TradingEngine.StrategyOrders

namespace Trading

/-! ### The exits of one event -/

namespace Desk

open ImbalanceStrategy (KeepsAccount)

/-- Handling one event, with the order it sends if it sends one: the ways an event can go. -/
inductive Handles (cfg : RuntimeConfig) (book : BoundedBook bookCapacity) (now : Timestamp)
    (desk : Desk) : Option NewOrder → Desk → Prop where
  | quiet {strategy : ImbalanceStrategy} (keeps : KeepsAccount desk.strategy strategy) :
      Handles cfg book now desk none (desk.hear strategy)
  | blocked {strategy : ImbalanceStrategy} {order : NewOrder}
      (keeps : KeepsAccount desk.strategy strategy)
      (tripped : desk.breaker.recordMessage.isTripped = true) :
      Handles cfg book now desk (some order) (desk.hear strategy).send.block
  | rejected {strategy : ImbalanceStrategy} {order : NewOrder}
      (keeps : KeepsAccount desk.strategy strategy)
      (untripped : desk.breaker.recordMessage.isTripped = false)
      (refused : desk.risk.approve order = false) :
      Handles cfg book now desk (some order) (desk.hear strategy).send.reject
  | missed {strategy : ImbalanceStrategy} {order : NewOrder}
      (keeps : KeepsAccount desk.strategy strategy)
      (untripped : desk.breaker.recordMessage.isTripped = false)
      (approved : desk.risk.approve order = true)
      (empty : (ExecutionEngine.simulate order book cfg.tickSize now).isFill = false) :
      Handles cfg book now desk (some order) (desk.hear strategy).send.approve
  | filled {strategy : ImbalanceStrategy} {order : NewOrder}
      (keeps : KeepsAccount desk.strategy strategy)
      (untripped : desk.breaker.recordMessage.isTripped = false)
      (approved : desk.risk.approve order = true)
      (fills : (ExecutionEngine.simulate order book cfg.tickSize now).isFill = true) :
      Handles cfg book now desk (some order) ((desk.hear strategy).send.approve.fill order
        (ExecutionEngine.simulate order book cfg.tickSize now))

/-- Once the book lists the event, the desk moves in one of the listed ways. -/
theorem trade_handles (cfg : RuntimeConfig) (desk : Desk) {book : BoundedBook bookCapacity}
    (indexed : book.Indexed) (clock : EventClock) :
    Handles cfg book clock.simulateNow desk (desk.trade cfg book clock).1
      (desk.trade cfg book clock).2 := by
  have keeps := (desk.strategy.onMarketUpdate_decides indexed clock.bookDone).1
  unfold trade
  generalize desk.strategy.onMarketUpdate book clock.bookDone = decided at keeps ⊢
  dsimp only
  split
  · generalize NewOrder.mk _ _ _ _ _ _ = order
    dsimp only
    split
    · rename_i tripped
      exact .blocked keeps tripped
    · rename_i untripped
      rw [Bool.not_eq_true] at untripped
      split
      · rename_i refused
        rw [Bool.not_eq_true'] at refused
        exact .rejected keeps untripped refused
      · rename_i approved
        rw [Bool.not_eq_true', Bool.not_eq_false] at approved
        split
        · rename_i fills
          exact .filled keeps untripped approved fills
        · rename_i empty
          rw [Bool.not_eq_true] at empty
          exact .missed keeps untripped approved empty
  · exact .quiet keeps

end Desk

namespace Runtime

open ImbalanceStrategy (KeepsAccount Asks)

/-- Handling one event moves the desk in one of the listed ways. -/
theorem processEvent_handles {rt : Runtime} (wellFormed : rt.book.WellFormed) (clock : EventClock)
    (ev : MarketEvent) :
    Desk.Handles rt.cfg (rt.processEvent clock ev).book clock.simulateNow rt.desk
      (rt.sentOrder clock ev) (rt.processEvent clock ev).desk := by
  have bookWellFormed := processEvent_wellFormed wellFormed clock ev
  cases found : rt.withBook ev with
  | none =>
    rw [desk_of_withBook_none found, sentOrder, found]
    exact .quiet (KeepsAccount.refl _)
  | some ready =>
    rw [withBook_book found] at bookWellFormed ⊢
    have handles := Desk.trade_handles rt.cfg rt.desk bookWellFormed.indexed clock
    rw [processEvent_trade found] at handles
    exact handles

/-! ### What is known of a sent order -/

/-- An order of the strategy on a book, with the tops it was decided on and the target it was
sized for. -/
structure Placed (strategy : ImbalanceStrategy) (book : BoundedBook bookCapacity)
    (order : NewOrder) (bid ask : PriceLevel) (targetQty : ℚ) : Prop where
  topBid : book.topOfBook .bid = some bid
  topAsk : book.topOfBook .ask = some ask
  uncrossed : bid.price.toDouble strategy.tickSize < ask.price.toDouble strategy.tickSize
  asks : Asks strategy ((bid.price.toDouble strategy.tickSize +
    ask.price.toDouble strategy.tickSize) * (1 / 2)) order.side targetQty
  sized : OrderSizer.Sized book order.side targetQty order.price order.qty

/-- An order the strategy sends was placed by it on the book it reads. -/
theorem orderOn_placed {rt : Runtime} (wellFormed : rt.book.WellFormed)
    (positive : 0 < rt.strategy.tickSize) {clock : EventClock} {order : NewOrder}
    (sent : rt.orderOn clock = some order) :
    ∃ bid ask targetQty, Placed rt.strategy rt.book order bid ask targetQty := by
  unfold orderOn at sent
  dsimp only at sent
  split at sent
  · rename_i actionable
    obtain ⟨-, decides⟩ := rt.strategy.onMarketUpdate_decides wellFormed.indexed clock.bookDone
    obtain ⟨bid, ask, topBid, topAsk, uncrossed, -, asked⟩ := decides actionable
    obtain ⟨side, targetQty, asks, found, signal⟩ := asked actionable
    have sized := OrderSizer.computeOrder_sized wellFormed positive found
    have action : (OrderSizer.computeOrder rt.book rt.strategy.tickSize side targetQty).action =
        if side = .bid then .buy else .sell := by
      rw [(OrderSizer.computeOrder_eq found).2.2]
    rw [signal] at sent
    obtain rfl := Option.some.inj sent
    have orderSide : (rt.orderOf { OrderSizer.computeOrder rt.book rt.strategy.tickSize side
        targetQty with ts := clock.bookDone } clock.signalDone).side = side := by
      unfold orderOf
      dsimp only
      rw [action]
      cases side <;> rfl
    refine ⟨bid, ask, targetQty, topBid, topAsk, uncrossed, ?_, ?_⟩
    · rw [orderSide]
      exact asks
    · rw [orderSide]
      exact sized
  · cases sent

/-- The order an event sends is on the configured symbol, under the next number. -/
theorem sentOrder_symbolId {rt : Runtime} {clock : EventClock} {ev : MarketEvent}
    {order : NewOrder} (sent : rt.sentOrder clock ev = some order) :
    order.symbolId = rt.cfg.symbolId ∧ order.id = rt.nextOrderId := by
  obtain ⟨ready, found, ordered⟩ := Option.bind_eq_some_iff.mp sent
  obtain ⟨cfg, number, -⟩ := withBook_keeps found
  unfold orderOn at ordered
  dsimp only at ordered
  split at ordered
  · rw [← Option.some.inj ordered]
    exact ⟨congrArg RuntimeConfig.symbolId cfg, number⟩
  · cases ordered

/-- The order an event sends is placed by the strategy on the book with the event in it. -/
theorem sentOrder_placed {rt : Runtime} (wellFormed : rt.book.WellFormed)
    (positive : 0 < rt.strategy.tickSize) {clock : EventClock} {ev : MarketEvent} {order : NewOrder}
    (sent : rt.sentOrder clock ev = some order) :
    ∃ bid ask targetQty,
      Placed rt.strategy (rt.processEvent clock ev).book order bid ask targetQty := by
  have bookWellFormed := processEvent_wellFormed wellFormed clock ev
  obtain ⟨ready, found, ordered⟩ := Option.bind_eq_some_iff.mp sent
  obtain ⟨-, -, counted⟩ := withBook_keeps found
  have strategy : ready.strategy = rt.strategy := congrArg Desk.strategy counted
  rw [withBook_book found] at bookWellFormed ⊢
  rw [← strategy] at positive ⊢
  exact orderOn_placed bookWellFormed positive ordered

/-! ### Whole runs -/

theorem run_concat (cfg : RuntimeConfig) (events : List (EventClock × MarketEvent))
    (handled : EventClock × MarketEvent) :
    run cfg (events ++ [handled]) = (run cfg events).processEvent handled.1 handled.2 := by
  unfold run
  rw [List.foldl_append]
  rfl

/-- A property of fresh runtimes that every event keeps, on a well-formed book and under the
configuration, holds after every run. -/
theorem run_invariant {cfg : RuntimeConfig} (property : Runtime → Prop)
    (start : property (create cfg))
    (step : ∀ rt clock ev, rt.cfg = cfg → rt.book.WellFormed → property rt →
      property (rt.processEvent clock ev)) (events : List (EventClock × MarketEvent)) :
    (run cfg events).cfg = cfg ∧ (run cfg events).book.WellFormed ∧ property (run cfg events) := by
  induction events using List.reverseRecOn with
  | nil => exact ⟨rfl, BoundedBook.fresh_wellFormed, start⟩
  | append_singleton events handled inductionHypothesis =>
    obtain ⟨configured, wellFormed, holds⟩ := inductionHypothesis
    rw [run_concat]
    exact ⟨(processEvent_cfg _ _ _).trans configured, processEvent_wellFormed wellFormed _ _,
      step _ handled.1 handled.2 configured wellFormed holds⟩

end Runtime

end Trading
