/-
This file reconciles the order counters over whole runs: every signal becomes one numbered
order, every order is blocked, rejected or approved, and every approved order fills. The
last part is where the counters meet the book: the order was sized against the very levels
it is then filled from.

The number of the next order, which is no metric, is reconciled with them. No fill is
counted as partial, because what a sized order can miss is at most the simulator's
tolerance, and a partial fill is one that misses more.
-/

import TradingEngine.Ledgers

namespace Trading

namespace Desk

/-- The counters reconcile. -/
structure Reconciled (desk : Desk) : Prop where
  signals : desk.signalsGenerated = desk.ordersSent
  numbers : desk.nextOrderId = desk.ordersSent + 1
  outcomes : desk.ordersSent =
    desk.circuitBlocked + desk.ordersRejected + desk.ordersApproved
  fills : desk.fills = desk.ordersApproved
  whole : desk.partialFills = 0

/-- Handling an event keeps the counters reconciled, when the order it sends can be filled up to
the tolerance. -/
theorem Reconciled.handles {cfg : RuntimeConfig} {book : BoundedBook bookCapacity}
    {now : Timestamp} {before after : Desk} {sent : Option NewOrder}
    (reconciled : Reconciled before) (handles : Handles cfg book now before sent after)
    (fillable : ∀ order, sent = some order →
      (ExecutionEngine.simulate order book cfg.tickSize now).isFill = true ∧
        order.qty.value - tinyQty ≤
          (ExecutionEngine.simulate order book cfg.tickSize now).execQty.value) :
    Reconciled after := by
  obtain ⟨signals, numbers, outcomes, fills, whole⟩ := reconciled
  cases handles with
  | quiet => exact ⟨signals, numbers, outcomes, fills, whole⟩
  | blocked =>
    refine ⟨congrArg (· + 1) signals, congrArg (· + 1) numbers, ?_, fills, whole⟩
    show before.ordersSent + 1 = before.circuitBlocked + 1 + before.ordersRejected +
      before.ordersApproved
    omega
  | rejected =>
    refine ⟨congrArg (· + 1) signals, congrArg (· + 1) numbers, ?_, fills, whole⟩
    show before.ordersSent + 1 = before.circuitBlocked + (before.ordersRejected + 1) +
      before.ordersApproved
    omega
  | @missed _ order _ _ _ empty =>
    rw [(fillable order rfl).1] at empty
    cases empty
  | @filled _ order =>
    refine ⟨congrArg (· + 1) signals, congrArg (· + 1) numbers, congrArg (· + 1) outcomes,
      congrArg (· + 1) fills, ?_⟩
    exact (if_neg (not_lt.mpr (fillable order rfl).2)).trans whole

end Desk

namespace Runtime

theorem create_reconciled (cfg : RuntimeConfig) : Desk.Reconciled (create cfg).desk :=
  ⟨rfl, rfl, rfl, rfl, rfl⟩

theorem Sound.reconciled {cfg : RuntimeConfig} {rt : Runtime} (sound : Sound cfg rt)
    (positive : 0 < cfg.tickSize) (reconciled : Desk.Reconciled rt.desk) (clock : EventClock)
    (ev : MarketEvent) : Desk.Reconciled (rt.processEvent clock ev).desk := by
  have handles := processEvent_handles sound.wellFormed clock ev
  rw [sound.configured] at handles
  refine reconciled.handles handles fun order sent => ?_
  obtain ⟨fills, least, -⟩ := sound.fills positive sent clock.simulateNow
  exact ⟨fills, least⟩

/-- After every run the order counters reconcile, every approved order has filled, and none
partially. -/
theorem run_counters_reconcile (cfg : RuntimeConfig) (valid : cfg.Valid)
    (events : List (EventClock × MarketEvent)) :
    let rt := run cfg events
    rt.metrics.signalsGenerated = rt.metrics.ordersSent ∧
      rt.nextOrderId = rt.metrics.ordersSent + 1 ∧
      rt.metrics.ordersSent =
        rt.metrics.circuitBlocked + rt.metrics.ordersRejected + rt.metrics.ordersApproved ∧
      rt.metrics.fills = rt.metrics.ordersApproved ∧ rt.metrics.partialFills = 0 := by
  intro rt
  have reconciled : Desk.Reconciled rt.desk := by
    show Desk.Reconciled (run cfg events).desk
    induction events using List.reverseRecOn with
    | nil => exact create_reconciled cfg
    | append_singleton events handled inductionHypothesis =>
      rw [run_concat]
      exact (run_sound valid events).reconciled valid.tickSize inductionHypothesis _ _
  exact ⟨reconciled.signals, reconciled.numbers, reconciled.outcomes, reconciled.fills,
    reconciled.whole⟩

/-- Three orders: one is refused, two are approved and fill. -/
theorem run_counters_reconcile_tradingDay :
    (run boldConfig tradingDay).metrics.ordersSent = 3 ∧
      (run boldConfig tradingDay).metrics.ordersRejected = 1 ∧
      (run boldConfig tradingDay).metrics.ordersSent =
        (run boldConfig tradingDay).metrics.circuitBlocked +
          (run boldConfig tradingDay).metrics.ordersRejected +
          (run boldConfig tradingDay).metrics.ordersApproved ∧
      (run boldConfig tradingDay).metrics.fills =
        (run boldConfig tradingDay).metrics.ordersApproved ∧
      (run boldConfig tradingDay).metrics.partialFills = 0 :=
  ⟨run_tradingDay.2.2.1, run_tradingDay.2.2.2.1,
    (run_counters_reconcile boldConfig boldConfig_valid tradingDay).2.2⟩

end Runtime

end Trading
