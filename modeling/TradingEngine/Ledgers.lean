/-
This file compares the two ledgers a fill is booked in, the risk manager's and the
strategy's own.

Both ledgers book the same fills with the same tick size, so their cash is equal. The
strategy snaps a tiny position to zero and the risk manager does not: each fill can
part the two positions by one more `tinyQty`, and no more.

Along the way every run of a valid configuration is shown to trade the configured
symbol at the configured tick size, which is what makes every order it sends a sized
one and every approved order a filled one.
-/

import TradingEngine.OrderPath
import TradingEngine.ReferenceBook

namespace Trading

namespace ImbalanceStrategy

/-- A fill on the strategy's own symbol moves its state. -/
theorem state_onFill (strategy : ImbalanceStrategy) {report : ExecutionReport}
    (fills : report.isFill = true) (own : report.symbolId = strategy.symbol)
    (inside : strategy.symbol < maxSymbols) :
    (strategy.onFill report).state =
      PnlTracker.fillState strategy.state (signedQty report.side report.execQty.value)
        (report.execPrice.toDouble strategy.tickSize) := by
  unfold state onFill
  dsimp only
  rw [if_pos inside, if_pos inside, ← own]
  exact PnlTracker.state_onFill strategy.pnl fills (own ▸ inside) strategy.tickSize

end ImbalanceStrategy

namespace RiskManager

/-- A fill on a symbol moves its position and, with the cash check on, its cash. -/
theorem ledger_onFill {risk : RiskManager} {report : ExecutionReport}
    (fills : report.isFill = true) (inside : report.symbolId < maxSymbols)
    (enabled : risk.cashEnabled = true) :
    (risk.onFill report).position report.symbolId =
        risk.position report.symbolId + signedQty report.side report.execQty.value ∧
      (risk.onFill report).cash report.symbolId =
        risk.cash report.symbolId -
          signedQty report.side report.execQty.value * report.execPrice.toDouble risk.tick := by
  rw [onFill_eq fills inside enabled]
  unfold position cash
  rw [if_pos inside, if_pos inside, if_pos inside, if_pos inside]
  dsimp only
  rw [Slots.getD_setIfInBounds, if_pos ⟨rfl, inside⟩, Slots.getD_setIfInBounds,
    if_pos ⟨rfl, inside⟩]
  exact ⟨rfl, rfl⟩

end RiskManager

/-! ### The two ledgers -/

namespace Desk

open ImbalanceStrategy (KeepsAccount)

/-- The desk trades the configured symbol, at the configured tick size and with the configured
parameters, and its two ledgers agree: on the cash, and on the position up to one `tinyQty` for
each fill. -/
structure Ledgers (cfg : RuntimeConfig) (desk : Desk) : Prop where
  params : desk.strategy.params = (ImbalanceStrategy.create cfg.strategy).params
  symbol : desk.strategy.symbol = cfg.symbolId
  tickSize : desk.strategy.tickSize = cfg.tickSize
  enabled : desk.risk.cashEnabled = true
  tick : desk.risk.tick = cfg.tickSize
  cash : desk.risk.cash cfg.symbolId = desk.strategy.cash
  position : |desk.risk.position cfg.symbolId - desk.strategy.position| ≤ tinyQty * desk.fills

/-- What leaves both accounts alone keeps the two ledgers in agreement. -/
theorem Ledgers.keepsAccount {cfg : RuntimeConfig} {before after : Desk}
    (ledgers : Ledgers cfg before) (keeps : KeepsAccount before.strategy after.strategy)
    (risk : after.risk = before.risk) (fills : after.fills = before.fills) :
    Ledgers cfg after where
  params := keeps.params.trans ledgers.params
  symbol := keeps.symbol.trans ledgers.symbol
  tickSize := keeps.tickSize.trans ledgers.tickSize
  enabled := by rw [risk]; exact ledgers.enabled
  tick := by rw [risk]; exact ledgers.tick
  cash := by
    unfold ImbalanceStrategy.cash
    rw [risk, keeps.state]
    exact ledgers.cash
  position := by
    unfold ImbalanceStrategy.position
    rw [risk, fills, keeps.state]
    exact ledgers.position

/-- Snapping moves a position by at most `tinyQty`. -/
theorem abs_sub_snapped (position : ℚ) :
    |position - if |position| ≤ tinyQty then 0 else position| ≤ tinyQty := by
  split
  · rw [sub_zero]
    assumption
  · rw [sub_self, abs_zero]
    exact le_of_lt tinyQty_pos

/-- A fill that both ledgers book keeps them in agreement, but for one more snap. -/
theorem Ledgers.fill {cfg : RuntimeConfig} {desk : Desk} {order : NewOrder}
    {report : ExecutionReport} (ledgers : Ledgers cfg desk) (inside : cfg.symbolId < maxSymbols)
    (fills : report.isFill = true) (symbol : report.symbolId = cfg.symbolId) :
    Ledgers cfg (desk.fill order report) := by
  have own : report.symbolId = desk.strategy.symbol := symbol.trans ledgers.symbol.symm
  have booked := RiskManager.ledger_onFill fills (symbol ▸ inside) ledgers.enabled
  rw [symbol] at booked
  have state := desk.strategy.state_onFill fills own (ledgers.symbol ▸ inside)
  rw [ledgers.tickSize] at state
  refine ⟨ledgers.params, ledgers.symbol, ledgers.tickSize, ?_, ?_, ?_, ?_⟩
  · show (desk.risk.onFill report).cashEnabled = true
    rw [RiskManager.onFill_eq fills (symbol ▸ inside) ledgers.enabled]
    exact ledgers.enabled
  · show (desk.risk.onFill report).tick = cfg.tickSize
    rw [RiskManager.onFill_eq fills (symbol ▸ inside) ledgers.enabled]
    exact ledgers.tick
  · show (desk.risk.onFill report).cash cfg.symbolId = (desk.strategy.onFill report).state.cash
    rw [booked.2, state, PnlTracker.fillState_cash, ledgers.cash, ledgers.tick]
    rfl
  · show |(desk.risk.onFill report).position cfg.symbolId -
      (desk.strategy.onFill report).state.position| ≤ tinyQty * ((desk.fills + 1 : ℕ) : ℚ)
    rw [booked.1, state, PnlTracker.fillState_position, Nat.cast_add_one, mul_add, mul_one]
    have moved : desk.risk.position cfg.symbolId + signedQty report.side report.execQty.value -
        (desk.strategy.state.position + signedQty report.side report.execQty.value) =
        desk.risk.position cfg.symbolId - desk.strategy.position := by
      rw [add_sub_add_right_eq_sub]
      rfl
    refine le_trans (abs_sub_le _ (desk.strategy.state.position +
      signedQty report.side report.execQty.value) _) (add_le_add ?_ (abs_sub_snapped _))
    rw [moved]
    exact ledgers.position

/-- An event keeps the two ledgers in agreement. -/
theorem Ledgers.handles {cfg : RuntimeConfig} {book : BoundedBook bookCapacity} {now : Timestamp}
    {before after : Desk} {sent : Option NewOrder} (ledgers : Ledgers cfg before)
    (inside : cfg.symbolId < maxSymbols)
    (symbol : ∀ order, sent = some order → order.symbolId = cfg.symbolId)
    (handles : Handles cfg book now before sent after) : Ledgers cfg after := by
  cases handles with
  | quiet keeps => exact ledgers.keepsAccount keeps rfl rfl
  | blocked keeps tripped => exact ledgers.keepsAccount keeps rfl rfl
  | rejected keeps untripped refused => exact ledgers.keepsAccount keeps rfl rfl
  | missed keeps untripped approved empty => exact ledgers.keepsAccount keeps rfl rfl
  | @filled strategy order keeps untripped approved fills =>
    have approve : Ledgers cfg (before.hear strategy).send.approve :=
      ledgers.keepsAccount keeps rfl rfl
    exact approve.fill inside fills (symbol order rfl)

end Desk

namespace Runtime

theorem create_strategy {cfg : RuntimeConfig} (inside : cfg.symbolId < maxSymbols) :
    (create cfg).strategy =
      { ((ImbalanceStrategy.create cfg.strategy).setSymbol cfg.symbolId cfg.tickSize) with
        pnl := PnlTracker.fresh.seedCash cfg.symbolId cfg.initialCash } :=
  if_pos inside

/-- A fresh runtime's strategy is flat and holds the initial cash. -/
theorem create_state {cfg : RuntimeConfig} (inside : cfg.symbolId < maxSymbols) :
    (create cfg).strategy.state = ⟨cfg.initialCash, 0, 0, 0⟩ := by
  rw [create_strategy inside]
  show (if cfg.symbolId < maxSymbols then
    (PnlTracker.fresh.seedCash cfg.symbolId cfg.initialCash).state cfg.symbolId else {}) = _
  rw [if_pos inside, PnlTracker.state_seedCash _ inside]
  have blank : PnlTracker.fresh.state cfg.symbolId = {} := Slots.getD_replicate cfg.symbolId _
  rw [blank]

/-- The risk manager as the constructor configures it. -/
theorem create_risk {cfg : RuntimeConfig} (valid : cfg.Valid) :
    (create cfg).risk.cashEnabled = true ∧ (create cfg).risk.tick = cfg.tickSize ∧
      (create cfg).risk.positions.getD cfg.symbolId 0 = 0 ∧
      (create cfg).risk.maxPositions.getD cfg.symbolId 0 = cfg.maxPosition ∧
      (create cfg).risk.cashes.getD cfg.symbolId 0 = cfg.initialCash := by
  have risk : (create cfg).risk = RiskManager.fresh.configure cfg.symbolId cfg.maxPosition
      cfg.initialCash cfg.tickSize := rfl
  unfold RiskManager.configure at risk
  rw [if_neg (Nat.not_le.mpr valid.symbolId), if_pos valid.initialCash] at risk
  rw [risk]
  refine ⟨rfl, rfl, Slots.getD_replicate _ _, ?_, ?_⟩
  · exact (Slots.getD_setIfInBounds _ _ _ _ _).trans (if_pos ⟨rfl, valid.symbolId⟩)
  · exact (Slots.getD_setIfInBounds _ _ _ _ _).trans (if_pos ⟨rfl, valid.symbolId⟩)

theorem create_ledgers {cfg : RuntimeConfig} (valid : cfg.Valid) :
    Desk.Ledgers cfg (create cfg).desk := by
  have inside := valid.symbolId
  have state := create_state inside
  obtain ⟨enabled, tick, position, -, cash⟩ := create_risk valid
  refine ⟨?_, ?_, ?_, enabled, tick, ?_, ?_⟩
  · show (create cfg).strategy.params = _
    rw [create_strategy inside]
    rfl
  · show (create cfg).strategy.symbol = _
    rw [create_strategy inside]
    rfl
  · show (create cfg).strategy.tickSize = _
    rw [create_strategy inside]
    rfl
  · show (create cfg).risk.cash cfg.symbolId = (create cfg).strategy.state.cash
    rw [RiskManager.cash, if_pos inside, cash, state]
  · show |(create cfg).risk.position cfg.symbolId - (create cfg).strategy.state.position| ≤ _
    rw [RiskManager.position, if_pos inside, position, state, sub_zero, abs_zero]
    exact mul_nonneg (le_of_lt tinyQty_pos) (Nat.cast_nonneg _)

/-- A runtime that trades as it is configured: under the configuration, on a well-formed book,
with ledgers that agree. -/
structure Sound (cfg : RuntimeConfig) (rt : Runtime) : Prop where
  configured : rt.cfg = cfg
  wellFormed : rt.book.WellFormed
  ledgers : Desk.Ledgers cfg rt.desk

theorem run_sound {cfg : RuntimeConfig} (valid : cfg.Valid)
    (events : List (EventClock × MarketEvent)) : Sound cfg (run cfg events) := by
  have invariant := run_invariant (fun rt => Desk.Ledgers cfg rt.desk) (create_ledgers valid) ?_
    events
  · exact ⟨invariant.1, invariant.2.1, invariant.2.2⟩
  · rintro rt clock ev rfl wellFormed ledgers
    exact ledgers.handles valid.symbolId (fun order sent => (sentOrder_symbolId sent).1)
      (processEvent_handles wellFormed clock ev)

/-- Every order of a sound runtime was placed by the strategy on the book it is filled from. -/
theorem Sound.placed {cfg : RuntimeConfig} {rt : Runtime} (sound : Sound cfg rt)
    (positive : 0 < cfg.tickSize) {clock : EventClock} {ev : MarketEvent} {order : NewOrder}
    (sent : rt.sentOrder clock ev = some order) :
    ∃ bid ask targetQty,
      Placed rt.strategy (rt.processEvent clock ev).book order bid ask targetQty :=
  sentOrder_placed sound.wellFormed (sound.ledgers.tickSize.symm ▸ positive) sent

/-- Every order a sound runtime sends would be filled, up to the tolerance. -/
theorem Sound.fills {cfg : RuntimeConfig} {rt : Runtime} (sound : Sound cfg rt)
    (positive : 0 < cfg.tickSize) {clock : EventClock} {ev : MarketEvent} {order : NewOrder}
    (sent : rt.sentOrder clock ev = some order) (now : Timestamp) :
    let report := ExecutionEngine.simulate order (rt.processEvent clock ev).book cfg.tickSize now
    report.isFill = true ∧ order.qty.value - tinyQty ≤ report.execQty.value ∧
      report.execQty.value ≤ order.qty.value := by
  obtain ⟨bid, ask, targetQty, placed⟩ := sound.placed positive sent
  have wellFormed := processEvent_wellFormed sound.wellFormed clock ev
  exact ExecutionEngine.simulate_sized wellFormed positive placed.sized now

/-- After every run the two ledgers agree: the same cash, and positions no further apart than
one `tinyQty` for each fill. -/
theorem run_ledgers_agree (cfg : RuntimeConfig) (valid : cfg.Valid)
    (events : List (EventClock × MarketEvent)) :
    (run cfg events).risk.cash cfg.symbolId = (run cfg events).strategy.cash ∧
      |(run cfg events).risk.position cfg.symbolId - (run cfg events).strategy.position| ≤
        tinyQty * (run cfg events).metrics.fills :=
  have ledgers := (run_sound valid events).ledgers
  ⟨ledgers.cash, ledgers.position⟩

/-- Two fills are booked, of five and of three. -/
theorem run_ledgers_agree_tradingDay :
    (run boldConfig tradingDay).metrics.fills = 2 ∧
      (run boldConfig tradingDay).strategy.position = 2 ∧
      (run boldConfig tradingDay).risk.cash 0 = (run boldConfig tradingDay).strategy.cash ∧
      |(run boldConfig tradingDay).risk.position 0 -
          (run boldConfig tradingDay).strategy.position| ≤
        tinyQty * (run boldConfig tradingDay).metrics.fills :=
  ⟨run_tradingDay.2.2.2.2.1, run_tradingDay.2.2.2.2.2,
    run_ledgers_agree boldConfig boldConfig_valid tradingDay⟩

/-! ### A first order -/

/-- A fresh risk manager lets a buy through when it fits the position limit and the cash. -/
theorem create_approve_iff {cfg : RuntimeConfig} (valid : cfg.Valid) {order : NewOrder}
    (symbol : order.symbolId = cfg.symbolId) (buy : order.side = .bid)
    (positive : 0 < order.qty.value) :
    (create cfg).risk.approve order = true ↔
      order.qty.value ≤ cfg.maxPosition ∧
        order.qty.value * order.price.toDouble cfg.tickSize ≤ cfg.initialCash := by
  obtain ⟨enabled, tick, position, limit, cash⟩ := create_risk valid
  rw [RiskManager.approve_iff, symbol, buy, enabled, tick, position, limit, cash, zero_add]
  simp only [signedQty, if_true, mul_one, true_implies]
  refine ⟨fun respects => ⟨respects.2.1, respects.2.2.2⟩, fun fits =>
    ⟨valid.symbolId, fits.1, ?_, fits.2⟩⟩
  exact le_trans (neg_nonpos.mpr (le_of_lt valid.maxPosition)) (le_of_lt positive)

theorem entryQuote_priced (tickSize : ℚ) : entryQuote.2.PricedFromOne tickSize := by
  show ∀ level ∈ _, _
  decide +kernel

theorem entryQuote_depth (book : BoundedBook bookCapacity) (n : Nat) :
    (book.applySnapshot entryQuote.2.snap).depth .bid n =
        [(⟨⟨10000⟩, ⟨1000⟩⟩ : PriceLevel)].take n ∧
      (book.applySnapshot entryQuote.2.snap).depth .ask n =
        [(⟨⟨10001⟩, ⟨100⟩⟩ : PriceLevel)].take n := by
  have inside : ∀ call ∈ entryQuote.2.snap.calls.tail ++ [],
      BoundedBook.Call.InBand bookCapacity 9000 call := by
    decide +kernel
  have bids : ((entryQuote.2.snap.calls.tail ++ []).foldl ReferenceBook.call
      ReferenceBook.empty).levels .bid = [⟨⟨10000⟩, ⟨1000⟩⟩] := by
    decide +kernel
  have asks : ((entryQuote.2.snap.calls.tail ++ []).foldl ReferenceBook.call
      ReferenceBook.empty).levels .ask = [⟨⟨10001⟩, ⟨100⟩⟩] := by
    decide +kernel
  have depth := depth_rebuilt book inside
  generalize entryQuote.2.snap = snap at *
  rw [← bids, ← asks]
  exact ⟨depth .bid n, depth .ask n⟩

section Entry

variable {fraction : ℚ} {book : BoundedBook bookCapacity}

theorem entryQuote_sized (positive : 0 < fraction) (atMost : fraction ≤ 1)
    (asks : ∀ n, book.depth .ask n = [(⟨⟨10001⟩, ⟨100⟩⟩ : PriceLevel)].take n) :
    OrderSizer.computeOrder book (1 / 100) .bid (fraction * 10000 / (20001 / 200)) =
      ⟨.buy, ⟨10001⟩, ⟨fraction * 10000 / (20001 / 200)⟩, 0⟩ := by
  have target : ¬fraction * 10000 / (20001 / 200) ≤ 0 := by
    rw [not_le]
    positivity
  have small : fraction * 10000 / (20001 / 200) ≤ 100 := by
    rw [div_le_iff₀ (by norm_num)]
    linarith
  unfold OrderSizer.computeOrder
  simp only [if_true, asks, if_neg target, maxBookWalk, List.take, OrderSizer.walk, sub_zero,
    zero_add, min_eq_left small, le_refl]
  rw [if_neg (List.cons_ne_nil _ _)]
  exact congrArg (fun price => Signal.mk .buy price _ 0)
    (Price.fromDouble_toDouble ⟨10001⟩ (by norm_num))

/-- A strategy as the constructor leaves it buys on the snapshot. -/
theorem entryQuote_signal (positive : 0 < fraction) (atMost : fraction ≤ 1)
    {strategy : ImbalanceStrategy} (params : strategy.params = { tradeFraction := fraction })
    (tickSize : strategy.tickSize = 1 / 100) (state : strategy.state = ⟨10000, 0, 0, 0⟩)
    (none : strategy.rollingCount = 0) (first : strategy.rollingHead = 0)
    (untraded : strategy.lastTradeNs = 0) (heeded : strategy.skipNextSignal = false)
    (bids : ∀ n, book.depth .bid n = [(⟨⟨10000⟩, ⟨1000⟩⟩ : PriceLevel)].take n)
    (asks : ∀ n, book.depth .ask n = [(⟨⟨10001⟩, ⟨100⟩⟩ : PriceLevel)].take n) :
    (strategy.onMarketUpdate book 3000000000).1 =
      ⟨.buy, ⟨10001⟩, ⟨fraction * 10000 / (20001 / 200)⟩, 3000000000⟩ := by
  have window : strategy.params.smoothingWindow = 5 := by rw [params]
  have mid : (Price.toDouble ⟨10000⟩ (1 / 100) + Price.toDouble ⟨10001⟩ (1 / 100)) * (1 / 2) =
      20001 / 200 := by
    simp only [Price.toDouble]
    norm_num
  rw [ImbalanceStrategy.onMarketUpdate_eq (by rw [bids, params]; rfl) (by rw [asks, params]; rfl)
    (by rw [tickSize]; simp only [Price.toDouble]; norm_num)
    (by simp only [ImbalanceStrategy.totalSize, List.foldl_cons]; norm_num) heeded, tickSize]
  generalize recordedEq : strategy.record _ = recorded
  have keeps : ImbalanceStrategy.KeepsAccount strategy recorded := by
    rw [← recordedEq]
    exact ⟨rfl, rfl, rfl, rfl⟩
  have smoothed : recorded.smoothed = 9 / 11 := by
    rw [← recordedEq, ImbalanceStrategy.smoothed_record_first none first (by omega)]
    simp only [ImbalanceStrategy.totalSize, List.foldl_cons]
    norm_num
  have recordedState : recorded.state = ⟨10000, 0, 0, 0⟩ := keeps.state.trans state
  have recordedParams : recorded.params = { tradeFraction := fraction } :=
    keeps.params.trans params
  have cash : recorded.cash = 10000 := congrArg PnlState.cash recordedState
  have last : recorded.lastTradeNs = 0 := by
    rw [← recordedEq]
    exact untraded
  rw [ImbalanceStrategy.decision_openLong (congrArg PnlState.position recordedState)
    (by rw [cash]; norm_num) (by rw [recordedParams, last]; norm_num)
    (by rw [recordedParams]; simp only [Price.toDouble]; norm_num)
    (by rw [recordedParams, smoothed]; norm_num), mid, cash, recordedParams, keeps.tickSize,
    tickSize, entryQuote_sized positive atMost asks]
  rfl

end Entry

/-- The order of a fresh runtime on the snapshot: the fraction of the cash at the mid, limited at
the ask. -/
theorem entryQuote_order {fraction maxPosition : ℚ} {threshold window : Nat}
    (positive : 0 < fraction) (atMost : fraction ≤ 1) :
    (create (entryConfig fraction maxPosition threshold window)).sentOrder entryQuote.1
        entryQuote.2 =
      some ⟨1, 0, .bid, ⟨10001⟩, ⟨fraction * 10000 / (20001 / 200)⟩, 3000000001⟩ := by
  have inside : (entryConfig fraction maxPosition threshold window).symbolId < maxSymbols :=
    Nat.le_add_left 1 63
  have strategy := create_strategy inside
  have state := create_state inside
  have order : ∀ signal now, (create (entryConfig fraction maxPosition threshold window)).orderOf
      signal now = ⟨1, 0, if signal.action = .buy then .bid else .ask, signal.price, signal.qty,
        now⟩ :=
    fun _ _ => rfl
  generalize create (entryConfig fraction maxPosition threshold window) = rt at *
  have signal := entryQuote_signal positive atMost (by rw [strategy]; rfl) (by rw [strategy]; rfl)
    state (by rw [strategy]; rfl) (by rw [strategy]; rfl) (by rw [strategy]; rfl)
    (by rw [strategy]; rfl) (fun n => (entryQuote_depth rt.book n).1)
    (fun n => (entryQuote_depth rt.book n).2)
  have found : rt.withBook entryQuote.2 =
      some (rt.countMessage.rebuildBook entryQuote.2.snap) := by
    unfold withBook
    rw [show entryQuote.2.kind = .snapshot from rfl]
  have ordered : ∀ (snap : MarketEvent.Snap) (clock : EventClock),
      (rt.countMessage.rebuildBook snap).orderOn clock =
        if (rt.strategy.onMarketUpdate (rt.book.applySnapshot snap) clock.bookDone).1.isActionable
        then some (rt.orderOf (rt.strategy.onMarketUpdate (rt.book.applySnapshot snap)
          clock.bookDone).1 clock.signalDone) else Option.none :=
    fun _ _ => rfl
  unfold sentOrder
  rw [found, Option.bind_some, ordered, show entryQuote.1.bookDone = 3000000000 from rfl, signal,
    order]
  rfl

end Runtime

end Trading
