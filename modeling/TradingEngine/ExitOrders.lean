/-
This file is about the way out of a position. While the strategy holds one, an event it
heeds sends an order exactly when the move since entry reaches the take-profit or the
stop-loss, and the order is for the whole position or all that the walked levels hold.

What becomes of the order does not depend on luck. The breaker may hold it back. Past the
breaker a sale is always approved, and a purchase unless it costs more than the cash: the
two ledgers are too close to one another for the position limit to stand in the way of a
close. An approved close fills to within the simulator's tolerance.
-/

import TradingEngine.AverageEntry
import TradingEngine.OrderHistory
import TradingEngine.SizerLimit

namespace Trading

open Transition

namespace ImbalanceStrategy

variable {capacity : Nat}

/-! ### When the way out is taken -/

/-- The side that closes the position. -/
def closingSide (strategy : ImbalanceStrategy) : Side :=
  if 0 < strategy.position then .ask else .bid

/-- The gain of a unit since entry, at the price the position would be closed at. -/
def exitGain (strategy : ImbalanceStrategy) (bid ask : PriceLevel) : ℚ :=
  if 0 < strategy.position then bid.price.toDouble strategy.tickSize - strategy.avgEntry
  else strategy.avgEntry - ask.price.toDouble strategy.tickSize

/-- While holding, the decision is to close the whole position or to wait. -/
theorem decision_holding {strategy : ImbalanceStrategy} (held : strategy.position ≠ 0)
    (book : BoundedBook capacity) (now : Timestamp) (bid ask : PriceLevel) :
    strategy.decision book now (bid.price.toDouble strategy.tickSize)
        (ask.price.toDouble strategy.tickSize) =
      if exits strategy.params (strategy.exitGain bid ask) strategy.avgEntry then
        strategy.emit (OrderSizer.computeOrder book strategy.tickSize strategy.closingSide
          |strategy.position|) now
      else (Signal.none, strategy) := by
  have state : strategy.state.position = strategy.position := rfl
  unfold decision exitGain closingSide
  dsimp only
  rw [state]
  rcases lt_or_gt_of_ne held with short | long
  · rw [if_neg (not_lt.mpr (le_of_lt short)), if_pos short, if_neg (not_lt.mpr (le_of_lt short)),
      if_neg (not_lt.mpr (le_of_lt short)), abs_of_neg short]
    rfl
  · rw [if_pos long, if_pos long, if_pos long, abs_of_pos long]
    rfl

/-- An imbalance is recorded on an uncrossed two-sided book. -/
theorem imbalanceOf_eq_some {strategy : ImbalanceStrategy} {book : BoundedBook capacity}
    {imbalance : ℚ} (found : strategy.imbalanceOf book = some imbalance) :
    ∃ bid bids ask asks, book.depth .bid strategy.params.depthLevels = bid :: bids ∧
      book.depth .ask strategy.params.depthLevels = ask :: asks ∧
      bid.price.toDouble strategy.tickSize < ask.price.toDouble strategy.tickSize ∧
      0 < totalSize (bid :: bids) + totalSize (ask :: asks) := by
  unfold imbalanceOf at found
  split at found
  · rename_i bid bids ask asks bidSide askSide
    dsimp only at found
    split at found
    · cases found
    · rename_i uncrossed
      split at found
      · cases found
      · rename_i sizes
        exact ⟨bid, bids, ask, asks, bidSide, askSide, not_le.mp uncrossed, not_le.mp sizes⟩
  · cases found

/-- While holding and heeding the book, an update sends an order exactly when the move since entry
is out of bounds. -/
theorem onMarketUpdate_holding [ValidCapacity capacity] {strategy : ImbalanceStrategy}
    (held : strategy.position ≠ 0) (heeds : strategy.skipNextSignal = false)
    {book : BoundedBook capacity} (wellFormed : book.WellFormed) {imbalance : ℚ}
    (found : strategy.imbalanceOf book = some imbalance) (now : Timestamp) :
    ∃ bid ask, book.topOfBook .bid = some bid ∧ book.topOfBook .ask = some ask ∧
      ((strategy.onMarketUpdate book now).1.isActionable = true ↔
        exits strategy.params (strategy.exitGain bid ask) strategy.avgEntry = true) := by
  obtain ⟨bid, bids, ask, asks, bidSide, askSide, uncrossed, sizes⟩ := imbalanceOf_eq_some found
  have topBid := BoundedBook.topOfBook_of_depth wellFormed.indexed bidSide
  have topAsk := BoundedBook.topOfBook_of_depth wellFormed.indexed askSide
  refine ⟨bid, ask, topBid, topAsk, ?_⟩
  rw [onMarketUpdate_eq bidSide askSide uncrossed sizes heeds]
  generalize recordedEq : strategy.record _ = recorded
  have same : recorded.params = strategy.params ∧ recorded.state = strategy.state ∧
      recorded.tickSize = strategy.tickSize := by
    rw [← recordedEq]
    exact ⟨rfl, rfl, rfl⟩
  obtain ⟨params, state, tickSize⟩ := same
  have position : recorded.position = strategy.position := congrArg PnlState.position state
  have entry : recorded.avgEntry = strategy.avgEntry := congrArg PnlState.avgEntry state
  have gain : recorded.exitGain bid ask = strategy.exitGain bid ask := by
    unfold exitGain
    rw [position, tickSize, entry]
  rw [← tickSize, decision_holding (position ▸ held), params, gain, entry]
  split
  · rename_i reached
    have sized : (OrderSizer.computeOrder book recorded.tickSize recorded.closingSide
        |recorded.position|).isActionable = true := by
      refine OrderSizer.computeOrder_actionable wellFormed (abs_pos.mpr (position ▸ held)) ?_
      unfold closingSide
      split
      · exact BoundedBook.depth_ne_nil wellFormed.indexed topBid (by decide)
      · exact BoundedBook.depth_ne_nil wellFormed.indexed topAsk (by decide)
    unfold emit
    rw [sized]
    exact ⟨fun _ => reached, fun _ => sized⟩
  · rename_i inside
    exact ⟨nofun, fun reached => absurd reached inside⟩

end ImbalanceStrategy

/-! ### What the way out asks for -/

namespace ImbalanceStrategy

/-- A close of a held position: its side, and its size as far as the walked levels go. -/
structure Closes (strategy : ImbalanceStrategy) (book : BoundedBook bookCapacity)
    (order : NewOrder) : Prop where
  side : order.side = strategy.closingSide
  size : order.qty.value =
    min |strategy.position| (offered (book.depth (opposite order.side) maxBookWalk))
  positive : 0 < order.qty.value

theorem Asks.closing {strategy : ImbalanceStrategy} {mid targetQty : ℚ} {side : Side}
    (held : strategy.position ≠ 0) (asks : Asks strategy mid side targetQty) :
    side = strategy.closingSide ∧ targetQty = |strategy.position| := by
  cases asks with
  | closeLong long => exact ⟨(if_pos long).symm, (abs_of_pos long).symm⟩
  | closeShort short =>
    exact ⟨(if_neg (not_lt.mpr (le_of_lt short))).symm, (abs_of_neg short).symm⟩
  | openLong flat => exact absurd flat held
  | openShort flat => exact absurd flat held

end ImbalanceStrategy

namespace Runtime

open ImbalanceStrategy (Asks)

/-- While the strategy holds a position and its skip is over, an event it can read the book after
sends an order exactly when the move since entry is out of bounds. -/
theorem sentOrder_holding {rt : Runtime} (indexed : rt.book.WellFormed)
    (held : rt.strategy.position ≠ 0) (heeds : rt.strategy.skipNextSignal = false)
    {event : MarketEvent} (clock : EventClock) {imbalance : ℚ}
    (read : rt.sample event = some imbalance) :
    ∃ bid ask, (rt.processEvent clock event).book.topOfBook .bid = some bid ∧
      (rt.processEvent clock event).book.topOfBook .ask = some ask ∧
      ((rt.sentOrder clock event).isSome = true ↔
        ImbalanceStrategy.exits rt.strategy.params (rt.strategy.exitGain bid ask)
          rt.strategy.avgEntry = true) := by
  have wellFormed := processEvent_wellFormed indexed clock event
  cases rt.processEvent_remembers clock event with
  | early unsampled =>
    rw [unsampled] at read
    cases read
  | updated decided update getsThere sampled sent same =>
    rw [sent, update]
    exact ImbalanceStrategy.onMarketUpdate_holding held heeds wellFormed (sampled ▸ read) _

/-- An event that sends an order had its imbalance read. -/
theorem sample_of_sent {rt : Runtime} {clock : EventClock} {event : MarketEvent}
    {order : NewOrder} (sent : rt.sentOrder clock event = some order) :
    ∃ imbalance, rt.sample event = some imbalance := by
  cases rt.processEvent_remembers clock event with
  | early unsampled unsent same => cases sent.symm.trans unsent
  | updated decided update getsThere sampled isSent same =>
    have updates := rt.strategy.onMarketUpdate_updates (rt.processEvent clock event).book
      clock.bookDone
    rw [← update] at updates
    obtain ⟨-, imbalance, found, -⟩ := updates.sends (isSent.symm.trans (congrArg _ sent))
    exact ⟨imbalance, sampled.trans found⟩

/-- Every order of a strategy that holds a position closes it. -/
theorem Sound.closes {cfg : RuntimeConfig} {rt : Runtime} (sound : Sound cfg rt)
    (positive : 0 < cfg.tickSize) (held : rt.strategy.position ≠ 0) {clock : EventClock}
    {ev : MarketEvent} {order : NewOrder} (sent : rt.sentOrder clock ev = some order) :
    rt.strategy.Closes (rt.processEvent clock ev).book order := by
  obtain ⟨bid, ask, targetQty, placed⟩ := sound.placed positive sent
  have wellFormed := processEvent_wellFormed sound.wellFormed clock ev
  obtain ⟨side, target⟩ := Asks.closing held placed.asks
  have sizes := OrderSizer.depth_sizes wellFormed (opposite order.side) maxBookWalk
  have quantity := placed.sized.quantity
  have some : 0 < targetQty := placed.sized.target
  rw [min_offered_reached some sizes, target] at quantity
  refine ⟨side, quantity, ?_⟩
  have filled := sound.fills positive sent clock.simulateNow
  exact lt_of_lt_of_le (of_decide_eq_true filled.1) filled.2.2

/-- The risk check lets a close pass, but for a purchase that costs more than the cash. -/
theorem InOrder.approve_close {cfg : RuntimeConfig} {rt : Runtime} (inOrder : InOrder cfg rt)
    (valid : cfg.Valid) (few : tinyQty * rt.metrics.fills ≤ cfg.maxPosition)
    {book : BoundedBook bookCapacity} {order : NewOrder} (symbol : order.symbolId = cfg.symbolId)
    (closes : rt.strategy.Closes book order) :
    rt.risk.approve order = true ↔
      (order.side = .bid →
        order.qty.value * order.price.toDouble cfg.tickSize ≤ rt.strategy.cash) := by
  obtain ⟨enabled, tick, limit, above, below, -⟩ := inOrder.within.solvent
  have ledgers := inOrder.ledgers
  have most : order.qty.value ≤ |rt.strategy.position| := by
    rw [closes.size]
    exact min_le_left _ _
  have near := abs_le.mp ledgers.position
  have cash : rt.risk.cashes.getD cfg.symbolId 0 = rt.strategy.cash := by
    have same := ledgers.cash
    rwa [RiskManager.cash, if_pos valid.symbolId] at same
  have position : rt.risk.position cfg.symbolId = rt.risk.positions.getD cfg.symbolId 0 :=
    if_pos valid.symbolId
  change -(tinyQty * (rt.metrics.fills : ℚ)) ≤ rt.risk.position cfg.symbolId -
    rt.strategy.position ∧ rt.risk.position cfg.symbolId - rt.strategy.position ≤
      tinyQty * (rt.metrics.fills : ℚ) at near
  rw [position] at near
  have positive := closes.positive
  have side := closes.side
  have projected : rt.risk.positions.getD cfg.symbolId 0 + signedQty order.side order.qty.value ≤
      cfg.maxPosition ∧ -cfg.maxPosition ≤
        rt.risk.positions.getD cfg.symbolId 0 + signedQty order.side order.qty.value := by
    unfold ImbalanceStrategy.closingSide at side
    rw [side]
    by_cases long : 0 < rt.strategy.position
    · rw [if_pos long, signedQty, if_neg (by decide)]
      rw [abs_of_pos long] at most
      constructor <;> linarith
    · rw [if_neg long, signedQty, if_pos rfl]
      rw [abs_of_nonpos (not_lt.mp long)] at most
      constructor <;> linarith
  rw [RiskManager.approve_iff, symbol, enabled, tick, limit, cash]
  exact ⟨fun respects => respects.2.2.2 rfl,
    fun affordable => ⟨valid.symbolId, projected.1, projected.2, fun _ => affordable⟩⟩

/-! ### What becomes of it -/

/-- A fill of part of a close leaves what it did not take, or nothing. -/
theorem position_close {strategy : ImbalanceStrategy} {report : ExecutionReport}
    (held : strategy.position ≠ 0) (side : report.side = strategy.closingSide)
    (fills : report.isFill = true) (own : report.symbolId = strategy.symbol)
    (inside : strategy.symbol < maxSymbols) (most : report.execQty.value ≤ |strategy.position|) :
    |(strategy.onFill report).position| ≤ |strategy.position| - report.execQty.value := by
  have moved : (strategy.onFill report).position =
      if |strategy.position + signedQty report.side report.execQty.value| ≤ tinyQty then 0
      else strategy.position + signedQty report.side report.execQty.value := by
    unfold ImbalanceStrategy.position
    rw [strategy.state_onFill fills own inside, PnlTracker.fillState_position]
  have left : |strategy.position + signedQty report.side report.execQty.value| =
      |strategy.position| - report.execQty.value := by
    rw [side]
    unfold ImbalanceStrategy.closingSide
    rcases lt_or_gt_of_ne held with short | long
    · rw [if_neg (not_lt.mpr (le_of_lt short)), signedQty, if_pos rfl]
      rw [abs_of_neg short] at most ⊢
      rw [abs_of_nonpos (by linarith)]
      ring
    · rw [if_pos long, signedQty, if_neg (by decide)]
      rw [abs_of_pos long] at most ⊢
      rw [abs_of_nonneg (by linarith)]
      ring
  rw [moved]
  split
  · rw [abs_zero]
    exact sub_nonneg.mpr most
  · exact le_of_eq left

/-- An event that sends a close: the breaker holds it back, or the risk check refuses it, or it
fills. -/
theorem InOrder.closing {cfg : RuntimeConfig} {rt : Runtime} (inOrder : InOrder cfg rt)
    (valid : cfg.Valid) (held : rt.strategy.position ≠ 0) {clock : EventClock} {ev : MarketEvent}
    {order : NewOrder} (sent : rt.sentOrder clock ev = some order) :
    (rt.breaker.recordMessage.isTripped = true →
      (rt.processEvent clock ev).metrics.circuitBlocked = rt.metrics.circuitBlocked + 1 ∧
        (rt.processEvent clock ev).strategy.position = rt.strategy.position) ∧
    (rt.breaker.recordMessage.isTripped = false → rt.risk.approve order = false →
      (rt.processEvent clock ev).metrics.ordersRejected = rt.metrics.ordersRejected + 1 ∧
        (rt.processEvent clock ev).strategy.position = rt.strategy.position) ∧
    (rt.breaker.recordMessage.isTripped = false → rt.risk.approve order = true →
      (rt.processEvent clock ev).metrics.fills = rt.metrics.fills + 1 ∧
        |(rt.processEvent clock ev).strategy.position| ≤
          |rt.strategy.position| - order.qty.value + tinyQty) := by
  have sound := inOrder.sound
  have closes := sound.closes valid.tickSize held sent
  obtain ⟨fills, least, bounded⟩ := sound.fills valid.tickSize sent clock.simulateNow
  have symbol : order.symbolId = cfg.symbolId := by
    rw [(sentOrder_symbolId sent).1, sound.configured]
  have handles := processEvent_handles sound.wellFormed clock ev
  rw [sound.configured, sent] at handles
  have ledgers := inOrder.ledgers
  generalize (rt.processEvent clock ev).book = book at *
  generalize afterEq : (rt.processEvent clock ev).desk = after at handles
  have metrics : (rt.processEvent clock ev).metrics.circuitBlocked = after.circuitBlocked ∧
      (rt.processEvent clock ev).metrics.ordersRejected = after.ordersRejected ∧
      (rt.processEvent clock ev).metrics.fills = after.fills ∧
      (rt.processEvent clock ev).strategy = after.strategy := by
    rw [← afterEq]
    exact ⟨rfl, rfl, rfl, rfl⟩
  obtain ⟨blockedEq, rejectedEq, fillsEq, strategyEq⟩ := metrics
  rw [blockedEq, rejectedEq, fillsEq, strategyEq]
  cases handles with
  | blocked keeps tripped =>
    refine ⟨fun _ => ⟨rfl, congrArg PnlState.position keeps.state⟩, ?_, ?_⟩
    · exact fun untripped => absurd (tripped.symm.trans untripped) nofun
    · exact fun untripped => absurd (tripped.symm.trans untripped) nofun
  | rejected keeps untripped refused =>
    refine ⟨fun tripped => absurd (tripped.symm.trans untripped) nofun,
      fun _ _ => ⟨rfl, congrArg PnlState.position keeps.state⟩, ?_⟩
    exact fun _ approved => absurd (approved.symm.trans refused) nofun
  | missed keeps untripped approved empty => exact absurd (fills.symm.trans empty) nofun
  | @filled strategy _ keeps untripped approved _ =>
    refine ⟨fun tripped => absurd (tripped.symm.trans untripped) nofun,
      fun _ refused => absurd (approved.symm.trans refused) nofun, fun _ _ => ⟨rfl, ?_⟩⟩
    have position : strategy.position = rt.strategy.position :=
      congrArg PnlState.position keeps.state
    have heard : Desk.Ledgers cfg (rt.desk.hear strategy) := ledgers.keepsAccount keeps rfl rfl
    have most : order.qty.value ≤ |strategy.position| := by
      rw [closes.size, position]
      exact min_le_left _ _
    have left := @position_close strategy
      (ExecutionEngine.simulate order book cfg.tickSize clock.simulateNow) (position ▸ held)
      (by
        show order.side = _
        rw [closes.side]
        unfold ImbalanceStrategy.closingSide
        rw [position])
      fills (symbol.trans heard.symbol.symm) (heard.symbol ▸ valid.symbolId)
      (le_trans bounded most)
    rw [position] at left
    show |(strategy.onFill _).position| ≤ _
    linarith

end Runtime

/-! ### The way out in every run -/

namespace System

/-- In every interleaving: while the strategy holds a position and its skip is over, an event it
can read the book after sends an order exactly when the move since entry reaches the take-profit
or the stop-loss, and every order it sends then is for the side that closes the position, for all
of it or all that the walked levels hold. -/
theorem exit_sent_iff (cfg : RuntimeConfig) (valid : cfg.Valid) (s : System)
    (reached : Reaches step Free (initial cfg) s) (held : s.rt.strategy.position ≠ 0)
    (heeds : s.rt.strategy.skipNextSignal = false) (event : MarketEvent) (clock : EventClock)
    (imbalance : ℚ) (read : s.rt.sample event = some imbalance) :
    (∃ bid ask, (s.rt.processEvent clock event).book.topOfBook .bid = some bid ∧
      (s.rt.processEvent clock event).book.topOfBook .ask = some ask ∧
      ((s.rt.sentOrder clock event).isSome = true ↔
        ImbalanceStrategy.exits s.rt.strategy.params (s.rt.strategy.exitGain bid ask)
          s.rt.strategy.avgEntry = true)) ∧
    ∀ order, s.rt.sentOrder clock event = some order →
      s.rt.strategy.Closes (s.rt.processEvent clock event).book order := by
  have sound := reaches_sound valid reached
  exact ⟨Runtime.sentOrder_holding sound.wellFormed held heeds clock read,
    fun order sent => sound.closes valid.tickSize held sent⟩

/-- The long position of the day meets a snapshot far above its entry. -/
theorem exit_sent_iff_day :
    ∃ s bid, Reaches step Free (initial Runtime.boldConfig) s ∧ s.rt.strategy.position = 5 ∧
      (s.rt.processEvent (.instant 7000000000) (snapshotEvent rallyMessage 7)).book.topOfBook
        .bid = some bid ∧
      ImbalanceStrategy.exits s.rt.strategy.params
        (bid.price.toDouble s.rt.strategy.tickSize - s.rt.strategy.avgEntry)
        s.rt.strategy.avgEntry = true := by
  obtain ⟨s, rt, reached, -, morning, rest⟩ := reaches_beforeExit
  obtain ⟨-, ⟨holding, -⟩, -⟩ := morning.desks
  obtain ⟨-, -, -, sold⟩ := morning.orders
  rw [← rest] at holding sold
  have strategy := (Runtime.of_desk holding).2.2.2
  have long := (congrArg ImbalanceStrategy.position strategy).trans Desk.day_after.2.2.1
  have heeds : s.rt.strategy.skipNextSignal = false := by
    rw [strategy]
    decide +kernel
  have held : s.rt.strategy.position ≠ 0 := by
    rw [long]
    norm_num
  obtain ⟨order, sent⟩ := Option.isSome_iff_exists.mp sold
  obtain ⟨imbalance, read⟩ := Runtime.sample_of_sent sent
  obtain ⟨⟨bid, ask, topBid, -, sends⟩, -⟩ := exit_sent_iff Runtime.boldConfig
    Runtime.boldConfig_valid s (reached.mono fun _ _ _ => trivial) held heeds
    (snapshotEvent rallyMessage 7) (.instant 7000000000) imbalance read
  have exits := sends.mp sold
  rw [ImbalanceStrategy.exitGain, if_pos (by rw [long]; norm_num)] at exits
  exact ⟨s, bid, reached.mono fun _ _ _ => trivial, long, topBid, exits⟩

/-- In every interleaving of a feed priced from one tick on, with fewer fills than their tolerances
add up to the position limit: an order that closes a position is held back only by the tripped
breaker and refused only if it is a purchase that costs more than the cash; else it fills, and
leaves of the position at most what it did not ask for and the simulator's tolerance. -/
theorem exit_order_outcome (cfg : RuntimeConfig) (valid : cfg.Valid) (s : System)
    (reached : Reaches step (PricedFeed cfg.tickSize) (initial cfg) s)
    (held : s.rt.strategy.position ≠ 0) (few : tinyQty * s.rt.metrics.fills ≤ cfg.maxPosition)
    (event : MarketEvent) (clock : EventClock) (order : NewOrder)
    (sent : s.rt.sentOrder clock event = some order) :
    (s.rt.breaker.recordMessage.isTripped = true →
      (s.rt.processEvent clock event).metrics.circuitBlocked =
          s.rt.metrics.circuitBlocked + 1 ∧
        (s.rt.processEvent clock event).strategy.position = s.rt.strategy.position) ∧
    (s.rt.breaker.recordMessage.isTripped = false →
      order.side = .bid ∧ s.rt.strategy.cash <
          order.qty.value * order.price.toDouble cfg.tickSize →
      (s.rt.processEvent clock event).metrics.ordersRejected =
          s.rt.metrics.ordersRejected + 1 ∧
        (s.rt.processEvent clock event).strategy.position = s.rt.strategy.position) ∧
    (s.rt.breaker.recordMessage.isTripped = false →
      ¬(order.side = .bid ∧ s.rt.strategy.cash <
          order.qty.value * order.price.toDouble cfg.tickSize) →
      (s.rt.processEvent clock event).metrics.fills = s.rt.metrics.fills + 1 ∧
        |(s.rt.processEvent clock event).strategy.position| ≤
          |s.rt.strategy.position| - order.qty.value + tinyQty) := by
  have inOrder := reaches_inOrder valid reached
  have closes := inOrder.sound.closes valid.tickSize held sent
  have symbol : order.symbolId = cfg.symbolId := by
    rw [(Runtime.sentOrder_symbolId sent).1, inOrder.sound.configured]
  have approve := inOrder.approve_close valid few symbol closes
  obtain ⟨blocked, refused, filled⟩ := inOrder.closing valid held sent
  refine ⟨blocked, fun untripped short => refused untripped ?_,
    fun untripped affordable => filled untripped (approve.mpr fun buy => ?_)⟩
  · refine Bool.eq_false_iff.mpr fun approved => ?_
    exact absurd (approve.mp approved short.1) (not_le.mpr short.2)
  · exact not_lt.mp fun short => affordable ⟨buy, short⟩

/-- The exit of the day passes the breaker and the risk check, and fills. -/
theorem exit_order_outcome_day :
    ∃ s order, Reaches step (PricedFeed Runtime.boldConfig.tickSize)
        (initial Runtime.boldConfig) s ∧
      s.rt.strategy.position = 5 ∧ s.rt.breaker.recordMessage.isTripped = false ∧
      s.rt.sentOrder (.instant 7000000000) (snapshotEvent rallyMessage 7) = some order ∧
      (s.rt.processEvent (.instant 7000000000)
        (snapshotEvent rallyMessage 7)).metrics.fills = 2 ∧
      |(s.rt.processEvent (.instant 7000000000)
        (snapshotEvent rallyMessage 7)).strategy.position| ≤ 5 - order.qty.value + tinyQty := by
  obtain ⟨s, rt, reached, -, morning, rest⟩ := reaches_beforeExit
  obtain ⟨-, ⟨holding, -⟩, -⟩ := morning.desks
  obtain ⟨-, -, -, sold⟩ := morning.orders
  rw [← rest] at holding sold
  obtain ⟨-, once, five, untripped, -⟩ := Desk.day_after
  obtain ⟨-, -, fills, strategy⟩ := Runtime.of_desk holding
  have filled := fills.trans once
  have long := (congrArg ImbalanceStrategy.position strategy).trans five
  have passing : s.rt.breaker.recordMessage.isTripped = false :=
    (congrArg (fun desk => desk.breaker.recordMessage.isTripped) holding).trans untripped
  have held : s.rt.strategy.position ≠ 0 := by
    rw [long]
    norm_num
  have few : tinyQty * (s.rt.metrics.fills : ℚ) ≤ Runtime.boldConfig.maxPosition := by
    rw [filled]
    norm_num [tinyQty, Runtime.boldConfig]
  obtain ⟨order, sent⟩ := Option.isSome_iff_exists.mp sold
  have closes := (reaches_sound Runtime.boldConfig_valid reached).closes
    Runtime.boldConfig_valid.tickSize held sent
  have side : order.side = .ask := by
    rw [closes.side, ImbalanceStrategy.closingSide, if_pos (by rw [long]; norm_num)]
  obtain ⟨-, -, outcome⟩ := exit_order_outcome Runtime.boldConfig Runtime.boldConfig_valid s
    reached held few (snapshotEvent rallyMessage 7) (.instant 7000000000) order sent
  obtain ⟨counted, left⟩ := outcome passing fun short => absurd (side.symm.trans short.1) nofun
  rw [filled] at counted
  rw [long, abs_of_nonneg (by norm_num : (0 : ℚ) ≤ 5)] at left
  exact ⟨s, order, reached, long, passing, sent, counted, left⟩

end System

end Trading
