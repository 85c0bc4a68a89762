/-
This file proves that the risk check holds over whole runs: the position stays
inside its limit and the cash never goes negative.

The check looks at the order, at its limit price, while the ledger is moved by the
fill. What joins the two is that a fill is for part of its order, and for a buy at
no worse than its limit: the new position then lies between the old one and the one
the check projected, and the cash paid is at most the cash the check set aside.
-/

import TradingEngine.Desk

namespace Trading

/-! ### The prices a book holds -/

namespace BoundedBook

variable {capacity : Nat}

/-- Every level the book holds is at `least` ticks or above. -/
def HoldsFrom (least : Int) (book : BoundedBook capacity) : Prop :=
  ∀ side tick quantity, book.levelAt side tick = some quantity → least ≤ tick

/-- The call inserts no level below `least` ticks. -/
def Call.PricedFrom (least : Int) : Call → Prop
  | .update _ price _ => least ≤ price.ticks
  | _ => True

variable [ValidCapacity capacity] {least : Int} {book : BoundedBook capacity}

theorem HoldsFrom.call (held : HoldsFrom least book) (wellFormed : WellFormed book) {call : Call}
    (priced : call.PricedFrom least) : HoldsFrom least (book.call call) := by
  intro side tick quantity found
  cases call with
  | clear =>
    rw [BoundedBook.call, levelAt_clear] at found
    cases found
  | seedReference price =>
    rw [BoundedBook.call, levelAt_seedReference wellFormed.anchored] at found
    exact held side tick quantity found
  | update changed price qty =>
    rw [BoundedBook.call, levelAt_update wellFormed.anchored] at found
    split at found
    · split at found
      · rename_i same
        rw [same.2.1]
        exact priced
      · exact held side tick quantity found
    · cases found

theorem HoldsFrom.foldl (held : HoldsFrom least book) (wellFormed : WellFormed book)
    {calls : List Call} (priced : ∀ call ∈ calls, call.PricedFrom least) :
    HoldsFrom least (calls.foldl BoundedBook.call book) := by
  induction calls generalizing book with
  | nil => exact held
  | cons call rest inductionHypothesis =>
    exact inductionHypothesis (held.call wellFormed (priced call List.mem_cons_self))
      (wellFormed.call call) (fun other member => priced other (List.mem_cons_of_mem _ member))

end BoundedBook

/-! ### The prices an event carries -/

/-- Every price the event carries is at least one tick. -/
def MarketEvent.PricedFromOne (tickSize : ℚ) (ev : MarketEvent) : Prop :=
  match ev.kind with
  | .snapshot => ∀ level ∈ ev.snap.bidLevels ++ ev.snap.askLevels, 1 ≤ level.price.ticks
  | .l2Update => ∀ change ∈ ev.l2.changes, tickSize ≤ change.price
  | .heartbeat => True

theorem levelCalls_pricedFrom {side : Side} {levels : List PriceLevel}
    (priced : ∀ level ∈ levels, 1 ≤ level.price.ticks) :
    ∀ call ∈ levelCalls side levels, call.PricedFrom 1 := by
  intro call member
  obtain ⟨level, listed, rfl⟩ := List.mem_map.mp member
  exact priced level listed

theorem anchorCalls_pricedFrom (bids asks : List PriceLevel) :
    ∀ call ∈ anchorCalls bids asks, call.PricedFrom 1 := by
  intro call member
  unfold anchorCalls at member
  split at member
  · rw [List.mem_singleton.mp member]
    trivial
  · cases member

theorem changeCalls_pricedFrom {tickSize : ℚ} (positive : 0 < tickSize)
    {changes : List CoinbaseChange} (priced : ∀ change ∈ changes, tickSize ≤ change.price) :
    ∀ call ∈ changeCalls tickSize changes, call.PricedFrom 1 := by
  intro call member
  obtain ⟨change, listed, rfl⟩ := List.mem_map.mp member
  refine Rounding.le_llround_of_le ?_
  have atLeastOne : (1 : ℚ) ≤ change.price / tickSize :=
    (one_le_div positive).mpr (priced change listed)
  rwa [Int.cast_one]

theorem MarketEvent.PricedFromOne.calls {tickSize : ℚ} {ev : MarketEvent}
    (priced : ev.PricedFromOne tickSize) (positive : 0 < tickSize) (bookReady : Bool) :
    ∀ call ∈ ev.calls tickSize bookReady, call.PricedFrom 1 := by
  unfold MarketEvent.PricedFromOne at priced
  unfold MarketEvent.calls
  cases kind : ev.kind with
  | snapshot =>
    rw [kind] at priced
    intro call member
    rcases List.mem_cons.mp member with rfl | later
    · trivial
    · rcases List.mem_append.mp later with earlier | ask
      · rcases List.mem_append.mp earlier with anchored | bid
        · exact anchorCalls_pricedFrom _ _ call anchored
        · exact levelCalls_pricedFrom
            (fun level listed => priced level (List.mem_append_left _ listed)) call bid
      · exact levelCalls_pricedFrom
          (fun level listed => priced level (List.mem_append_right _ listed)) call ask
  | l2Update =>
    rw [kind] at priced
    dsimp only
    split
    · exact changeCalls_pricedFrom positive priced
    · nofun
  | heartbeat => nofun

/-! ### One approved fill -/

namespace RiskManager

/-- A configured ledger inside its limits. -/
structure Solvent (risk : RiskManager) (id : SymbolId) (maxPosition tickSize : ℚ) : Prop where
  enabled : risk.cashEnabled = true
  tick : risk.tick = tickSize
  limit : risk.maxPositions.getD id 0 = maxPosition
  above : -maxPosition ≤ risk.positions.getD id 0
  below : risk.positions.getD id 0 ≤ maxPosition
  cash : 0 ≤ risk.cashes.getD id 0

theorem configure_solvent {id : SymbolId} {maxPosition initialCash tickSize : ℚ}
    (inside : id < maxSymbols) (limit : 0 ≤ maxPosition) (cash : 0 ≤ initialCash) :
    Solvent (fresh.configure id maxPosition initialCash tickSize) id maxPosition tickSize := by
  unfold configure
  rw [if_neg (Nat.not_le.mpr inside), if_pos cash]
  constructor
  · rfl
  · rfl
  · show (Vector.setIfInBounds _ id maxPosition).getD id 0 = maxPosition
    rw [Slots.getD_setIfInBounds, if_pos ⟨rfl, inside⟩]
  · show -maxPosition ≤ (Vector.replicate maxSymbols (0 : ℚ)).getD id 0
    rw [Slots.getD_replicate]
    linarith
  · show (Vector.replicate maxSymbols (0 : ℚ)).getD id 0 ≤ maxPosition
    rw [Slots.getD_replicate]
    exact limit
  · show 0 ≤ (Vector.setIfInBounds _ id initialCash).getD id 0
    rw [Slots.getD_setIfInBounds, if_pos ⟨rfl, inside⟩]
    exact cash

/-- What an approved order respects. -/
theorem approve_iff {risk : RiskManager} {order : NewOrder} :
    risk.approve order = true ↔
      order.symbolId < maxSymbols ∧
      risk.positions.getD order.symbolId 0 + signedQty order.side order.qty.value ≤
        risk.maxPositions.getD order.symbolId 0 ∧
      -risk.maxPositions.getD order.symbolId 0 ≤
        risk.positions.getD order.symbolId 0 + signedQty order.side order.qty.value ∧
      (risk.cashEnabled = true → order.side = .bid →
        order.qty.value * order.price.toDouble risk.tick ≤
          risk.cashes.getD order.symbolId 0) := by
  unfold approve
  dsimp only
  split
  · rename_i outside
    exact ⟨nofun, fun respects => absurd outside (Nat.not_le.mpr respects.1)⟩
  · rename_i inside
    split
    · rename_i projected
      refine ⟨nofun, fun respects => ?_⟩
      rcases projected with above | below
      · exact absurd above (not_lt.mpr respects.2.1)
      · exact absurd below (not_lt.mpr respects.2.2.1)
    · rename_i projected
      obtain ⟨above, below⟩ := not_or.mp projected
      split
      · rename_i checked
        split
        · rename_i short
          exact ⟨nofun, fun respects =>
            absurd short (not_lt.mpr (respects.2.2.2 checked.1 checked.2))⟩
        · rename_i affordable
          exact ⟨fun _ => ⟨Nat.not_le.mp inside, not_lt.mp above, not_lt.mp below,
            fun _ _ => not_lt.mp affordable⟩, fun _ => rfl⟩
      · rename_i unchecked
        exact ⟨fun _ => ⟨Nat.not_le.mp inside, not_lt.mp above, not_lt.mp below,
          fun enabled buy => absurd ⟨enabled, buy⟩ unchecked⟩, fun _ => rfl⟩

/-- What a fill books, once the cash check is on. -/
theorem onFill_eq {risk : RiskManager} {report : ExecutionReport} (fills : report.isFill = true)
    (inside : report.symbolId < maxSymbols) (enabled : risk.cashEnabled = true) :
    risk.onFill report =
      { risk with
        positions := risk.positions.setIfInBounds report.symbolId
          (risk.positions.getD report.symbolId 0 + signedQty report.side report.execQty.value)
        cashes := risk.cashes.setIfInBounds report.symbolId
          (risk.cashes.getD report.symbolId 0 -
            signedQty report.side report.execQty.value *
              report.execPrice.toDouble risk.tick) } := by
  have counted : ¬(¬report.isFill = true ∨ maxSymbols ≤ report.symbolId) :=
    not_or.mpr ⟨not_not.mpr fills, Nat.not_le.mpr inside⟩
  unfold onFill
  rw [if_neg counted, if_pos enabled]

/-- The position after a fill lies between the position before it and the projected one. -/
theorem position_between {position quantity filled limit : ℚ} {side : Side}
    (positive : 0 < filled) (bounded : filled ≤ quantity)
    (above : -limit ≤ position) (below : position ≤ limit)
    (projectedAbove : -limit ≤ position + signedQty side quantity)
    (projectedBelow : position + signedQty side quantity ≤ limit) :
    -limit ≤ position + signedQty side filled ∧ position + signedQty side filled ≤ limit := by
  cases side with
  | bid =>
    simp only [signedQty, if_true, mul_one] at *
    constructor <;> linarith
  | ask =>
    simp only [signedQty, reduceCtorEq, if_false, mul_neg, mul_one] at *
    constructor <;> linarith

/-- A fill of part of an approved order keeps the ledger inside its limits. -/
theorem Solvent.onFill {risk : RiskManager} {maxPosition tickSize : ℚ} {order : NewOrder}
    {report : ExecutionReport} {least : Int}
    (solvent : Solvent risk order.symbolId maxPosition tickSize) (positive : 0 < tickSize)
    (nonneg : 0 ≤ least) (approved : risk.approve order = true)
    (fill : ExecutionEngine.FillsWithin least order report) :
    Solvent (risk.onFill report) order.symbolId maxPosition tickSize := by
  obtain ⟨enabled, tick, limit, above, below, cash⟩ := solvent
  obtain ⟨inside, projectedBelow, projectedAbove, affordable⟩ := approve_iff.mp approved
  rw [limit] at projectedBelow projectedAbove
  cases fills : report.isFill with
  | false =>
    have same : risk.onFill report = risk := if_pos (Or.inl (by rw [fills]; decide))
    rw [same]
    exact ⟨enabled, tick, limit, above, below, cash⟩
  | true =>
    have bounded := fill.bounded fills
    have filled := fill.positive fills
    have between := position_between filled bounded above below projectedAbove projectedBelow
    have priceNonneg : 0 ≤ report.execPrice.toDouble risk.tick := by
      rw [tick]
      exact mul_nonneg (Int.cast_nonneg (le_trans nonneg (fill.priced fills))) (le_of_lt positive)
    rw [onFill_eq fills (by rw [fill.symbolId]; exact inside) enabled, fill.symbolId, fill.side]
    refine ⟨enabled, tick, limit, ?_, ?_, ?_⟩
    · rw [Slots.getD_setIfInBounds, if_pos ⟨rfl, inside⟩]
      exact between.1
    · rw [Slots.getD_setIfInBounds, if_pos ⟨rfl, inside⟩]
      exact between.2
    · rw [Slots.getD_setIfInBounds, if_pos ⟨rfl, inside⟩]
      cases side : order.side with
      | bid =>
        have priced : report.execPrice.toDouble risk.tick ≤ order.price.toDouble risk.tick := by
          rw [tick]
          exact Price.toDouble_le_toDouble positive (fill.limited fills side)
        have paid : report.execQty.value * report.execPrice.toDouble risk.tick ≤
            risk.cashes.getD order.symbolId 0 :=
          calc report.execQty.value * report.execPrice.toDouble risk.tick
              ≤ order.qty.value * report.execPrice.toDouble risk.tick :=
                mul_le_mul_of_nonneg_right bounded priceNonneg
            _ ≤ order.qty.value * order.price.toDouble risk.tick :=
                mul_le_mul_of_nonneg_left priced (le_trans (le_of_lt filled) bounded)
            _ ≤ risk.cashes.getD order.symbolId 0 := affordable enabled side
        simp only [signedQty, if_true, mul_one]
        exact sub_nonneg.mpr paid
      | ask =>
        simp only [signedQty, reduceCtorEq, if_false, mul_neg, mul_one, neg_mul, sub_neg_eq_add]
        exact add_nonneg cash (mul_nonneg (le_of_lt filled) priceNonneg)

end RiskManager

/-! ### One event, and whole runs -/

namespace Runtime

/-- The only way an event moves the risk ledger: by the simulated fill of an approved order on
the configured symbol. -/
theorem dispatchOrder_risk (rt : Runtime) (signal : Signal) (clock : EventClock) :
    (rt.dispatchOrder signal clock).risk = rt.risk ∨
      ∃ order : NewOrder, order.symbolId = rt.cfg.symbolId ∧ rt.risk.approve order = true ∧
        (rt.dispatchOrder signal clock).risk = rt.risk.onFill
          (ExecutionEngine.simulate order rt.book rt.cfg.tickSize clock.simulateNow) := by
  unfold dispatchOrder
  dsimp only
  split
  · exact Or.inl rfl
  · split
    · exact Or.inl rfl
    · rename_i approved
      rw [Bool.not_eq_true, Bool.not_eq_false'] at approved
      unfold executeOrder bookFill
      split
      · exact Or.inr ⟨_, rfl, approved, rfl⟩
      · exact Or.inl rfl

/-- The risk manager changes only by a fill of an order it approved. -/
theorem evaluate_risk (rt : Runtime) (clock : EventClock) (recvNs : Timestamp) :
    (rt.evaluate clock recvNs).risk = rt.risk ∨
      ∃ order : NewOrder, order.symbolId = rt.cfg.symbolId ∧ rt.risk.approve order = true ∧
        (rt.evaluate clock recvNs).risk = rt.risk.onFill
          (ExecutionEngine.simulate order rt.book rt.cfg.tickSize clock.simulateNow) := by
  unfold evaluate
  dsimp only
  split
  · exact dispatchOrder_risk _ _ _
  · exact Or.inl rfl

/-- One event moves the risk manager by at most one approved fill. -/
theorem processEvent_risk (rt : Runtime) (clock : EventClock) (ev : MarketEvent) :
    (rt.processEvent clock ev).risk = rt.risk ∨
      ∃ order : NewOrder, order.symbolId = rt.cfg.symbolId ∧ rt.risk.approve order = true ∧
        (rt.processEvent clock ev).risk = rt.risk.onFill
          (ExecutionEngine.simulate order (rt.processEvent clock ev).book rt.cfg.tickSize
            clock.simulateNow) := by
  unfold processEvent
  cases ev.kind with
  | snapshot =>
    dsimp only
    rw [(evaluate_keepsMarket _ _ _).book]
    exact evaluate_risk _ _ _
  | heartbeat => exact Or.inl rfl
  | l2Update =>
    dsimp only
    split
    · exact Or.inl rfl
    · rw [(evaluate_keepsMarket _ _ _).book]
      exact evaluate_risk _ _ _

/-- The state every run keeps: a well-formed book without a level below one tick, and a ledger
inside its limits. -/
structure WithinLimits (cfg : RuntimeConfig) (rt : Runtime) : Prop where
  configured : rt.cfg = cfg
  wellFormed : rt.book.WellFormed
  held : rt.book.HoldsFrom 1
  solvent : rt.risk.Solvent cfg.symbolId cfg.maxPosition cfg.tickSize

theorem create_withinLimits {cfg : RuntimeConfig} (maxPosition : 0 < cfg.maxPosition)
    (initialCash : 0 ≤ cfg.initialCash) (inside : cfg.symbolId < maxSymbols) :
    WithinLimits cfg (create cfg) where
  configured := rfl
  wellFormed := BoundedBook.fresh_wellFormed
  held := fun side tick quantity found => by
    rw [show (create cfg).book = BoundedBook.fresh bookCapacity from rfl,
      BoundedBook.levelAt_fresh] at found
    cases found
  solvent := RiskManager.configure_solvent inside (le_of_lt maxPosition) initialCash

/-- An event keeps the limits. -/
theorem WithinLimits.processEvent {cfg : RuntimeConfig} {rt : Runtime}
    (within : WithinLimits cfg rt) (positive : 0 < cfg.tickSize) (clock : EventClock)
    {ev : MarketEvent} (priced : ev.PricedFromOne cfg.tickSize) :
    WithinLimits cfg (rt.processEvent clock ev) := by
  obtain ⟨rfl, wellFormed, held, solvent⟩ := within
  have bookWellFormed := processEvent_wellFormed wellFormed clock ev
  have bookHeld : (rt.processEvent clock ev).book.HoldsFrom 1 := by
    rw [processEvent_book]
    exact held.foldl wellFormed (priced.calls positive rt.bookReady)
  refine ⟨processEvent_cfg rt clock ev, bookWellFormed, bookHeld, ?_⟩
  rcases processEvent_risk rt clock ev with same | ⟨order, symbol, approved, moved⟩
  · rw [same]
    exact solvent
  · rw [moved, ← symbol]
    rw [← symbol] at solvent
    exact solvent.onFill positive (by decide) approved
      (ExecutionEngine.simulate_fillsWithin bookWellFormed.indexed bookHeld order positive _)

/-- Every run keeps the limits. -/
theorem run_withinLimits {cfg : RuntimeConfig} (tickSize : 0 < cfg.tickSize)
    (maxPosition : 0 < cfg.maxPosition) (initialCash : 0 ≤ cfg.initialCash)
    (inside : cfg.symbolId < maxSymbols) {events : List (EventClock × MarketEvent)}
    (priced : ∀ handled ∈ events, handled.2.PricedFromOne cfg.tickSize) :
    WithinLimits cfg (run cfg events) := by
  have start := create_withinLimits maxPosition initialCash inside
  unfold run
  generalize create cfg = rt at start
  induction events generalizing rt with
  | nil => exact start
  | cons handled rest inductionHypothesis =>
    exact inductionHypothesis (fun other member => priced other (List.mem_cons_of_mem _ member))
      _ (start.processEvent tickSize handled.1 (priced handled List.mem_cons_self))

theorem run_risk_of_unknown_symbol (cfg : RuntimeConfig) (unknown : maxSymbols ≤ cfg.symbolId)
    (events : List (EventClock × MarketEvent)) :
    (run cfg events).risk.position cfg.symbolId = 0 ∧
      (run cfg events).risk.cash cfg.symbolId = 0 :=
  ⟨if_neg (Nat.not_lt.mpr unknown), if_neg (Nat.not_lt.mpr unknown)⟩

/-- After every run of priced events the position of the configured symbol is inside its limit
and its cash is not negative. -/
theorem run_keeps_limits (cfg : RuntimeConfig) (tickSize : 0 < cfg.tickSize)
    (maxPosition : 0 < cfg.maxPosition) (initialCash : 0 ≤ cfg.initialCash)
    (events : List (EventClock × MarketEvent))
    (priced : ∀ handled ∈ events, handled.2.PricedFromOne cfg.tickSize) :
    -cfg.maxPosition ≤ (run cfg events).risk.position cfg.symbolId ∧
      (run cfg events).risk.position cfg.symbolId ≤ cfg.maxPosition ∧
      0 ≤ (run cfg events).risk.cash cfg.symbolId := by
  by_cases inside : cfg.symbolId < maxSymbols
  · have solvent := (run_withinLimits tickSize maxPosition initialCash inside priced).solvent
    unfold RiskManager.position RiskManager.cash
    rw [if_pos inside, if_pos inside]
    exact ⟨solvent.above, solvent.below, solvent.cash⟩
  · obtain ⟨position, cash⟩ := run_risk_of_unknown_symbol cfg (Nat.not_lt.mp inside) events
    rw [position, cash]
    exact ⟨neg_nonpos.mpr (le_of_lt maxPosition), le_of_lt maxPosition, le_refl 0⟩

theorem tradingDay_priced :
    ∀ handled ∈ tradingDay, handled.2.PricedFromOne boldConfig.tickSize := by
  refine List.forall_mem_cons.mpr ⟨?_, List.forall_mem_cons.mpr ⟨?_,
    List.forall_mem_singleton.mpr ?_⟩⟩ <;>
  · show ∀ level ∈ _, _
    decide +kernel

/-- A run with a refused order, an entry and an exit. -/
theorem run_keeps_limits_tradingDay :
    (run boldConfig tradingDay).metrics.fills = 2 ∧
      -1000 ≤ (run boldConfig tradingDay).risk.position 0 ∧
      (run boldConfig tradingDay).risk.position 0 ≤ 1000 ∧
      0 ≤ (run boldConfig tradingDay).risk.cash 0 :=
  ⟨run_tradingDay.2.2.2.2.1, run_keeps_limits boldConfig boldConfig_valid.tickSize
    boldConfig_valid.maxPosition boldConfig_valid.initialCash tradingDay tradingDay_priced⟩

end Runtime

end Trading
