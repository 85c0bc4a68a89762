/-
This file says when a long entry stays within the cash. An entry is sized for a fraction
of the cash at the mid of the two tops, but its limit is the worst ask it reaches, which
is above the mid. At the limit the order therefore costs more than the fraction it was
sized for, and with the fraction near one, or asks far above the mid, more than the
account holds.

The cost at the limit is what the risk check looks at, so such an entry is rejected and
counts as an error. The condition under which it is not is exact: it compares the cash
with the quantity the sizer finds and the limit it finds it at.
-/

import TradingEngine.Ledgers

namespace Trading

/-! ### What an entry costs at its limit -/

/-- Every ask an entry for `fraction` of the cash at the mid reaches leaves it within the cash:
the fraction makes up for the distance of the ask from the mid, or the asks it reaches hold too
little to spend the cash on. -/
def EntryFits (fraction cash mid tickSize : ℚ) (asks : List PriceLevel) : Prop :=
  ∀ level ∈ reached (fraction * cash / mid) asks 0,
    fraction * level.price.toDouble tickSize ≤ mid ∨
      offered (reached (fraction * cash / mid) asks 0) * level.price.toDouble tickSize ≤ cash

/-- A fraction of the cash at the mid, or less, is within the cash at another price exactly in these
two cases. -/
theorem min_target_mul_le_iff {fraction cash mid price available : ℚ} (funded : 0 < cash)
    (positive : 0 < mid) (nonneg : 0 ≤ price) :
    min (fraction * cash / mid) available * price ≤ cash ↔
      fraction * price ≤ mid ∨ available * price ≤ cash := by
  have target : fraction * cash / mid * price ≤ cash ↔ fraction * price ≤ mid := by
    rw [div_mul_eq_mul_div, div_le_iff₀ positive, mul_right_comm, mul_comm cash,
      mul_le_mul_iff_left₀ funded]
  rw [min_mul_of_nonneg _ _ nonneg, min_le_iff, target]

namespace OrderSizer

/-- A buy sized for the target of an entry costs at most the cash at its limit exactly when the
entry fits. -/
theorem Sized.cost_le_iff {capacity : Nat} [ValidCapacity capacity] {book : BoundedBook capacity}
    (wellFormed : book.WellFormed) (held : book.HoldsFrom 1) {tickSize fraction cash mid : ℚ}
    (positive : 0 < tickSize) (funded : 0 < cash) (midPositive : 0 < mid) {price : Price}
    {qty : Qty} (sized : Sized book .bid (fraction * cash / mid) price qty) :
    qty.value * price.toDouble tickSize ≤ cash ↔
      EntryFits fraction cash mid tickSize (book.depth .ask maxBookWalk) := by
  obtain ⟨target, ⟨last, found, rfl⟩, quantity⟩ := sized
  have amount : 0 ≤ min (fraction * cash / mid)
      (offered (reached (fraction * cash / mid) (book.depth .ask maxBookWalk) 0)) :=
    le_min (le_of_lt target) (offered_nonneg fun level member =>
      depth_sizes wellFormed .ask maxBookWalk level ((reached_isPrefix _ _ _).subset member))
  have admitted := ExecutionEngine.marketable_of_reached wellFormed positive found
  have listed : ∀ level ∈ reached (fraction * cash / mid) (book.depth .ask maxBookWalk) 0,
      0 ≤ level.price.toDouble tickSize := by
    intro level member
    have known := (reached_isPrefix _ _ _).subset member
    rw [BoundedBook.depth_eq wellFormed.indexed] at known
    have least := held .ask _ _ (BoundedBook.mem_levels.mp (List.mem_of_mem_take known))
    exact mul_nonneg (Int.cast_nonneg (le_trans (by decide) least)) (le_of_lt positive)
  have lastReached : last ∈ reached (fraction * cash / mid) (book.depth .ask maxBookWalk) 0 :=
    List.mem_of_getLast? found
  rw [quantity]
  constructor
  · intro affordable level member
    refine (min_target_mul_le_iff funded midPositive (listed level member)).mp ?_
    exact le_trans (mul_le_mul_of_nonneg_left (of_decide_eq_true (admitted level member)) amount)
      affordable
  · intro fits
    exact (min_target_mul_le_iff funded midPositive (listed last lastReached)).mpr
      (fits last lastReached)

end OrderSizer

/-! ### The entries of a run -/

namespace Runtime

open ImbalanceStrategy (Asks)

/-- A buy sent while flat is sized for the configured fraction of the cash at the mid of the
tops. -/
theorem Sound.entry {cfg : RuntimeConfig} {rt : Runtime} (sound : Sound cfg rt)
    (positive : 0 < cfg.tickSize) {clock : EventClock} {ev : MarketEvent} {order : NewOrder}
    (sent : rt.sentOrder clock ev = some order) (buy : order.side = .bid)
    (flat : rt.strategy.position = 0) :
    ∃ bid ask, (rt.processEvent clock ev).book.topOfBook .bid = some bid ∧
      (rt.processEvent clock ev).book.topOfBook .ask = some ask ∧ 0 < rt.strategy.cash ∧
      OrderSizer.Sized (rt.processEvent clock ev).book .bid
        (cfg.strategy.tradeFraction * rt.strategy.cash /
          ((bid.price.toDouble cfg.tickSize + ask.price.toDouble cfg.tickSize) * (1 / 2)))
        order.price order.qty := by
  obtain ⟨bid, ask, targetQty, topBid, topAsk, -, asks, sized⟩ := sound.placed positive sent
  have tickSize : rt.strategy.tickSize = cfg.tickSize := sound.ledgers.tickSize
  have fraction : rt.strategy.params.tradeFraction = cfg.strategy.tradeFraction := by
    rw [show rt.strategy.params = _ from sound.ledgers.params]
    rfl
  rw [buy] at asks sized
  rw [tickSize] at asks
  refine ⟨bid, ask, topBid, topAsk, ?_⟩
  cases asks with
  | closeShort short => exact absurd flat (ne_of_lt short)
  | openLong _ funded =>
    rw [fraction] at sized
    exact ⟨funded, sized⟩

/-- In every run, a long entry sent while flat asks for no more than the account holds, in both
ledgers, exactly when the asks it reaches, with the event written to the book, leave it within
the cash. -/
theorem run_entry_affordable_iff (cfg : RuntimeConfig) (valid : cfg.Valid)
    (events : List (EventClock × MarketEvent))
    (priced : ∀ handled ∈ events, handled.2.PricedFromOne cfg.tickSize) (clock : EventClock)
    (ev : MarketEvent) (evPriced : ev.PricedFromOne cfg.tickSize) (order : NewOrder)
    (sent : (run cfg events).sentOrder clock ev = some order) (buy : order.side = .bid)
    (flat : (run cfg events).strategy.position = 0) :
    let rt := run cfg events
    let book := (ev.calls rt.cfg.tickSize rt.bookReady).foldl BoundedBook.call rt.book
    ∃ bid ask, book.topOfBook .bid = some bid ∧ book.topOfBook .ask = some ask ∧
      (order.qty.value * order.price.toDouble cfg.tickSize ≤ rt.strategy.cash ∧
          order.qty.value * order.price.toDouble rt.risk.tick ≤ rt.risk.cash cfg.symbolId ↔
        EntryFits cfg.strategy.tradeFraction rt.strategy.cash
          ((bid.price.toDouble cfg.tickSize + ask.price.toDouble cfg.tickSize) * (1 / 2))
          cfg.tickSize (book.depth .ask maxBookWalk)) := by
  intro rt book
  have written : (rt.processEvent clock ev).book = book := processEvent_book rt clock ev
  have sound := run_sound valid events
  have within : WithinLimits cfg (rt.processEvent clock ev) :=
    (run_withinLimits valid.tickSize valid.maxPosition valid.initialCash valid.symbolId
      priced).processEvent valid.tickSize clock evPriced
  obtain ⟨bid, ask, topBid, topAsk, funded, sized⟩ := sound.entry valid.tickSize sent buy flat
  have wellFormed := within.wellFormed
  have held := within.held
  rw [written] at topBid topAsk sized wellFormed held
  have above : ∀ side level, book.topOfBook side = some level →
      0 < level.price.toDouble cfg.tickSize := by
    intro side level top
    rw [BoundedBook.topOfBook_eq wellFormed.indexed] at top
    have least := held side _ _ (BoundedBook.mem_levels.mp (List.mem_of_head? top))
    exact mul_pos (Int.cast_pos.mpr (Int.lt_of_lt_of_le Int.one_pos least)) valid.tickSize
  have mid : 0 < (bid.price.toDouble cfg.tickSize + ask.price.toDouble cfg.tickSize) * (1 / 2) := by
    have bidPositive := above .bid bid topBid
    have askPositive := above .ask ask topAsk
    linarith
  refine ⟨bid, ask, topBid, topAsk, ?_⟩
  rw [show rt.risk.tick = cfg.tickSize from sound.ledgers.tick,
    show rt.risk.cash cfg.symbolId = rt.strategy.cash from sound.ledgers.cash, and_self]
  exact sized.cost_le_iff wellFormed held valid.tickSize funded mid

/-- The entry of a tenth of the cash on the snapshot. -/
theorem run_entry_affordable_iff_entryQuote :
    let rt := run (entryConfig (1 / 10) 5 20 500) []
    let book := (entryQuote.2.calls rt.cfg.tickSize rt.bookReady).foldl BoundedBook.call rt.book
    ∃ bid ask, book.topOfBook .bid = some bid ∧ book.topOfBook .ask = some ask ∧
      (1 / 10 * 10000 / (20001 / 200) * Price.toDouble ⟨10001⟩ (1 / 100) ≤ rt.strategy.cash ∧
          1 / 10 * 10000 / (20001 / 200) * Price.toDouble ⟨10001⟩ rt.risk.tick ≤
            rt.risk.cash 0 ↔
        EntryFits (1 / 10) rt.strategy.cash
          ((bid.price.toDouble (1 / 100) + ask.price.toDouble (1 / 100)) * (1 / 2)) (1 / 100)
          (book.depth .ask maxBookWalk)) := by
  have valid : (entryConfig (1 / 10) 5 20 500).Valid :=
    entryConfig_valid (by norm_num) (by norm_num) (by norm_num) (Nat.succ_pos _) (Nat.succ_pos _)
  have sent := @entryQuote_order (1 / 10) 5 20 500 (by norm_num) (by norm_num)
  have flat := congrArg PnlState.position (create_state valid.symbolId)
  exact run_entry_affordable_iff (entryConfig (1 / 10) 5 20 500) valid []
    (List.forall_mem_nil _) entryQuote.1 entryQuote.2
    (entryQuote_priced _) _ sent rfl flat

/-- With all of the cash committed, the entry on the snapshot asks for more than the account
holds, and the risk check turns it down though the position limit would allow it. -/
theorem entry_exceeds_cash :
    (entryConfig 1 1000 20 500).Valid ∧ entryQuote.2.PricedFromOne (1 / 100) ∧
      ∃ order, (run (entryConfig 1 1000 20 500) []).sentOrder entryQuote.1 entryQuote.2 =
          some order ∧
        order.side = .bid ∧ (run (entryConfig 1 1000 20 500) []).strategy.position = 0 ∧
        (run (entryConfig 1 1000 20 500) []).strategy.cash <
          order.qty.value * order.price.toDouble (1 / 100) ∧
        order.qty.value ≤ (entryConfig 1 1000 20 500).maxPosition ∧
        (run (entryConfig 1 1000 20 500) []).risk.approve order = false := by
  have valid : (entryConfig 1 1000 20 500).Valid :=
    entryConfig_valid one_pos (le_refl 1) (by norm_num) (Nat.succ_pos _) (Nat.succ_pos _)
  have state := create_state valid.symbolId
  have cost : (10000 : ℚ) < 1 * 10000 / (20001 / 200) * Price.toDouble ⟨10001⟩ (1 / 100) := by
    simp only [Price.toDouble]
    norm_num
  refine ⟨valid, entryQuote_priced _, _, entryQuote_order one_pos (le_refl 1), rfl,
    congrArg PnlState.position state, ?_, ?_, ?_⟩
  · show (create (entryConfig 1 1000 20 500)).strategy.state.cash < _
    rw [state]
    exact cost
  · show (1 * 10000 / (20001 / 200) : ℚ) ≤ 1000
    norm_num
  · show (create (entryConfig 1 1000 20 500)).risk.approve _ = false
    rw [Bool.eq_false_iff, ne_eq, create_approve_iff valid rfl rfl (by norm_num)]
    rintro ⟨-, affordable⟩
    exact absurd cost (not_lt.mpr affordable)

end Runtime

end Trading
