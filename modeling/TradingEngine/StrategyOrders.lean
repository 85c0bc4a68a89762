/-
This file says what the strategy can ask for at one market update, once and for every path
through it: while holding, to close the whole position; when flat, to open one for a
fraction of its cash at the mid. Everything else it does at an update leaves its account
alone.

What is asked for goes to the sizer, which may find less of it on the book. The lemmas
keep the two apart: the target and its side come from the strategy, the quantity and the
limit from the sizer's walk.
-/

import TradingEngine.SizedOrders

namespace Trading

namespace ImbalanceStrategy

variable {capacity : Nat}

/-! ### What an update leaves alone -/

/-- The parameters, the symbol, the tick size and the ledger are unchanged. -/
structure KeepsAccount (before after : ImbalanceStrategy) : Prop where
  params : after.params = before.params
  symbol : after.symbol = before.symbol
  tickSize : after.tickSize = before.tickSize
  pnl : after.pnl = before.pnl

theorem KeepsAccount.refl (strategy : ImbalanceStrategy) : KeepsAccount strategy strategy :=
  ⟨rfl, rfl, rfl, rfl⟩

theorem KeepsAccount.symm {before after : ImbalanceStrategy} (keeps : KeepsAccount before after) :
    KeepsAccount after before :=
  ⟨keeps.params.symm, keeps.symbol.symm, keeps.tickSize.symm, keeps.pnl.symm⟩

theorem KeepsAccount.after {first second third : ImbalanceStrategy}
    (later : KeepsAccount second third) (earlier : KeepsAccount first second) :
    KeepsAccount first third :=
  ⟨later.params.trans earlier.params, later.symbol.trans earlier.symbol,
    later.tickSize.trans earlier.tickSize, later.pnl.trans earlier.pnl⟩

theorem KeepsAccount.state {before after : ImbalanceStrategy} (keeps : KeepsAccount before after) :
    after.state = before.state := by
  unfold ImbalanceStrategy.state
  rw [keeps.symbol, keeps.pnl]

/-! ### What an update can ask for -/

/-- The side and the target the strategy hands to the sizer, at a given mid. -/
inductive Asks (strategy : ImbalanceStrategy) (mid : ℚ) : Side → ℚ → Prop where
  | closeLong (long : 0 < strategy.position) : Asks strategy mid .ask strategy.position
  | closeShort (short : strategy.position < 0) : Asks strategy mid .bid (-strategy.position)
  | openLong (flat : strategy.position = 0) (funded : 0 < strategy.cash) :
      Asks strategy mid .bid (strategy.params.tradeFraction * strategy.cash / mid)
  | openShort (flat : strategy.position = 0) (funded : 0 < strategy.cash)
      (allowed : strategy.params.allowShort = true) :
      Asks strategy mid .ask (strategy.params.tradeFraction * strategy.cash / mid)

theorem Asks.of_keepsAccount {before after : ImbalanceStrategy} {mid : ℚ} {side : Side}
    {targetQty : ℚ} (asks : Asks after mid side targetQty) (keeps : KeepsAccount before after) :
    Asks before mid side targetQty := by
  have position : after.position = before.position := congrArg PnlState.position keeps.state
  have cash : after.cash = before.cash := congrArg PnlState.cash keeps.state
  cases asks with
  | closeLong long =>
    rw [position] at long ⊢
    exact .closeLong long
  | closeShort short =>
    rw [position] at short ⊢
    exact .closeShort short
  | openLong flat funded =>
    rw [position] at flat
    rw [cash] at funded ⊢
    rw [keeps.params]
    exact .openLong flat funded
  | openShort flat funded allowed =>
    rw [position] at flat
    rw [cash] at funded ⊢
    rw [keeps.params] at allowed ⊢
    exact .openShort flat funded allowed

/-- What an update comes to: the account is kept, and an actionable signal is a stamped order of
the sizer for something the strategy asks for. -/
structure Decides (strategy : ImbalanceStrategy) (book : BoundedBook capacity) (now : Timestamp)
    (mid : ℚ) (decided : Signal × ImbalanceStrategy) : Prop where
  keeps : KeepsAccount strategy decided.2
  asks : decided.1.isActionable = true → ∃ side targetQty, Asks strategy mid side targetQty ∧
    (OrderSizer.computeOrder book strategy.tickSize side targetQty).isActionable = true ∧
    decided.1 = { OrderSizer.computeOrder book strategy.tickSize side targetQty with ts := now }

theorem decides_none (strategy : ImbalanceStrategy) (book : BoundedBook capacity)
    (now : Timestamp) (mid : ℚ) : Decides strategy book now mid (Signal.none, strategy) where
  keeps := KeepsAccount.refl strategy
  asks := nofun

/-- What the strategy asks for and the sizer finds is a decision. -/
theorem decides_emit {strategy : ImbalanceStrategy} {mid : ℚ} {side : Side} {targetQty : ℚ}
    (asks : Asks strategy mid side targetQty) (book : BoundedBook capacity) (now : Timestamp) :
    Decides strategy book now mid
      (strategy.emit (OrderSizer.computeOrder book strategy.tickSize side targetQty) now) := by
  unfold emit
  cases actionable : (OrderSizer.computeOrder book strategy.tickSize side
      targetQty).isActionable with
  | false => exact decides_none strategy book now mid
  | true => exact ⟨⟨rfl, rfl, rfl, rfl⟩, fun _ => ⟨side, targetQty, asks, actionable, rfl⟩⟩

/-- Every path through the decision is one of the decisions listed. -/
theorem decision_decides (strategy : ImbalanceStrategy) (book : BoundedBook capacity)
    (now : Timestamp) (bestBid bestAsk : ℚ) :
    Decides strategy book now ((bestBid + bestAsk) * (1 / 2))
      (strategy.decision book now bestBid bestAsk) := by
  unfold decision
  dsimp only
  split
  · rename_i long
    split
    · exact decides_emit (.closeLong long) book now
    · exact decides_none _ _ _ _
  · rename_i notLong
    split
    · rename_i short
      split
      · exact decides_emit (.closeShort short) book now
      · exact decides_none _ _ _ _
    · rename_i notShort
      have flat : strategy.position = 0 := le_antisymm (not_lt.mp notLong) (not_lt.mp notShort)
      split
      · exact decides_none _ _ _ _
      · split
        · exact decides_none _ _ _ _
        · split
          · exact decides_none _ _ _ _
          · rename_i funded
            split
            · exact decides_emit (.openLong flat (not_le.mp funded)) book now
            · split
              · rename_i allowed
                exact decides_emit (.openShort flat (not_le.mp funded) allowed.1) book now
              · exact decides_none _ _ _ _

/-- An update of the strategy keeps its account, and an actionable signal closes the position or
opens one at the mid of the two tops, which do not cross. -/
theorem onMarketUpdate_decides (strategy : ImbalanceStrategy) {book : BoundedBook capacity}
    (indexed : book.Indexed) (now : Timestamp) :
    KeepsAccount strategy (strategy.onMarketUpdate book now).2 ∧
      ((strategy.onMarketUpdate book now).1.isActionable = true →
        ∃ bid ask, book.topOfBook .bid = some bid ∧ book.topOfBook .ask = some ask ∧
          bid.price.toDouble strategy.tickSize < ask.price.toDouble strategy.tickSize ∧
          Decides strategy book now
            ((bid.price.toDouble strategy.tickSize + ask.price.toDouble strategy.tickSize) *
              (1 / 2))
            (strategy.onMarketUpdate book now)) := by
  have top : ∀ side level rest, book.depth side strategy.params.depthLevels = level :: rest →
      book.topOfBook side = some level := by
    intro side level rest listed
    rw [BoundedBook.depth_eq indexed] at listed
    rw [BoundedBook.topOfBook_eq indexed, ← List.take_append_drop strategy.params.depthLevels
      (book.levels side), listed]
    rfl
  unfold onMarketUpdate
  split
  · rename_i bid bids ask asks bidSide askSide
    dsimp only
    split
    · exact ⟨KeepsAccount.refl strategy, nofun⟩
    · rename_i uncrossed
      split
      · exact ⟨KeepsAccount.refl strategy, nofun⟩
      · split
        · exact ⟨⟨rfl, rfl, rfl, rfl⟩, nofun⟩
        · have recorded : ∀ imbalance, KeepsAccount strategy (strategy.record imbalance) :=
            fun imbalance => ⟨rfl, rfl, rfl, rfl⟩
          have decides := decision_decides
            (strategy.record ((totalSize (bid :: bids) - totalSize (ask :: asks)) /
              (totalSize (bid :: bids) + totalSize (ask :: asks)))) book now
            (bid.price.toDouble strategy.tickSize) (ask.price.toDouble strategy.tickSize)
          have keeps := decides.keeps.after (recorded _)
          refine ⟨keeps, fun _ => ⟨bid, ask, top .bid bid bids bidSide, top .ask ask asks askSide,
            not_le.mp uncrossed, keeps, fun actionable => ?_⟩⟩
          obtain ⟨side, targetQty, asks, order⟩ := decides.asks actionable
          exact ⟨side, targetQty, asks.of_keepsAccount (recorded _), order⟩
  · exact ⟨KeepsAccount.refl strategy, nofun⟩

/-! ### When it opens a long position -/

/-- On an uncrossed two-sided book an update records the imbalance and decides. -/
theorem onMarketUpdate_eq {strategy : ImbalanceStrategy} {book : BoundedBook capacity}
    {bid ask : PriceLevel} {bids asks : List PriceLevel}
    (bidSide : book.depth .bid strategy.params.depthLevels = bid :: bids)
    (askSide : book.depth .ask strategy.params.depthLevels = ask :: asks)
    (uncrossed : bid.price.toDouble strategy.tickSize < ask.price.toDouble strategy.tickSize)
    (sizes : 0 < totalSize (bid :: bids) + totalSize (ask :: asks))
    (heeded : strategy.skipNextSignal = false) (now : Timestamp) :
    strategy.onMarketUpdate book now =
      (strategy.record ((totalSize (bid :: bids) - totalSize (ask :: asks)) /
        (totalSize (bid :: bids) + totalSize (ask :: asks)))).decision book now
        (bid.price.toDouble strategy.tickSize) (ask.price.toDouble strategy.tickSize) := by
  have skip : ∀ imbalance, (strategy.record imbalance).skipNextSignal = false := fun _ => heeded
  unfold onMarketUpdate
  rw [bidSide, askSide]
  dsimp only
  rw [if_neg (not_le.mpr uncrossed), if_neg (not_le.mpr sizes), skip, if_neg Bool.false_ne_true]

/-- Flat, funded, past the cooldown, with a tight spread and a strong imbalance, the strategy
buys a fraction of its cash at the mid. -/
theorem decision_openLong {strategy : ImbalanceStrategy} (flat : strategy.position = 0)
    (funded : 0 < strategy.cash) {now : Timestamp}
    (cooled : strategy.params.cooldownS ≤ ((now - strategy.lastTradeNs : Int) : ℚ) / 10 ^ 9)
    {bestBid bestAsk : ℚ}
    (tight : (bestAsk - bestBid) / ((bestBid + bestAsk) * (1 / 2)) * 10 ^ 4 ≤
      strategy.params.maxSpreadBps)
    (strong : strategy.params.entryImbalance < strategy.smoothed) (book : BoundedBook capacity) :
    strategy.decision book now bestBid bestAsk =
      strategy.emit (OrderSizer.computeOrder book strategy.tickSize .bid
        (strategy.params.tradeFraction * strategy.cash /
          ((bestBid + bestAsk) * (1 / 2)))) now := by
  have position : strategy.state.position = 0 := flat
  unfold decision
  dsimp only
  rw [position, if_neg (lt_irrefl 0), if_neg (lt_irrefl 0), if_neg (not_lt.mpr cooled),
    if_neg (not_lt.mpr tight), if_neg (show ¬strategy.state.cash ≤ 0 from not_le.mpr funded),
    if_pos strong]
  rfl

/-- The first recorded imbalance is the mean of the ring. -/
theorem smoothed_record_first {strategy : ImbalanceStrategy} (none : strategy.rollingCount = 0)
    (first : strategy.rollingHead = 0) (window : 0 < strategy.params.smoothingWindow)
    (imbalance : ℚ) : (strategy.record imbalance).smoothed = imbalance := by
  have count : (strategy.record imbalance).rollingCount = 1 := by
    unfold record
    dsimp only
    rw [none, if_pos window]
  have slot : (strategy.record imbalance).rolling.getD 0 0 = imbalance := by
    unfold record
    dsimp only
    rw [first, Slots.getD_setIfInBounds, if_pos ⟨rfl, Nat.le_add_left 1 31⟩]
  unfold smoothed
  rw [count, List.range_one, List.foldl_cons, List.foldl_nil, slot, zero_add, Nat.cast_one, div_one]

end ImbalanceStrategy

end Trading
