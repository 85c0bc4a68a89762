/-
This file says that the strategy never divides by zero.

Of its divisors the mid is positive because a book of priced events holds no level below
one tick, the two sizes are checked, and the number of filled slots is at least one once
a sample is recorded. The average entry has no check: it is positive while a position is
held because it is an average of fill prices, and the simulator reports no price below
one tick on such a book.
-/

import TradingEngine.AverageEntry
import TradingEngine.Ledgers
import TradingEngine.Smoothing

namespace Trading

namespace ImbalanceStrategy

variable {capacity : Nat}

/-! ### The divisors of one update -/

/-- What an update divides by, in the order of the source, the last mid only when it gets as far
as sizing an entry. -/
def divisors (strategy : ImbalanceStrategy) (book : BoundedBook capacity) : List ℚ :=
  match book.depth .bid strategy.params.depthLevels,
      book.depth .ask strategy.params.depthLevels with
  | bid :: bids, ask :: asks =>
    let bestBid := bid.price.toDouble strategy.tickSize
    let bestAsk := ask.price.toDouble strategy.tickSize
    if bestAsk ≤ bestBid then []
    else
      let mid := (bestBid + bestAsk) * (1 / 2)
      let bidSz := totalSize (bid :: bids)
      let askSz := totalSize (ask :: asks)
      let denom := bidSz + askSz
      mid ::
        if denom ≤ 0 then []
        else
          let recorded := strategy.record ((bidSz - askSz) / denom)
          denom :: (recorded.params.smoothingWindow : ℚ) :: (recorded.rollingCount : ℚ) ::
            if recorded.skipNextSignal then []
            else if recorded.position ≠ 0 then [recorded.avgEntry]
            else [mid]
  | _, _ => []

theorem divisors_congr {other : Nat} {book : BoundedBook capacity} {stand : BoundedBook other}
    (same : ∀ side n, stand.depth side n = book.depth side n) (strategy : ImbalanceStrategy) :
    strategy.divisors stand = strategy.divisors book := by
  unfold divisors
  simp only [same]

/-- A strategy that may divide: it writes inside its window, and an open position has a positive
average entry. -/
structure MayDivide (strategy : ImbalanceStrategy) : Prop where
  head : strategy.rollingHead < strategy.params.smoothingWindow
  entry : strategy.position ≠ 0 → 0 < strategy.avgEntry

theorem record_rollingCount_pos {strategy : ImbalanceStrategy}
    (window : 0 < strategy.params.smoothingWindow) (imbalance : ℚ) :
    0 < (strategy.record imbalance).rollingCount := by
  unfold record
  dsimp only
  split <;> omega

/-- On a book without a level below one tick all divisors of an update are positive. -/
theorem divisors_pos [ValidCapacity capacity] {strategy : ImbalanceStrategy}
    (mayDivide : strategy.MayDivide) (positive : 0 < strategy.tickSize)
    {book : BoundedBook capacity} (wellFormed : book.WellFormed) (held : book.HoldsFrom 1) :
    ∀ divisor ∈ strategy.divisors book, 0 < divisor := by
  have priced : ∀ side level, level ∈ book.depth side strategy.params.depthLevels →
      0 < level.price.toDouble strategy.tickSize := by
    intro side level member
    rw [BoundedBook.depth_eq wellFormed.indexed] at member
    have tick := held _ _ _ (BoundedBook.mem_levels.mp (List.mem_of_mem_take member))
    exact mul_pos (Int.cast_pos.mpr tick) positive
  have window : 0 < strategy.params.smoothingWindow :=
    lt_of_le_of_lt (Nat.zero_le _) mayDivide.head
  unfold divisors
  split
  · rename_i bid bids ask asks bidSide askSide
    have mid : 0 < (bid.price.toDouble strategy.tickSize +
        ask.price.toDouble strategy.tickSize) * (1 / 2) := by
      have bestBid := priced .bid bid (bidSide ▸ List.mem_cons_self)
      have bestAsk := priced .ask ask (askSide ▸ List.mem_cons_self)
      positivity
    dsimp only
    split
    · exact List.forall_mem_nil _
    · refine List.forall_mem_cons.mpr ⟨mid, ?_⟩
      split
      · exact List.forall_mem_nil _
      · rename_i sizes
        refine List.forall_mem_cons.mpr ⟨not_le.mp sizes, ?_⟩
        refine List.forall_mem_cons.mpr ⟨Nat.cast_pos.mpr window, ?_⟩
        refine List.forall_mem_cons.mpr ⟨Nat.cast_pos.mpr (record_rollingCount_pos window _), ?_⟩
        split
        · exact List.forall_mem_nil _
        · split
          · rename_i opened
            exact List.forall_mem_singleton.mpr (mayDivide.entry opened)
          · exact List.forall_mem_singleton.mpr mid
  · exact List.forall_mem_nil _

end ImbalanceStrategy

/-! ### One event -/

namespace Runtime

open ImbalanceStrategy (KeepsRing KeepsAccount)

/-- An order leaves the strategy alone or books one fill. -/
theorem dispatchOrder_strategy (rt : Runtime) (signal : Signal) (clock : EventClock) :
    KeepsRing rt.strategy (rt.dispatchOrder signal clock).strategy := by
  unfold dispatchOrder
  dsimp only
  split
  · exact KeepsRing.refl _
  · split
    · exact KeepsRing.refl _
    · unfold executeOrder bookFill
      split
      · exact ⟨rfl, rfl, rfl, rfl, rfl⟩
      · exact KeepsRing.refl _

/-- What follows the strategy's answer to a book leaves its ring alone. -/
theorem evaluate_keepsRing (rt : Runtime) (clock : EventClock) (recvNs : Timestamp) :
    KeepsRing (rt.strategy.onMarketUpdate rt.book clock.bookDone).2
      (rt.evaluate clock recvNs).strategy := by
  rw [evaluate_eq]
  generalize rt.strategy.onMarketUpdate rt.book clock.bookDone = decided
  dsimp only
  split
  · exact dispatchOrder_strategy ((rt.countBook clock).publishMarks.keepStrategy decided.2 clock
      recvNs).countSignal decided.1 clock
  · exact KeepsRing.refl _

/-- The ring is as it was, or the imbalance of the book has been recorded. -/
theorem evaluate_ring (rt : Runtime) (clock : EventClock) (recvNs : Timestamp) :
    rt.strategy.imbalanceOf rt.book = none ∧
        KeepsRing rt.strategy (rt.evaluate clock recvNs).strategy ∨
      ∃ imbalance, rt.strategy.imbalanceOf rt.book = some imbalance ∧
        KeepsRing (rt.strategy.record imbalance) (rt.evaluate clock recvNs).strategy := by
  have dispatched := rt.evaluate_keepsRing clock recvNs
  obtain ⟨unread, stops⟩ | ⟨imbalance, bestBid, bestAsk, found, goesOn⟩ :=
    rt.strategy.onMarketUpdate_cases rt.book clock.bookDone
  · rw [stops] at dispatched
    exact Or.inl ⟨unread, dispatched⟩
  · rw [goesOn] at dispatched
    exact Or.inr ⟨imbalance, found,
      dispatched.after (ImbalanceStrategy.afterRecord_keepsRing _ _ _ _ _)⟩

/-- An event records at most one imbalance in the ring. -/
theorem processEvent_ring (rt : Runtime) (clock : EventClock) (ev : MarketEvent) :
    KeepsRing rt.strategy (rt.processEvent clock ev).strategy ∨
      ∃ imbalance, KeepsRing (rt.strategy.record imbalance)
        (rt.processEvent clock ev).strategy := by
  cases found : rt.withBook ev with
  | none =>
    have same : (rt.processEvent clock ev).strategy = rt.strategy :=
      congrArg Desk.strategy (desk_of_withBook_none found clock)
    rw [same]
    exact Or.inl (KeepsRing.refl _)
  | some ready =>
    have same : ready.strategy = rt.strategy := congrArg Desk.strategy (withBook_keeps found).2.2
    rw [processEvent_of_withBook found, ← same]
    rcases evaluate_ring ready clock ev.recvNs with ⟨-, kept⟩ | ⟨imbalance, -, recorded⟩
    · exact Or.inl kept
    · exact Or.inr ⟨imbalance, recorded⟩

/-- The writing position stays inside the window. -/
theorem processEvent_rollingHead {rt : Runtime} (clock : EventClock) (ev : MarketEvent)
    (inside : rt.strategy.rollingHead < rt.strategy.params.smoothingWindow) :
    (rt.processEvent clock ev).strategy.rollingHead <
      (rt.processEvent clock ev).strategy.params.smoothingWindow := by
  rcases processEvent_ring rt clock ev with kept | ⟨imbalance, kept⟩
  · rw [kept.rollingHead, kept.params]
    exact inside
  · rw [kept.rollingHead, kept.params]
    exact Nat.mod_lt _ (lt_of_le_of_lt (Nat.zero_le _) inside)

/-- A fill at a positive price keeps the average entry of an open position positive. -/
theorem entry_pos_onFill {strategy : ImbalanceStrategy} {report : ExecutionReport}
    (fills : report.isFill = true) (own : report.symbolId = strategy.symbol)
    (inside : strategy.symbol < maxSymbols) (positive : 0 < strategy.tickSize)
    (priced : 1 ≤ report.execPrice.ticks)
    (entry : strategy.position ≠ 0 → 0 < strategy.avgEntry) :
    (strategy.onFill report).position ≠ 0 → 0 < (strategy.onFill report).avgEntry := by
  have price : 0 < report.execPrice.toDouble strategy.tickSize :=
    mul_pos (Int.cast_pos.mpr priced) positive
  unfold ImbalanceStrategy.position ImbalanceStrategy.avgEntry
  rw [strategy.state_onFill fills own inside]
  exact PnlTracker.avgEntry_mem_of_convex (convex_Ioi 0) (fun opened _ => entry opened)
    (fun _ => price)

theorem entry_pos_of_keepsAccount {before after : ImbalanceStrategy}
    (keeps : KeepsAccount before after) (entry : before.position ≠ 0 → 0 < before.avgEntry) :
    after.position ≠ 0 → 0 < after.avgEntry := by
  unfold ImbalanceStrategy.position ImbalanceStrategy.avgEntry
  rw [keeps.state]
  exact entry

/-- One event keeps the average entry of an open position positive, when it leaves no level below
one tick in the book. -/
theorem entry_pos_processEvent {cfg : RuntimeConfig} {rt : Runtime} (sound : Sound cfg rt)
    (valid : cfg.Valid) {clock : EventClock} {ev : MarketEvent}
    (held : (rt.processEvent clock ev).book.HoldsFrom 1)
    (entry : rt.strategy.position ≠ 0 → 0 < rt.strategy.avgEntry) :
    (rt.processEvent clock ev).strategy.position ≠ 0 →
      0 < (rt.processEvent clock ev).strategy.avgEntry := by
  have wellFormed := processEvent_wellFormed sound.wellFormed clock ev
  have symbol := fun order sent => (@sentOrder_symbolId rt clock ev order sent).1
  have handles := processEvent_handles sound.wellFormed clock ev
  show (rt.processEvent clock ev).desk.strategy.position ≠ 0 →
    0 < (rt.processEvent clock ev).desk.strategy.avgEntry
  generalize (rt.processEvent clock ev).desk = after at handles ⊢
  generalize rt.sentOrder clock ev = sent at symbol handles
  rw [sound.configured] at symbol handles
  cases handles with
  | quiet keeps => exact entry_pos_of_keepsAccount keeps entry
  | blocked keeps tripped => exact entry_pos_of_keepsAccount keeps entry
  | rejected keeps untripped refused => exact entry_pos_of_keepsAccount keeps entry
  | missed keeps untripped approved empty => exact entry_pos_of_keepsAccount keeps entry
  | @filled strategy order keeps untripped approved fills =>
    have configured : strategy.symbol = cfg.symbolId := keeps.symbol.trans sound.ledgers.symbol
    have tickSize : strategy.tickSize = cfg.tickSize := keeps.tickSize.trans sound.ledgers.tickSize
    have report := ExecutionEngine.simulate_fillsWithin wellFormed.indexed held order
      valid.tickSize clock.simulateNow
    exact entry_pos_onFill fills ((report.symbolId.trans (symbol order rfl)).trans configured.symm)
      (configured ▸ valid.symbolId) (tickSize ▸ valid.tickSize) (report.priced fills)
      (entry_pos_of_keepsAccount keeps entry)

/-! ### Whole runs -/

theorem create_mayDivide {cfg : RuntimeConfig} (valid : cfg.Valid) :
    (create cfg).strategy.MayDivide where
  head := by
    rw [create_strategy valid.symbolId]
    exact (ImbalanceStrategy.clamp_between _ (by decide)).1
  entry := by
    intro opened
    refine absurd ?_ opened
    unfold ImbalanceStrategy.position
    rw [create_state valid.symbolId]

/-- In a priced run a position that is held has a positive average entry. -/
theorem run_mayDivide {cfg : RuntimeConfig} (valid : cfg.Valid)
    {events : List (EventClock × MarketEvent)}
    (priced : ∀ handled ∈ events, handled.2.PricedFromOne cfg.tickSize) :
    (run cfg events).strategy.MayDivide := by
  induction events using List.reverseRecOn with
  | nil => exact create_mayDivide valid
  | append_singleton events handled inductionHypothesis =>
    have within := run_withinLimits valid.tickSize valid.maxPosition valid.initialCash
      valid.symbolId priced
    rw [run_concat] at within ⊢
    obtain ⟨head, entry⟩ := inductionHypothesis fun other member =>
      priced other (List.mem_append_left _ member)
    exact ⟨processEvent_rollingHead handled.1 handled.2 head,
      entry_pos_processEvent (run_sound valid events) valid within.held entry⟩

/-- After every run of priced events of a valid configuration: whatever the next event makes the
strategy divide by is positive, and so is the filled quantity the simulator divides by for the
order it sends; an open position has a positive average entry, and the ring is written inside
its window of at most 32 slots. -/
theorem run_divisors_pos (cfg : RuntimeConfig) (valid : cfg.Valid)
    (events : List (EventClock × MarketEvent)) (clock : EventClock) (ev : MarketEvent)
    (priced : ∀ handled ∈ events ++ [(clock, ev)], handled.2.PricedFromOne cfg.tickSize) :
    let rt := run cfg events
    (∀ ready, rt.withBook ev = some ready →
      ∀ divisor ∈ ready.strategy.divisors ready.book, 0 < divisor) ∧
    (∀ order, rt.sentOrder clock ev = some order →
      0 < (ExecutionEngine.simulate order (rt.processEvent clock ev).book cfg.tickSize
        clock.simulateNow).execQty.value) ∧
    (rt.strategy.position ≠ 0 → 0 < rt.strategy.avgEntry) ∧
    rt.strategy.rollingHead < rt.strategy.params.smoothingWindow ∧
    rt.strategy.params.smoothingWindow = cfg.strategy.smoothingWindow ∧
    cfg.strategy.smoothingWindow ≤ 32 := by
  intro rt
  have sound : Sound cfg rt := run_sound valid events
  have mayDivide : rt.strategy.MayDivide := run_mayDivide valid fun other member =>
    priced other (List.mem_append_left _ member)
  have within := run_withinLimits valid.tickSize valid.maxPosition valid.initialCash valid.symbolId
    priced
  rw [run_concat] at within
  refine ⟨fun ready found => ?_, fun order sent => ?_, mayDivide.entry, mayDivide.head, ?_,
    valid.smoothingWindow.2⟩
  · have same : ready.strategy = rt.strategy := congrArg Desk.strategy (withBook_keeps found).2.2
    have held := within.held
    have wellFormed := within.wellFormed
    rw [withBook_book found] at held wellFormed
    rw [same]
    exact ImbalanceStrategy.divisors_pos mayDivide (sound.ledgers.tickSize.symm ▸ valid.tickSize)
      wellFormed held
  · exact of_decide_eq_true (sound.fills valid.tickSize sent clock.simulateNow).1
  · have params : rt.strategy.params = _ := sound.ledgers.params
    rw [params]
    show ImbalanceStrategy.clamp cfg.strategy.smoothingWindow maxRolling = _
    obtain ⟨positive, bounded⟩ := valid.smoothingWindow
    simp only [ImbalanceStrategy.clamp, if_neg (Nat.pos_iff_ne_zero.mp positive),
      if_neg (Nat.not_lt.mpr bounded)]

/-- Behind a small snapshot the divisors are read off its small book. -/
theorem divisors_rebuilt (rt : Runtime) {ev : MarketEvent} (small : ev.Small) :
    (rt.countMessage.rebuildBook ev.snap).strategy.divisors
        (rt.countMessage.rebuildBook ev.snap).book =
      rt.strategy.divisors ev.snap.smallBook :=
  (ImbalanceStrategy.divisors_congr (fun side => (small.queries rt.book side).2) rt.strategy).symm

theorem tradingDay_divisors :
    ((create boldConfig).desk.tradeAll boldConfig [entryQuote, thinQuote]).strategy.divisors
        rallyQuote.2.snap.smallBook = [100001 / 200, 6, 5, 3, 10001 / 100] ∧
      (((create boldConfig).desk.tradeAll boldConfig [entryQuote, thinQuote]).trade boldConfig
        rallyQuote.2.snap.smallBook rallyQuote.1).1.isSome = true := by
  decide +kernel

/-- At the exit of a run the strategy divides by the mid, by the six units of the book, by the
window, by the three samples in it and by the average entry. -/
theorem run_divisors_pos_tradingDay :
    ∃ ready, (run boldConfig [entryQuote, thinQuote]).withBook rallyQuote.2 = some ready ∧
      ready.strategy.divisors ready.book = [100001 / 200, 6, 5, 3, 10001 / 100] ∧
      (∀ divisor ∈ ready.strategy.divisors ready.book, 0 < divisor) ∧
      ∃ order, (run boldConfig [entryQuote, thinQuote]).sentOrder rallyQuote.1 rallyQuote.2 =
          some order ∧
        0 < (ExecutionEngine.simulate order ((run boldConfig [entryQuote, thinQuote]).processEvent
          rallyQuote.1 rallyQuote.2).book boldConfig.tickSize
          rallyQuote.1.simulateNow).execQty.value := by
  have day : [entryQuote, thinQuote] ++ [(rallyQuote.1, rallyQuote.2)] = tradingDay := rfl
  obtain ⟨divisors, filled, -⟩ := run_divisors_pos boldConfig boldConfig_valid
    [entryQuote, thinQuote] rallyQuote.1 rallyQuote.2 (by rw [day]; exact tradingDay_priced)
  have desk := run_desk boldConfig (List.forall_mem_cons.mpr
    ⟨entryQuote_small, List.forall_mem_singleton.mpr thinQuote_small⟩)
  have configured := (run_sound boldConfig_valid [entryQuote, thinQuote]).configured
  generalize run boldConfig [entryQuote, thinQuote] = rt at *
  have found : rt.withBook rallyQuote.2 =
      some (rt.countMessage.rebuildBook rallyQuote.2.snap) := by
    rw [withBook, rallyQuote_small.kind]
  have sends : (rt.sentOrder rallyQuote.1 rallyQuote.2).isSome = true := by
    rw [(rt.processEvent_small rallyQuote_small rallyQuote.1).1, desk, configured]
    exact tradingDay_divisors.2
  obtain ⟨order, sent⟩ := Option.isSome_iff_exists.mp sends
  refine ⟨_, found, ?_, divisors _ found, order, sent, filled order sent⟩
  rw [divisors_rebuilt rt rallyQuote_small, (of_desk desk).2.2.2]
  exact tradingDay_divisors.1

end Runtime

end Trading
