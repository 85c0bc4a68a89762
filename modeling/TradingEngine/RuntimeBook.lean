/-
This file says what handling one event does to the book: which calls it makes on it, and
that nothing after those calls (marks, strategy, risk check, fill) touches the book, its
readiness or the configuration. Every book the runtime holds is therefore one that calls
on a fresh book can reach.

So what is proved of the book for every sequence of calls holds of the runtime's book at
every event, whether the event is a snapshot, which clears the book and anchors it before
it enters its levels, or an update, which is applied only to a book that is ready.
-/

import TradingEngine.Runtime

namespace Trading

open BoundedBook (Call)

/-! ### The calls of an event -/

/-- The anchoring call of a snapshot, if both sides have a live level. -/
def anchorCalls (bids asks : List PriceLevel) : List Call :=
  if bestBidTick bids ≠ int64Min ∧ bestAskTick asks ≠ int64Max then
    [.seedReference (Price.fromTicks
      (bestBidTick bids + (bestAskTick asks - bestBidTick bids).tdiv 2))]
  else []

/-- The calls that enter some levels on a side. -/
def levelCalls (side : Side) (levels : List PriceLevel) : List Call :=
  levels.map fun level => .update side level.price level.qty

/-- The calls that enter some changes. -/
def changeCalls [DoubleDivision] (tickSize : ℚ) (changes : List CoinbaseChange) : List Call :=
  changes.map fun change =>
    .update change.side (Price.fromDouble change.price tickSize) ⟨change.qty⟩

/-- The calls a snapshot makes: clear, anchor, then the bids, then the asks. -/
def MarketEvent.Snap.calls (snap : MarketEvent.Snap) : List Call :=
  .clear :: (anchorCalls snap.bidLevels snap.askLevels ++ levelCalls .bid snap.bidLevels ++
    levelCalls .ask snap.askLevels)

/-- The calls an event makes on the book, given whether the book was ready before it. -/
def MarketEvent.calls [DoubleDivision] (ev : MarketEvent) (tickSize : ℚ) (bookReady : Bool) :
    List Call :=
  match ev.kind with
  | .snapshot => ev.snap.calls
  | .l2Update => if bookReady then changeCalls tickSize ev.l2.changes else []
  | .heartbeat => []

namespace BoundedBook

variable {capacity : Nat}

theorem insertLevels_eq (book : BoundedBook capacity) (side : Side) (levels : List PriceLevel) :
    book.insertLevels side levels = (levelCalls side levels).foldl call book := by
  rw [levelCalls, List.foldl_map]
  rfl

theorem applyChanges_eq [DoubleDivision] (book : BoundedBook capacity) (tickSize : ℚ)
    (changes : List CoinbaseChange) :
    book.applyChanges tickSize changes = (changeCalls tickSize changes).foldl call book := by
  rw [changeCalls, List.foldl_map]
  rfl

theorem anchorOnMid_eq (book : BoundedBook capacity) (bids asks : List PriceLevel) :
    book.anchorOnMid bids asks = (anchorCalls bids asks).foldl call book := by
  unfold anchorOnMid anchorCalls
  dsimp only
  split <;> rfl

theorem applySnapshot_eq (book : BoundedBook capacity) (snap : MarketEvent.Snap) :
    book.applySnapshot snap = snap.calls.foldl call book := by
  unfold applySnapshot MarketEvent.Snap.calls
  rw [List.foldl_cons, List.foldl_append, List.foldl_append, insertLevels_eq, insertLevels_eq,
    anchorOnMid_eq]
  rfl

end BoundedBook

namespace Runtime

/-! ### What the later stages leave alone -/

/-- The configuration, the book, its readiness and the network thread's count of lost events
are unchanged. -/
structure KeepsMarket (before after : Runtime) : Prop where
  cfg : after.cfg = before.cfg
  book : after.book = before.book
  bookReady : after.bookReady = before.bookReady
  queueFullDrops : after.metrics.queueFullDrops = before.metrics.queueFullDrops

theorem KeepsMarket.after {first second third : Runtime} (later : KeepsMarket second third)
    (earlier : KeepsMarket first second) : KeepsMarket first third :=
  ⟨later.cfg.trans earlier.cfg, later.book.trans earlier.book,
    later.bookReady.trans earlier.bookReady, later.queueFullDrops.trans earlier.queueFullDrops⟩

theorem bookFill_keepsMarket (rt : Runtime) (order : NewOrder) (report : ExecutionReport) :
    KeepsMarket rt (rt.bookFill order report) := by
  unfold bookFill
  split <;> exact ⟨rfl, rfl, rfl, rfl⟩

variable [DoubleDivision]

theorem executeOrder_keepsMarket (rt : Runtime) (order : NewOrder) (clock : EventClock) :
    KeepsMarket rt (rt.executeOrder order clock) :=
  (bookFill_keepsMarket _ _ _).after ⟨rfl, rfl, rfl, rfl⟩

theorem dispatchOrder_keepsMarket (rt : Runtime) (signal : Signal) (clock : EventClock) :
    KeepsMarket rt (rt.dispatchOrder signal clock) := by
  unfold dispatchOrder
  dsimp only
  split
  · exact ⟨rfl, rfl, rfl, rfl⟩
  · split
    · exact ⟨rfl, rfl, rfl, rfl⟩
    · exact (executeOrder_keepsMarket _ _ _).after ⟨rfl, rfl, rfl, rfl⟩

theorem evaluate_keepsMarket (rt : Runtime) (clock : EventClock) (recvNs : Timestamp) :
    KeepsMarket rt (rt.evaluate clock recvNs) := by
  unfold evaluate
  dsimp only
  split
  · exact (dispatchOrder_keepsMarket _ _ _).after ⟨rfl, rfl, rfl, rfl⟩
  · exact ⟨rfl, rfl, rfl, rfl⟩

/-! ### One event -/

theorem processEvent_cfg (rt : Runtime) (clock : EventClock) (ev : MarketEvent) :
    (rt.processEvent clock ev).cfg = rt.cfg := by
  unfold processEvent
  cases ev.kind with
  | snapshot => exact (evaluate_keepsMarket _ _ _).cfg
  | heartbeat => rfl
  | l2Update =>
    dsimp only
    split
    · rfl
    · exact (evaluate_keepsMarket _ _ _).cfg

theorem processEvent_queueFullDrops (rt : Runtime) (clock : EventClock) (ev : MarketEvent) :
    (rt.processEvent clock ev).metrics.queueFullDrops = rt.metrics.queueFullDrops := by
  unfold processEvent
  cases ev.kind with
  | snapshot => exact (evaluate_keepsMarket _ _ _).queueFullDrops
  | heartbeat => rfl
  | l2Update =>
    dsimp only
    split
    · rfl
    · exact (evaluate_keepsMarket _ _ _).queueFullDrops

theorem processEvent_book (rt : Runtime) (clock : EventClock) (ev : MarketEvent) :
    (rt.processEvent clock ev).book =
      (ev.calls rt.cfg.tickSize rt.bookReady).foldl BoundedBook.call rt.book := by
  unfold processEvent MarketEvent.calls
  cases ev.kind with
  | snapshot =>
    dsimp only
    rw [(evaluate_keepsMarket _ _ _).book, ← BoundedBook.applySnapshot_eq]
    rfl
  | heartbeat => rfl
  | l2Update =>
    cases rt.bookReady with
    | false => rfl
    | true =>
      simp only [Bool.not_true, Bool.false_eq_true, if_false, if_true]
      rw [(evaluate_keepsMarket _ _ _).book, ← BoundedBook.applyChanges_eq]
      rfl

theorem processEvent_wellFormed {rt : Runtime} (wellFormed : rt.book.WellFormed)
    (clock : EventClock) (ev : MarketEvent) : (rt.processEvent clock ev).book.WellFormed := by
  rw [processEvent_book]
  exact wellFormed.foldl _

/-- Only a snapshot makes a book ready, and no event makes it unready. -/
theorem processEvent_bookReady (rt : Runtime) (clock : EventClock) (ev : MarketEvent) :
    (rt.processEvent clock ev).bookReady = (rt.bookReady || decide (ev.kind = .snapshot)) := by
  unfold processEvent
  cases ev.kind with
  | snapshot =>
    dsimp only
    rw [(evaluate_keepsMarket _ _ _).bookReady]
    exact (Bool.or_true _).symm
  | heartbeat => exact (Bool.or_false _).symm
  | l2Update =>
    dsimp only
    split
    · exact (Bool.or_false _).symm
    · rw [(evaluate_keepsMarket _ _ _).bookReady]
      exact (Bool.or_false _).symm

/-! ### Whole runs -/

/-- The runtime after a sequence of events, each handled at its own clock readings. -/
def run (cfg : RuntimeConfig) (events : List (EventClock × MarketEvent)) : Runtime :=
  events.foldl (fun rt handled => rt.processEvent handled.1 handled.2) (create cfg)

end Runtime

end Trading
