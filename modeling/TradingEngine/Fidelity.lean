/-
This file compares the book at the end of the pipeline with the messages at its
start. On one connection, with no event lost and everything handled, the book is the
plain reference map of the feed: of the levels the snapshot event carries, which are
the first `maxSnapLevels` of each side, and of every change after them. The levels a
longer snapshot lists behind those are not in the book, and when the changes take
away the levels in front of them, the touch of the book is not the touch of the feed.
-/

import TradingEngine.FeedOrder
import TradingEngine.ReferenceBook

namespace Trading

open Transition
open BoundedBook (Call Band)

/-! ### Calls inside a band -/

/-- A best tick is the tick of a level, unless there was none to choose. -/
theorem foldl_choose_mem {choose : Int → Int → Int}
    (chooses : ∀ first second, choose first second = first ∨ choose first second = second)
    (levels : List PriceLevel) (start : Int) :
    levels.foldl (fun best level =>
        if 0 < level.qty.value then choose best level.price.ticks else best) start = start ∨
      ∃ level ∈ levels, level.price.ticks = levels.foldl (fun best level =>
        if 0 < level.qty.value then choose best level.price.ticks else best) start := by
  induction levels generalizing start with
  | nil => exact Or.inl rfl
  | cons level rest inductionHypothesis =>
    rw [List.foldl_cons]
    have later := inductionHypothesis
      (if 0 < level.qty.value then choose start level.price.ticks else start)
    rcases later with same | ⟨other, member, same⟩
    · rw [same]
      split
      · rcases chooses start level.price.ticks with kept | taken
        · exact Or.inl kept
        · exact Or.inr ⟨level, List.mem_cons_self, taken.symm⟩
      · exact Or.inl rfl
    · exact Or.inr ⟨other, List.mem_cons_of_mem _ member, same⟩

/-- The middle of two ticks lies between them, whichever of them is lower. -/
theorem mid_mem_uIcc (bid ask : Int) : bid + (ask - bid).tdiv 2 ∈ Set.uIcc bid ask := by
  rw [Set.mem_uIcc]
  rcases le_total bid ask with ordered | crossed
  · rw [Int.tdiv_eq_ediv_of_nonneg (by omega)]
    omega
  · rw [show ask - bid = -(bid - ask) by omega, Int.neg_tdiv,
      Int.tdiv_eq_ediv_of_nonneg (by omega)]
    omega

/-- A two-sided snapshot whose levels lie inside a range without gaps has its best ticks and their
middle there too. -/
theorem best_inside {inside : Int → Prop} (convex : {tick | inside tick}.OrdConnected)
    {bids asks : List PriceLevel} (bidsIn : ∀ level ∈ bids, inside level.price.ticks)
    (asksIn : ∀ level ∈ asks, inside level.price.ticks)
    (live : bestBidTick bids ≠ int64Min ∧ bestAskTick asks ≠ int64Max) :
    inside (bestBidTick bids) ∧ inside (bestAskTick asks) ∧
      inside (bestBidTick bids + (bestAskTick asks - bestBidTick bids).tdiv 2) := by
  obtain ⟨bid, bidListed, bidTick⟩ :=
    (foldl_choose_mem max_choice bids int64Min).resolve_left live.1
  obtain ⟨ask, askListed, askTick⟩ :=
    (foldl_choose_mem min_choice asks int64Max).resolve_left live.2
  have bidIn := bidsIn bid bidListed
  have askIn := asksIn ask askListed
  rw [bidTick] at bidIn
  rw [askTick] at askIn
  exact ⟨bidIn, askIn, convex.uIcc_subset bidIn askIn (mid_mem_uIcc _ _)⟩

variable {capacity : Nat} {low : Int}

/-- The mid a snapshot is anchored on lies in the band of its levels. -/
theorem anchorCalls_inBand {bids asks : List PriceLevel}
    (bidsInside : ∀ call ∈ levelCalls .bid bids, call.InBand capacity low)
    (asksInside : ∀ call ∈ levelCalls .ask asks, call.InBand capacity low) :
    ∀ call ∈ anchorCalls bids asks, call.InBand capacity low := by
  unfold anchorCalls
  split
  · rename_i live
    intro call member
    rw [List.mem_singleton.mp member]
    exact (best_inside (Band.convex low)
      (fun _ listed => bidsInside _ (List.mem_map_of_mem listed))
      (fun _ listed => asksInside _ (List.mem_map_of_mem listed)) live).2.2
  · exact nofun

/-! ### The feed as calls -/

/-- A clear and an anchor leave no trace in a map. -/
theorem ReferenceBook.run_anchored (bids asks : List PriceLevel) (calls : List Call) :
    run (.clear :: (anchorCalls bids asks ++ calls)) = run calls := by
  unfold anchorCalls
  split <;> rfl

/-- A message with only the levels a snapshot event has room for. -/
def CoinbaseMessage.truncated (msg : CoinbaseMessage) : CoinbaseMessage :=
  { msg with bids := msg.bids.take maxSnapLevels, asks := msg.asks.take maxSnapLevels }

/-- Nothing is on its way: no event waits to be pushed, on the queue or to be handled. -/
def System.Settled (s : System) : Prop :=
  s.pipeline.pending = [] ∧ s.queue = [] ∧ s.pipeline.held = none

section Feed

variable [DoubleDivision]

namespace CoinbaseMessage

/-- The bid levels of a message, in ticks. -/
def bidLevels (msg : CoinbaseMessage) (tickSize : ℚ) : List PriceLevel :=
  msg.bids.map fun level => level.toLevel tickSize

/-- The ask levels of a message, in ticks. -/
def askLevels (msg : CoinbaseMessage) (tickSize : ℚ) : List PriceLevel :=
  msg.asks.map fun level => level.toLevel tickSize

/-- A snapshot message is one event. -/
theorem events_snapshot {msg : CoinbaseMessage} (snapshot : msg.type = .snapshot) (tickSize : ℚ)
    (recvTs : Timestamp) :
    ∃ event, msg.events tickSize recvTs = [event] ∧
      event.snap = MarketEvent.Snap.ofMessage msg tickSize := by
  rw [events, snapshot]
  exact ⟨_, rfl, rfl⟩

/-- The events of an update carry its changes, in order. -/
theorem changes_events {msg : CoinbaseMessage} (update : msg.type = .l2Update) (tickSize : ℚ)
    (recvTs : Timestamp) :
    (msg.events tickSize recvTs).flatMap (fun event => event.l2.changes) = msg.changes := by
  rw [events, update]
  dsimp only
  rw [List.flatMap_map]
  exact MarketEvent.L2.changes_chunks msg.changes

end CoinbaseMessage

/-- The calls on a plain map that a feed stands for: every level of the snapshot and then every
change. -/
def feedCalls (tickSize : ℚ) (snapshot : CoinbaseMessage)
    (updates : List (CoinbaseMessage × Timestamp)) : List Call :=
  levelCalls .bid (snapshot.bidLevels tickSize) ++ levelCalls .ask (snapshot.askLevels tickSize) ++
    changeCalls tickSize (updates.flatMap fun message => message.1.changes)

/-- The runtime's calls are those of the truncated feed, behind a clear and an anchor. -/
theorem snapCalls_append_changeCalls (tickSize : ℚ) (snapshot : CoinbaseMessage)
    (updates : List (CoinbaseMessage × Timestamp)) :
    (MarketEvent.Snap.ofMessage snapshot tickSize).calls ++
        changeCalls tickSize (updates.flatMap fun message => message.1.changes) =
      .clear :: (anchorCalls (snapshot.truncated.bidLevels tickSize)
        (snapshot.truncated.askLevels tickSize) ++
          feedCalls tickSize snapshot.truncated updates) := by
  rw [MarketEvent.Snap.calls, MarketEvent.Snap.bidLevels_ofMessage,
    MarketEvent.Snap.askLevels_ofMessage]
  simp only [feedCalls, List.cons_append, List.append_assoc]
  rfl

/-- The book of a truncated feed inside a band is its reference map. -/
theorem topOfBook_feed {tickSize : ℚ} {snapshot : CoinbaseMessage}
    {updates : List (CoinbaseMessage × Timestamp)}
    (inside : ∀ call ∈ feedCalls tickSize snapshot.truncated updates,
      call.InBand bookCapacity low) (side : Side) :
    (((MarketEvent.Snap.ofMessage snapshot tickSize).calls ++
        changeCalls tickSize (updates.flatMap fun message => message.1.changes)).foldl
          BoundedBook.call (BoundedBook.fresh bookCapacity)).topOfBook side =
      (ReferenceBook.run (feedCalls tickSize snapshot.truncated updates)).best side := by
  have bidsInside : ∀ call ∈ levelCalls .bid (snapshot.truncated.bidLevels tickSize),
      call.InBand bookCapacity low := fun call member =>
    inside call (List.mem_append_left _ (List.mem_append_left _ member))
  have asksInside : ∀ call ∈ levelCalls .ask (snapshot.truncated.askLevels tickSize),
      call.InBand bookCapacity low := fun call member =>
    inside call (List.mem_append_left _ (List.mem_append_right _ member))
  rw [snapCalls_append_changeCalls, BoundedBook.topOfBook_foldl_fresh low,
    ReferenceBook.run_anchored]
  intro call member
  rcases List.mem_cons.mp member with rfl | later
  · trivial
  · rcases List.mem_append.mp later with anchoring | feeding
    · exact anchorCalls_inBand bidsInside asksInside call anchoring
    · exact inside call feeding

/-! ### The end of the pipeline -/

namespace System

/-- The events handled in a settled system that lost none are those of the feed. -/
theorem handled_eq {cfg : RuntimeConfig} {s : System}
    (reached : Reaches step OneConnection (initial cfg) s)
    (kept : s.rt.metrics.queueFullDrops = 0) (settled : s.Settled) :
    s.handled.map Entry.event = s.pipeline.receivedEvents := by
  obtain ⟨idle, empty, free⟩ := settled
  have feed := oneFeed reached
  have fifo : s.pipeline.accepted = s.handled := by
    have order := feed.inOrder.fifo
    rw [free, show s.pipeline.queue = [] from empty] at order
    rw [List.append_nil, Option.toList_none, List.append_nil] at order
    exact order
  have offered := feed.offered_eq kept
  rw [Pipeline.offeredEvents, idle, List.append_nil, fifo] at offered
  exact offered

/-- With nothing lost and nothing on its way, the book comes from the calls of the messages. -/
theorem book_of_settled {cfg : RuntimeConfig} {s : System}
    (reached : Reaches step OneConnection (initial cfg) s)
    (kept : s.rt.metrics.queueFullDrops = 0) (settled : s.Settled) {snapshot : CoinbaseMessage}
    {recvTs : Timestamp} {updates : List (CoinbaseMessage × Timestamp)}
    (received : s.received = (snapshot, recvTs) :: updates) :
    s.rt.book = ((MarketEvent.Snap.ofMessage snapshot cfg.tickSize).calls ++
        changeCalls cfg.tickSize (updates.flatMap fun message => message.1.changes)).foldl
          BoundedBook.call (BoundedBook.fresh bookCapacity) := by
  have feed := oneFeed reached
  have typed := feed.typed
  rw [show s.pipeline.received = _ from received] at typed
  obtain ⟨first, single, carried⟩ :=
    CoinbaseMessage.events_snapshot typed.1 s.pipeline.tickSize recvTs
  have handled := handled_eq reached kept settled
  rw [Pipeline.receivedEvents, show s.pipeline.received = _ from received, List.flatMap_cons,
    single, List.singleton_append] at handled
  have changes : ((updates.flatMap fun message =>
        message.1.events s.pipeline.tickSize message.2).flatMap fun event => event.l2.changes) =
      updates.flatMap fun message => message.1.changes := by
    rw [List.flatMap_assoc]
    exact List.flatMap_congr fun message member =>
      CoinbaseMessage.changes_events (typed.2 message member) _ _
  have book := feed.book_eq handled
  rw [carried, changes, show s.pipeline.tickSize = cfg.tickSize from tickSize_eq reached] at book
  exact book

/-- On one connection with no event lost, once everything is handled, each side of the book
has the touch of the plain map of the feed: of the first `maxSnapLevels` levels of each side of
the snapshot and every change after it, all inside a band of half the capacity. -/
theorem topOfBook_eq_feed (cfg : RuntimeConfig) (s : System)
    (reached : Reaches step OneConnection (initial cfg) s)
    (kept : s.rt.metrics.queueFullDrops = 0) (settled : s.Settled) (snapshot : CoinbaseMessage)
    (recvTs : Timestamp) (updates : List (CoinbaseMessage × Timestamp))
    (received : s.received = (snapshot, recvTs) :: updates) (low : Int)
    (inside : ∀ call ∈ feedCalls cfg.tickSize snapshot.truncated updates,
      call.InBand bookCapacity low) (side : Side) :
    s.rt.book.topOfBook side =
      (ReferenceBook.run (feedCalls cfg.tickSize snapshot.truncated updates)).best side := by
  rw [book_of_settled reached kept settled received]
  exact topOfBook_feed inside side

/-- A snapshot and an update of one event each are received, pushed and handled. -/
theorem reaches_updated (cfg : RuntimeConfig) {snapshot update : CoinbaseMessage}
    (first : snapshot.type = .snapshot) (second : update.type = .l2Update)
    (recvTs later : Timestamp)
    {quote lift : MarketEvent} (quoted : snapshot.events cfg.tickSize recvTs = [quote])
    (lifted : update.events cfg.tickSize later = [lift]) :
    ∃ s, Reaches step OneConnection (initial cfg) s ∧
      s.received = [(snapshot, recvTs), (update, later)] ∧ s.rt.metrics.queueFullDrops = 0 ∧
      s.Settled := by
  have executed : ∃ rt, execute step OneConnection (initial cfg) [.dial, .connect] =
      some { initial cfg with rt, network := .online, connection := 1 } ∧
      rt.cfg = cfg ∧ rt.metrics.queueFullDrops = 0 := ⟨_, rfl, rfl, rfl⟩
  obtain ⟨rt, executed, configured, noDrops⟩ := executed
  have connected := Reaches.start.execute executed
  obtain ⟨one, keptOne, pushedOne⟩ := reaches_pushed connected rfl rfl first
    (by rw [configured]; exact quoted) (Nat.zero_lt_succ 4095)
  have tickSize : one.cfg.tickSize = cfg.tickSize := by rw [keptOne.cfg, configured]
  obtain ⟨two, keptTwo, pushedTwo⟩ := reaches_pushed pushedOne rfl rfl
    (oneConnection_update (List.cons_ne_nil _ _) second later later)
    (by rw [tickSize]; exact lifted) (Nat.succ_lt_succ (Nat.zero_lt_succ 4094))
  obtain ⟨after, rebuiltFrom, -, drops, drained⟩ := reaches_drained pushedTwo rfl rfl rfl
    (List.append_nil _).symm
  refine ⟨_, drained, rfl, ?_, ⟨rfl, rfl, rfl⟩⟩
  exact drops.trans (keptTwo.queueFullDrops.trans (keptOne.queueFullDrops.trans noDrops))

end System

end Feed

namespace System

/-- A lifted bid behind a snapshot. -/
theorem topOfBook_eq_feed_lift :
    ∃ s, Reaches step OneConnection (initial {}) s ∧
      s.received = [(quoteMessage, 1), (liftMessage, 7)] ∧ s.Settled ∧
      s.rt.book.topOfBook .bid = some ⟨⟨10010⟩, ⟨2⟩⟩ := by
  obtain ⟨s, reached, received, kept, settled⟩ :=
    reaches_updated {} (rfl : quoteMessage.type = _) rfl 1 7 rfl (liftMessage_events _ 7)
  refine ⟨s, reached, received, settled, ?_⟩
  rw [topOfBook_eq_feed {} s reached kept settled quoteMessage 1 [(liftMessage, 7)] received 10000
    (by decide +kernel) .bid]
  decide +kernel

/-- A snapshot of 65 bids from 100 down, one tick apart, and one ask at 102. -/
def deepMessage : CoinbaseMessage :=
  ⟨.snapshot, (List.range 65).map fun i => ⟨100 - i / 100, 1⟩, [⟨102, 1⟩], []⟩

/-- An update that takes away the first 64 of these bids. -/
def sweepMessage : CoinbaseMessage :=
  ⟨.l2Update, [], [], (List.range 64).map fun i => ⟨.bid, 100 - i / 100, 0⟩⟩

/-- The bid behind the first 64 never reaches the book: once they are gone, the feed has a bid
and the book has none. -/
theorem topOfBook_loses_deep_bid :
    ∃ s, Reaches step OneConnection (initial {}) s ∧
      s.received = [(deepMessage, 1), (sweepMessage, 7)] ∧
      s.rt.metrics.queueFullDrops = 0 ∧ s.Settled ∧
      (∀ call ∈ feedCalls (1 / 100) deepMessage [(sweepMessage, 7)],
        call.InBand bookCapacity 9900) ∧
      s.rt.book.topOfBook .bid = none ∧
      (ReferenceBook.run (feedCalls (1 / 100) deepMessage [(sweepMessage, 7)])).best .bid =
        some ⟨⟨9936⟩, ⟨1⟩⟩ := by
  obtain ⟨s, reached, received, kept, settled⟩ :=
    reaches_updated {} (rfl : deepMessage.type = _) (rfl : sweepMessage.type = _) 1 7 rfl rfl
  refine ⟨s, reached, received, kept, settled, by decide +kernel, ?_, by decide +kernel⟩
  have inside : ∀ call ∈ feedCalls (1 / 100) deepMessage.truncated [(sweepMessage, 7)],
      call.InBand bookCapacity 9900 := by decide +kernel
  rw [book_of_settled reached kept settled received]
  refine (topOfBook_feed inside .bid).trans ?_
  decide +kernel

end System

end Trading
