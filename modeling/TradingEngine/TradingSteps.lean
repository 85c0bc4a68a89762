/-
This file carries what holds of the strategy thread's runs to every interleaving of the
threads. A step of the system leaves the strategy thread's runtime alone up to the
counters of the feed, or resets it after a reconnect, or has it handle one event; so a
property that survives the three holds in every reachable state. The reset changes no
ledger, which is why the limits, the agreement of the two ledgers, the order counters
and the published account all survive reconnects.
-/

import TradingEngine.OrderCounters
import TradingEngine.Positions
import TradingEngine.Reconnect

namespace Trading

open Transition

/-! ### What a step does to the runtime -/

namespace Runtime

/-- Nothing changed but metrics, and none of those the order path counts. -/
structure Counts (before after : Runtime) : Prop where
  rest : after = { before with metrics := after.metrics }
  desk : after.desk = before.desk

theorem Counts.refl (rt : Runtime) : Counts rt rt := ⟨rfl, rfl⟩

theorem Counts.after {first second third : Runtime} (later : Counts second third)
    (earlier : Counts first second) : Counts first third := by
  refine ⟨?_, later.desk.trans earlier.desk⟩
  rw [later.rest, earlier.rest]

/-- What the strategy thread does with an invalidation. -/
def reset (rt : Runtime) : Runtime :=
  { rt with bookReady := false, strategy := rt.strategy.onReconnect }

end Runtime

namespace System

theorem offer_counts (s : System) (events : List MarketEvent) :
    s.rt.Counts (s.offer events).rt := by
  cases events with
  | nil => exact .refl _
  | cons event rest => cases rest <;> exact ⟨rfl, rfl⟩

theorem push_counts (s : System) (event : MarketEvent) (retries : Nat) (rest : List MarketEvent) :
    s.rt.Counts (s.push event retries rest).rt := by
  unfold push
  split
  · exact offer_counts
      { s with
        queue := s.queue ++ [⟨s.connection, event⟩]
        accepted := s.accepted ++ [⟨s.connection, event⟩] } rest
  · split
    · exact .refl _
    · exact (offer_counts s.countDrop rest).after ⟨rfl, rfl⟩

theorem receive_counts (s : System) (msg : CoinbaseMessage) (recvTs parseDone : Timestamp) :
    s.rt.Counts (s.receive msg recvTs parseDone).rt := by
  unfold receive
  dsimp only
  split
  · exact ⟨rfl, rfl⟩
  · refine (offer_counts _ _).after ⟨rfl, rfl⟩

/-- A step of the system, as the runtime of the strategy thread sees it. -/
inductive RuntimeMoves (s : System) : Action → Runtime → Prop where
  | counts {action : Action} {rt : Runtime} (counted : s.rt.Counts rt) : RuntimeMoves s action rt
  | reset (flagged : s.bookInvalidate = true) : RuntimeMoves s .exchange s.rt.reset
  | event (entry : Entry) (drained : Bool) (clock : EventClock)
      (handling : s.strategy = .handling entry drained) :
      RuntimeMoves s (.handle clock) (s.rt.processEvent clock entry.event)

theorem runtime_of_step {s after : System} {action : Action}
    (stepped : s.step action = some after) : s.RuntimeMoves action after.rt := by
  have same : ∀ {action : Action}, s.RuntimeMoves action s.rt := .counts (.refl _)
  cases moves_of_step stepped with
  | connect dialing =>
    unfold connect
    dsimp only
    split <;> exact .counts ⟨rfl, rfl⟩
  | receive msg recvTs parseDone reading => exact .counts (receive_counts s msg recvTs parseDone)
  | push event retries rest pushing => exact .counts (push_counts s event retries rest)
  | measure | parseError => exact .counts ⟨rfl, rfl⟩
  | exchange exchanging =>
    unfold exchange
    split
    · rename_i flagged
      exact .reset flagged
    · exact same
  | pop popping =>
    unfold pop
    split <;> exact same
  | drain draining =>
    unfold pop
    split <;> exact same
  | handle entry drained clock handling => exact .event entry drained clock handling
  | dial | connectFailed | testWsRunning | readTimeout | disconnect | testRunning | stop
  | joinNetwork | clearRunning | joinStrategy => exact same

/-- What holds of a fresh runtime and survives counting, the reset and every event at hand holds
of the runtime in every interleaving. -/
theorem reaches_runtime {allowed : System → Action → Prop} {cfg : RuntimeConfig}
    (Invariant : Runtime → Prop) (start : Invariant (Runtime.create cfg))
    (counts : ∀ before after, before.Counts after → Invariant before → Invariant after)
    (reset : ∀ rt, Invariant rt → Invariant rt.reset)
    (event : ∀ (t : System) (entry : Entry) (drained : Bool) (clock : EventClock),
      Reaches step allowed (initial cfg) t → t.strategy = .handling entry drained →
      Invariant t.rt → Invariant (t.rt.processEvent clock entry.event))
    {s : System} (reached : Reaches step allowed (initial cfg) s) : Invariant s.rt := by
  induction reached with
  | start => exact start
  | @next t after action earlier permitted stepped inductionHypothesis =>
    have moved := runtime_of_step stepped
    generalize after.rt = rt at moved ⊢
    cases moved with
    | counts counted => exact counts _ _ counted inductionHypothesis
    | reset flagged => exact reset _ inductionHypothesis
    | event entry drained clock handling =>
      exact event _ entry drained clock earlier handling inductionHypothesis

end System

/-! ### Feeds priced from one tick on -/

/-- Every price of the message is at least one tick. -/
def CoinbaseMessage.PricedFromOne (msg : CoinbaseMessage) (tickSize : ℚ) : Prop :=
  (∀ level ∈ msg.bids ++ msg.asks, tickSize ≤ level.price) ∧
    ∀ change ∈ msg.changes, tickSize ≤ change.price

theorem CoinbasePriceLevel.one_le_ticks {tickSize : ℚ} (positive : 0 < tickSize)
    {level : CoinbasePriceLevel} (priced : tickSize ≤ level.price) :
    1 ≤ (level.toLevel tickSize).price.ticks := by
  refine Rounding.le_llround_of_le ?_
  have atLeastOne : (1 : ℚ) ≤ level.price / tickSize := (one_le_div positive).mpr priced
  rwa [Int.cast_one]

/-- What a priced message becomes is priced. -/
theorem CoinbaseMessage.PricedFromOne.events {msg : CoinbaseMessage} {tickSize : ℚ}
    (priced : msg.PricedFromOne tickSize) (positive : 0 < tickSize) (recvTs : Timestamp) :
    ∀ ev ∈ msg.events tickSize recvTs, ev.PricedFromOne tickSize := by
  intro ev listed
  unfold CoinbaseMessage.events at listed
  split at listed
  · obtain rfl := List.mem_singleton.mp listed
    show ∀ level ∈ _, _
    intro level mem
    have side : ∀ levels : List CoinbasePriceLevel, (∀ other ∈ levels, tickSize ≤ other.price) →
        level ∈ (levels.take maxSnapLevels).map (fun other => other.toLevel tickSize) →
        1 ≤ level.price.ticks := by
      intro levels all mem
      obtain ⟨other, taken, rfl⟩ := List.mem_map.mp mem
      exact CoinbasePriceLevel.one_le_ticks positive (all other (List.mem_of_mem_take taken))
    rcases List.mem_append.mp mem with bid | ask
    · rw [MarketEvent.Snap.bidLevels_ofMessage] at bid
      exact side _ (fun other mem => priced.1 other (List.mem_append_left _ mem)) bid
    · rw [MarketEvent.Snap.askLevels_ofMessage] at ask
      exact side _ (fun other mem => priced.1 other (List.mem_append_right _ mem)) ask
  · obtain ⟨l2, chunk, rfl⟩ := List.mem_map.mp listed
    show ∀ change ∈ l2.changes, _
    intro change mem
    refine priced.2 change ?_
    rw [← MarketEvent.L2.changes_chunks msg.changes]
    exact List.mem_flatMap.mpr ⟨l2, chunk, mem⟩
  · obtain rfl := List.mem_singleton.mp listed
    trivial
  · cases listed

/-- The message a step receives. -/
def Action.message : Action → Option CoinbaseMessage
  | .receive msg _ _ => some msg
  | _ => none

/-- Every message received is priced from one tick on. -/
def System.PricedFeed (tickSize : ℚ) (_ : System) (action : Action) : Prop :=
  ∀ msg ∈ action.message, msg.PricedFromOne tickSize

/-- Every event on its way is priced. -/
structure Pipeline.Priced (tickSize : ℚ) (p : Pipeline) : Prop where
  ticks : p.tickSize = tickSize
  pending : ∀ event ∈ p.pending, event.PricedFromOne tickSize
  queue : ∀ entry ∈ p.queue, entry.event.PricedFromOne tickSize
  held : ∀ entry ∈ p.held, entry.event.PricedFromOne tickSize

/-- Events made of a priced feed are priced, wherever they wait. -/
theorem Pipeline.Priced.step {tickSize : ℚ} (positive : 0 < tickSize) {s : System}
    {action : Action} {after : Pipeline} (priced : s.pipeline.Priced tickSize)
    (feed : s.PricedFeed tickSize action) (moved : s.pipeline.Step action after) :
    after.Priced tickSize := by
  obtain ⟨ticks, pending, queue, held⟩ := priced
  cases moved with
  | connect idle => exact ⟨ticks, pending, queue, held⟩
  | receive msg recvTs parseDone idle connected =>
    refine ⟨ticks, ?_, queue, held⟩
    rw [ticks]
    exact (feed msg rfl).events positive recvTs
  | push event rest waiting room =>
    rw [waiting] at pending
    refine ⟨ticks, fun other mem => pending other (List.mem_cons_of_mem _ mem), ?_, held⟩
    intro entry mem
    rcases List.mem_append.mp mem with earlier | last
    · exact queue entry earlier
    · rw [List.mem_singleton.mp last]
      exact pending event List.mem_cons_self
  | lose event rest waiting full =>
    rw [waiting] at pending
    exact ⟨ticks, fun other mem => pending other (List.mem_cons_of_mem _ mem), queue, held⟩
  | invalidate flagged free => exact ⟨ticks, pending, queue, held⟩
  | pop entry rest free first =>
    rw [first] at queue
    refine ⟨ticks, pending, fun other mem => queue other (List.mem_cons_of_mem _ mem), ?_⟩
    rintro other same
    obtain rfl := Option.some.inj same
    exact queue entry List.mem_cons_self
  | handle entry clock taken => exact ⟨ticks, pending, queue, nofun⟩

theorem System.pipeline_priced {cfg : RuntimeConfig} (positive : 0 < cfg.tickSize) {s : System}
    (reached : Reaches System.step (System.PricedFeed cfg.tickSize) (System.initial cfg) s) :
    s.pipeline.Priced cfg.tickSize :=
  System.reaches_pipeline (Pipeline.Priced cfg.tickSize) ⟨rfl, nofun, nofun, nofun⟩
    (fun s _ _ priced feed moved => priced.step (s := s) positive feed moved) reached

/-! ### The account in every interleaving -/

namespace Runtime

/-- The account as the other threads read it. -/
def published (rt : Runtime) : PnlState :=
  ⟨rt.pnlCash, rt.pnlPosition, rt.pnlAvgEntry, rt.pnlRealized⟩

theorem dispatchOrder_published {rt : Runtime} (current : rt.published = rt.strategy.state)
    (signal : Signal) (clock : EventClock) :
    (rt.dispatchOrder signal clock).published = (rt.dispatchOrder signal clock).strategy.state := by
  unfold dispatchOrder
  dsimp only
  split
  · exact current
  · split
    · exact current
    · unfold executeOrder bookFill
      split
      · rfl
      · exact current

theorem processEvent_published {rt : Runtime} (current : rt.published = rt.strategy.state)
    (wellFormed : rt.book.WellFormed) (clock : EventClock) (ev : MarketEvent) :
    (rt.processEvent clock ev).published = (rt.processEvent clock ev).strategy.state := by
  cases found : rt.withBook ev with
  | none =>
    have strategy : (rt.processEvent clock ev).strategy = rt.strategy :=
      congrArg Desk.strategy (desk_of_withBook_none found clock)
    rw [strategy, ← current]
    unfold withBook at found
    unfold processEvent
    cases kind : ev.kind <;> rw [kind] at found
    · cases found
    · dsimp only at found ⊢
      split at found
      · cases found
      · rename_i unready
        rw [Bool.eq_false_iff.mpr unready]
        rfl
    · rfl
  | some ready =>
    have counted := (withBook_keeps found).2.2
    have strategy : ready.strategy = rt.strategy := congrArg Desk.strategy counted
    have same : ready.published = rt.published := by
      unfold withBook at found
      split at found
      · rw [← Option.some.inj found]
        rfl
      · split at found
        · rw [← Option.some.inj found]
          rfl
        · cases found
      · cases found
    have book := processEvent_wellFormed wellFormed clock ev
    rw [withBook_book found] at book
    rw [processEvent_of_withBook found, evaluate_eq]
    have keeps := (ready.strategy.onMarketUpdate_decides book.indexed clock.bookDone).1
    generalize ready.strategy.onMarketUpdate ready.book clock.bookDone = decided at keeps ⊢
    have heard : ready.published = decided.2.state := by
      rw [same, current, keeps.state, strategy]
    dsimp only
    split
    · exact dispatchOrder_published heard decided.1 clock
    · exact heard

/-- A runtime whose account is in order: inside its limits, with ledgers that agree, counters that
reconcile, no short position where none is allowed, and the account published. -/
structure InOrder (cfg : RuntimeConfig) (rt : Runtime) : Prop where
  within : WithinLimits cfg rt
  ledgers : Desk.Ledgers cfg rt.desk
  reconciled : Desk.Reconciled rt.desk
  longOnly : cfg.strategy.allowShort = false → 0 ≤ rt.strategy.position
  current : rt.published = rt.strategy.state

theorem create_inOrder {cfg : RuntimeConfig} (valid : cfg.Valid) : InOrder cfg (create cfg) where
  within := create_withinLimits valid.maxPosition valid.initialCash valid.symbolId
  ledgers := create_ledgers valid
  reconciled := create_reconciled cfg
  longOnly := fun _ => by
    show 0 ≤ (create cfg).strategy.state.position
    rw [create_state valid.symbolId]
  current := rfl

theorem InOrder.sound {cfg : RuntimeConfig} {rt : Runtime} (inOrder : InOrder cfg rt) :
    Sound cfg rt :=
  ⟨inOrder.within.configured, inOrder.within.wellFormed, inOrder.ledgers⟩

theorem InOrder.counts {cfg : RuntimeConfig} {before after : Runtime}
    (inOrder : InOrder cfg before) (counted : before.Counts after) : InOrder cfg after := by
  have strategy : after.strategy = before.strategy := congrArg Desk.strategy counted.desk
  have within := inOrder.within
  refine ⟨?_, ?_, ?_, ?_, ?_⟩
  · rw [counted.rest]
    exact ⟨within.configured, within.wellFormed, within.held, within.solvent⟩
  · rw [counted.desk]
    exact inOrder.ledgers
  · rw [counted.desk]
    exact inOrder.reconciled
  · rw [strategy]
    exact inOrder.longOnly
  · rw [strategy, counted.rest]
    exact inOrder.current

/-- A reconnect changes nothing of the account. -/
theorem InOrder.reset {cfg : RuntimeConfig} {rt : Runtime} (inOrder : InOrder cfg rt) :
    InOrder cfg rt.reset := by
  obtain ⟨configured, wellFormed, held, solvent⟩ := inOrder.within
  have reconciled := inOrder.reconciled
  refine ⟨⟨configured, wellFormed, held, solvent⟩, ?_, ?_, inOrder.longOnly, inOrder.current⟩
  · exact inOrder.ledgers.keepsAccount ⟨rfl, rfl, rfl, rfl⟩ rfl rfl
  · exact ⟨reconciled.signals, reconciled.numbers, reconciled.outcomes, reconciled.fills,
      reconciled.whole⟩

theorem Sound.processEvent {cfg : RuntimeConfig} {rt : Runtime} (sound : Sound cfg rt)
    (valid : cfg.Valid) (clock : EventClock) (ev : MarketEvent) :
    Sound cfg (rt.processEvent clock ev) := by
  refine ⟨(processEvent_cfg rt clock ev).trans sound.configured,
    processEvent_wellFormed sound.wellFormed clock ev, ?_⟩
  have handles := processEvent_handles sound.wellFormed clock ev
  rw [sound.configured] at handles
  refine sound.ledgers.handles valid.symbolId (fun order sent => ?_) handles
  rw [(sentOrder_symbolId sent).1, sound.configured]

theorem InOrder.processEvent {cfg : RuntimeConfig} {rt : Runtime} (inOrder : InOrder cfg rt)
    (valid : cfg.Valid) (clock : EventClock) {ev : MarketEvent}
    (priced : ev.PricedFromOne cfg.tickSize) : InOrder cfg (rt.processEvent clock ev) := by
  have sound := inOrder.sound
  exact ⟨inOrder.within.processEvent valid.tickSize clock priced,
    (sound.processEvent valid clock ev).ledgers,
    sound.reconciled valid.tickSize inOrder.reconciled clock ev,
    fun forbidden => (sound.position valid clock ev).2 forbidden (inOrder.longOnly forbidden),
    processEvent_published inOrder.current sound.wellFormed clock ev⟩

end Runtime

namespace System

/-- Whatever the feed, the runtime trades as it is configured. -/
theorem reaches_sound {allowed : System → Action → Prop} {cfg : RuntimeConfig} (valid : cfg.Valid)
    {s : System} (reached : Reaches step allowed (initial cfg) s) : s.rt.Sound cfg := by
  refine reaches_runtime (Runtime.Sound cfg)
    ⟨rfl, BoundedBook.fresh_wellFormed, Runtime.create_ledgers valid⟩ ?_ ?_ ?_ reached
  · rintro before after counted ⟨configured, wellFormed, ledgers⟩
    refine ⟨?_, ?_, counted.desk ▸ ledgers⟩
    · rw [counted.rest]
      exact configured
    · rw [counted.rest]
      exact wellFormed
  · rintro rt ⟨configured, wellFormed, ledgers⟩
    exact ⟨configured, wellFormed, ledgers.keepsAccount ⟨rfl, rfl, rfl, rfl⟩ rfl rfl⟩
  · intro t entry drained clock _ _ sound
    exact sound.processEvent valid clock entry.event

theorem reaches_inOrder {cfg : RuntimeConfig} (valid : cfg.Valid) {s : System}
    (reached : Reaches step (PricedFeed cfg.tickSize) (initial cfg) s) : s.rt.InOrder cfg := by
  refine reaches_runtime (Runtime.InOrder cfg) (Runtime.create_inOrder valid)
    (fun _ _ counted inOrder => inOrder.counts counted) (fun _ inOrder => inOrder.reset) ?_ reached
  intro t entry drained clock earlier handling inOrder
  have priced := (pipeline_priced valid.tickSize earlier).held entry (pipeline_held handling)
  exact inOrder.processEvent valid clock priced

/-- In every interleaving of the network thread, the strategy thread and a caller of `stop`, with
any reconnects, drops and clocks, over a feed priced from one tick on: the position stays inside
its limit and the cash is never negative, the two ledgers agree, the order counters reconcile and
every approved order has filled, no short position is held where none is allowed, and the account
the other threads read is the strategy's. -/
theorem reaches_account (cfg : RuntimeConfig) (valid : cfg.Valid) (s : System)
    (reached : Reaches step (PricedFeed cfg.tickSize) (initial cfg) s) :
    (-cfg.maxPosition ≤ s.rt.risk.position cfg.symbolId ∧
      s.rt.risk.position cfg.symbolId ≤ cfg.maxPosition ∧ 0 ≤ s.rt.risk.cash cfg.symbolId) ∧
    (s.rt.risk.cash cfg.symbolId = s.rt.strategy.cash ∧
      |s.rt.risk.position cfg.symbolId - s.rt.strategy.position| ≤
        tinyQty * s.rt.metrics.fills) ∧
    (s.rt.metrics.signalsGenerated = s.rt.metrics.ordersSent ∧
      s.rt.nextOrderId = s.rt.metrics.ordersSent + 1 ∧
      s.rt.metrics.ordersSent = s.rt.metrics.circuitBlocked + s.rt.metrics.ordersRejected +
        s.rt.metrics.ordersApproved ∧
      s.rt.metrics.fills = s.rt.metrics.ordersApproved ∧ s.rt.metrics.partialFills = 0) ∧
    (cfg.strategy.allowShort = false → 0 ≤ s.rt.strategy.position) ∧
    (s.rt.pnlCash = s.rt.strategy.cash ∧ s.rt.pnlPosition = s.rt.strategy.position ∧
      s.rt.pnlAvgEntry = s.rt.strategy.avgEntry ∧ s.rt.pnlRealized = s.rt.strategy.realized) := by
  obtain ⟨within, ledgers, reconciled, longOnly, current⟩ := reaches_inOrder valid reached
  have solvent := within.solvent
  refine ⟨?_, ⟨ledgers.cash, ledgers.position⟩,
    ⟨reconciled.signals, reconciled.numbers, reconciled.outcomes, reconciled.fills,
      reconciled.whole⟩, longOnly, ?_⟩
  · unfold RiskManager.position RiskManager.cash
    rw [if_pos valid.symbolId, if_pos valid.symbolId]
    exact ⟨solvent.above, solvent.below, solvent.cash⟩
  · exact ⟨congrArg PnlState.cash current, congrArg PnlState.position current,
      congrArg PnlState.avgEntry current, congrArg PnlState.realized current⟩

/-! ### A day with a reconnect -/

end System

/-- A snapshot of one level a side, as a message. -/
def touchMessage (bid ask : CoinbasePriceLevel) : CoinbaseMessage := ⟨.snapshot, [bid], [ask], []⟩

/-- Much more bid than ask. -/
def entryMessage : CoinbaseMessage := touchMessage ⟨100, 1000⟩ ⟨10001 / 100, 100⟩

/-- The same touch, when there is little left to buy. -/
def thinMessage : CoinbaseMessage := touchMessage ⟨100, 1000⟩ ⟨10001 / 100, 5⟩

/-- A touch far above. -/
def rallyMessage : CoinbaseMessage := touchMessage ⟨500, 3⟩ ⟨50001 / 100, 3⟩

/-- The event of a snapshot message. -/
def snapshotEvent (msg : CoinbaseMessage) (recvNs : Timestamp) : MarketEvent :=
  { MarketEvent.empty with
    kind := .snapshot, recvNs, snap := MarketEvent.Snap.ofMessage msg (1 / 100) }

/-- An event that is handled in no time. -/
def EventClock.instant (now : Timestamp) : EventClock := ⟨now, now, now, now, now, now⟩

/-- The events of the day lie in one band each. -/
theorem snapshotEvent_small :
    (∀ recvNs, (snapshotEvent entryMessage recvNs).Small) ∧
      (∀ recvNs, (snapshotEvent thinMessage recvNs).Small) ∧
      ∀ recvNs, (snapshotEvent rallyMessage recvNs).Small := by
  have entry : ∀ call ∈ (MarketEvent.Snap.ofMessage entryMessage (1 / 100)).calls.tail,
      call.InBand smallCapacity 10000 := by decide +kernel
  have thin : ∀ call ∈ (MarketEvent.Snap.ofMessage thinMessage (1 / 100)).calls.tail,
      call.InBand smallCapacity 10000 := by decide +kernel
  have rally : ∀ call ∈ (MarketEvent.Snap.ofMessage rallyMessage (1 / 100)).calls.tail,
      call.InBand smallCapacity 50000 := by decide +kernel
  exact ⟨fun _ => ⟨rfl, _, entry⟩, fun _ => ⟨rfl, _, thin⟩, fun _ => ⟨rfl, _, rally⟩⟩

/-- The feed of a day. The connection is lost while the strategy thread holds the first event, and
the venue repeats its snapshot on the next one. -/
def dayArrivals : List Action :=
  [.dial, .connect, .testWsRunning, .receive entryMessage 1 2, .push, .measure, .testRunning,
    .exchange, .pop, .disconnect, .dial, .connect, .testWsRunning, .receive entryMessage 3 4,
    .push, .measure, .testWsRunning, .receive thinMessage 5 6, .push, .measure, .testWsRunning,
    .receive rallyMessage 7 8, .push, .measure]

/-- The event at hand is handled and the next one taken. -/
def dayTurn (now : Timestamp) : List Action :=
  [.handle (.instant now), .testRunning, .exchange, .pop]

/-- The strategy thread is about to handle the third event, past the reconnect and the skip. -/
def dayUntilEntry : List Action := dayArrivals ++ dayTurn 3000000000 ++ dayTurn 4000000000

/-- It is about to handle the last one. -/
def dayUntilExit : List Action := dayUntilEntry ++ dayTurn 6000000000

/-- The whole day: the exit is handled as well. -/
def wholeDay : List Action := dayUntilExit ++ [.handle (.instant 7000000000)]

namespace Desk

/-- The reset of the strategy after a reconnect. -/
def reset (desk : Desk) : Desk := { desk with strategy := desk.strategy.onReconnect }

/-- A snapshot message on a small book. -/
def tradeMessage (desk : Desk) (msg : CoinbaseMessage) (now : Timestamp) :
    Option NewOrder × Desk :=
  desk.trade Runtime.boldConfig (MarketEvent.Snap.ofMessage msg (1 / 100)).smallBook
    (.instant now)

/-- The desk before the entry of the day, before its exit and at its end. -/
def beforeEntry : Desk :=
  (((Runtime.create Runtime.boldConfig).desk.tradeMessage entryMessage
    3000000000).2.reset.tradeMessage entryMessage 4000000000).2

/-- The desk when the market is thin and the position is held. -/
def beforeExit : Desk := (beforeEntry.tradeMessage thinMessage 6000000000).2

/-- The desk when the position is sold. -/
def evening : Desk := (beforeExit.tradeMessage rallyMessage 7000000000).2

/-- On the first connection an order is refused, and the repeated snapshot is passed over. -/
theorem day_before :
    ((Runtime.create Runtime.boldConfig).desk.tradeMessage entryMessage 3000000000).1.isSome =
        true ∧
      (((Runtime.create Runtime.boldConfig).desk.tradeMessage entryMessage
        3000000000).2.reset.tradeMessage entryMessage 4000000000).1 = none ∧
      beforeEntry.ordersRejected = 1 ∧ beforeEntry.fills = 0 ∧
      beforeEntry.strategy.position = 0 := by
  decide +kernel

/-- The entry buys five, and the exit sells three of them. -/
theorem day_after :
    (beforeEntry.tradeMessage thinMessage 6000000000).1.isSome = true ∧
      beforeExit.fills = 1 ∧ beforeExit.strategy.position = 5 ∧
      beforeExit.breaker.recordMessage.isTripped = false ∧
      (beforeExit.tradeMessage rallyMessage 7000000000).1.isSome = true ∧
      evening.ordersSent = 3 ∧ evening.ordersRejected = 1 ∧ evening.fills = 2 ∧
      evening.strategy.position = 2 := by
  decide +kernel

end Desk

namespace Runtime

/-- What the day makes of a runtime before its entry, before its exit and at its end. -/
def beforeEntry (rt : Runtime) : Runtime :=
  (rt.processEvent (.instant 3000000000) (snapshotEvent entryMessage 1)).reset.processEvent
    (.instant 4000000000) (snapshotEvent entryMessage 3)

/-- The runtime when the market is thin. -/
def beforeExit (rt : Runtime) : Runtime :=
  rt.beforeEntry.processEvent (.instant 6000000000) (snapshotEvent thinMessage 5)

/-- The runtime when the rally has been handled. -/
def evening (rt : Runtime) : Runtime :=
  rt.beforeExit.processEvent (.instant 7000000000) (snapshotEvent rallyMessage 7)

/-- A runtime on which the day begins: fresh, but for what the network thread counts. -/
structure Morning (rt : Runtime) : Prop where
  desk : rt.desk = (create boldConfig).desk
  cfg : rt.cfg = boldConfig

/-- Metrics of which the order path has counted nothing. -/
structure Untraded (metrics : Metrics) : Prop where
  signalsGenerated : metrics.signalsGenerated = 0
  ordersSent : metrics.ordersSent = 0
  ordersApproved : metrics.ordersApproved = 0
  ordersRejected : metrics.ordersRejected = 0
  circuitBlocked : metrics.circuitBlocked = 0
  fills : metrics.fills = 0
  partialFills : metrics.partialFills = 0

theorem Untraded.morning {metrics : Metrics} (untraded : Untraded metrics) :
    { create boldConfig with metrics }.Morning := by
  refine ⟨?_, rfl⟩
  unfold desk
  dsimp only
  rw [untraded.signalsGenerated, untraded.ordersSent, untraded.ordersApproved,
    untraded.ordersRejected, untraded.circuitBlocked, untraded.fills, untraded.partialFills]
  rfl

variable {rt : Runtime}

/-- The day moves the desk as the small books say. -/
theorem Morning.desks (morning : rt.Morning) :
    (rt.beforeEntry.desk = Desk.beforeEntry ∧ rt.beforeEntry.cfg = boldConfig) ∧
      (rt.beforeExit.desk = Desk.beforeExit ∧ rt.beforeExit.cfg = boldConfig) ∧
      rt.evening.desk = Desk.evening := by
  obtain ⟨entry, thin, rally⟩ := snapshotEvent_small
  obtain ⟨-, first, firstCfg⟩ :=
    processEvent_of_desk morning.desk morning.cfg (entry 1) (.instant 3000000000)
  have reset : (rt.processEvent (.instant 3000000000) (snapshotEvent entryMessage 1)).reset.desk =
      _ := congrArg Desk.reset first
  obtain ⟨-, second, secondCfg⟩ :=
    processEvent_of_desk reset firstCfg (entry 3) (.instant 4000000000)
  obtain ⟨-, third, thirdCfg⟩ :=
    processEvent_of_desk second secondCfg (thin 5) (.instant 6000000000)
  obtain ⟨-, fourth, -⟩ := processEvent_of_desk third thirdCfg (rally 7) (.instant 7000000000)
  exact ⟨⟨second, secondCfg⟩, ⟨third, thirdCfg⟩, fourth⟩

/-- The orders of the day: three, and none on the repeated snapshot. -/
theorem Morning.orders (morning : rt.Morning) :
    (rt.sentOrder (.instant 3000000000) (snapshotEvent entryMessage 1)).isSome = true ∧
      (rt.processEvent (.instant 3000000000) (snapshotEvent entryMessage 1)).reset.sentOrder
        (.instant 4000000000) (snapshotEvent entryMessage 3) = none ∧
      (rt.beforeEntry.sentOrder (.instant 6000000000)
        (snapshotEvent thinMessage 5)).isSome = true ∧
      (rt.beforeExit.sentOrder (.instant 7000000000)
        (snapshotEvent rallyMessage 7)).isSome = true := by
  obtain ⟨entry, thin, rally⟩ := snapshotEvent_small
  obtain ⟨refused, passed, -⟩ := Desk.day_before
  obtain ⟨bought, -, -, -, sold, -⟩ := Desk.day_after
  obtain ⟨⟨second, secondCfg⟩, ⟨third, thirdCfg⟩, -⟩ := morning.desks
  obtain ⟨firstSent, first, firstCfg⟩ :=
    processEvent_of_desk morning.desk morning.cfg (entry 1) (.instant 3000000000)
  have reset : (rt.processEvent (.instant 3000000000) (snapshotEvent entryMessage 1)).reset.desk =
      _ := congrArg Desk.reset first
  rw [firstSent, (processEvent_of_desk reset firstCfg (entry 3) (.instant 4000000000)).1,
    (processEvent_of_desk second secondCfg (thin 5) (.instant 6000000000)).1,
    (processEvent_of_desk third thirdCfg (rally 7) (.instant 7000000000)).1]
  exact ⟨refused, passed, bought, sold⟩

end Runtime

namespace System

theorem touch_pricedFromOne :
    entryMessage.PricedFromOne (1 / 100) ∧ thinMessage.PricedFromOne (1 / 100) ∧
      rallyMessage.PricedFromOne (1 / 100) := by
  unfold CoinbaseMessage.PricedFromOne
  decide +kernel

/-- A list of steps that receive only priced messages is a run over a priced feed. -/
theorem pricedFeed_of_messages {tickSize : ℚ} {actions : List Action}
    (priced : ∀ msg ∈ actions.filterMap Action.message, msg.PricedFromOne tickSize) :
    ∀ action ∈ actions, ∀ s : System, s.PricedFeed tickSize action :=
  fun action listed _ msg received => priced msg (List.mem_filterMap.mpr ⟨action, listed, received⟩)

theorem day_priced {tickSize : ℚ} (same : tickSize = 1 / 100) {actions later : List Action}
    (day : wholeDay = actions ++ later) (action : Action) (listed : action ∈ actions)
    (s : System) : s.PricedFeed tickSize action := by
  obtain ⟨entry, thin, rally⟩ := touch_pricedFromOne
  have messages : wholeDay.filterMap Action.message =
      [entryMessage, entryMessage, thinMessage, rallyMessage] := rfl
  have priced : ∀ msg ∈ wholeDay.filterMap Action.message, msg.PricedFromOne tickSize := by
    rw [messages, same]
    simp only [List.forall_mem_cons]
    exact ⟨entry, entry, thin, rally, List.forall_mem_nil _⟩
  exact pricedFeed_of_messages priced action (day ▸ List.mem_append_left later listed) s

/-- Some steps of the day are a run over a priced feed, and what they make of the fresh runtime
they make of one on which the day begins. -/
theorem reaches_day {actions later : List Action} (day : wholeDay = actions ++ later)
    {after : Runtime → Runtime}
    (executed : ∃ s metrics,
      execute step Free (initial Runtime.boldConfig) actions = some s ∧ s.rebuiltFrom = some 2 ∧
        s.rt = after { Runtime.create Runtime.boldConfig with metrics } ∧
        Runtime.Untraded metrics) :
    ∃ s rt, Reaches step (PricedFeed Runtime.boldConfig.tickSize)
        (initial Runtime.boldConfig) s ∧
      s.rebuiltFrom = some 2 ∧ Runtime.Morning rt ∧ s.rt = after rt := by
  obtain ⟨s, metrics, executed, rebuilt, rest, untraded⟩ := executed
  exact ⟨s, _, Reaches.start.execute_free (day_priced rfl day) executed, rebuilt,
    untraded.morning, rest⟩

/-- The moment before the exit is reached. -/
theorem reaches_beforeExit :
    ∃ s rt, Reaches step (PricedFeed Runtime.boldConfig.tickSize)
        (initial Runtime.boldConfig) s ∧
      s.rebuiltFrom = some 2 ∧ Runtime.Morning rt ∧ s.rt = rt.beforeExit :=
  reaches_day (show wholeDay = dayUntilExit ++ _ from rfl)
    ⟨_, _, rfl, rfl, rfl, ⟨rfl, rfl, rfl, rfl, rfl, rfl, rfl⟩⟩

/-- The end of the day is reached. -/
theorem reaches_evening :
    ∃ s rt, Reaches step (PricedFeed Runtime.boldConfig.tickSize)
        (initial Runtime.boldConfig) s ∧
      s.rebuiltFrom = some 2 ∧ Runtime.Morning rt ∧ s.rt = rt.evening :=
  reaches_day (List.append_nil wholeDay).symm
    ⟨_, _, rfl, rfl, rfl, ⟨rfl, rfl, rfl, rfl, rfl, rfl, rfl⟩⟩

/-- Past a reconnect, with an order refused and two filled. -/
theorem reaches_account_evening :
    ∃ s : System, s.rebuiltFrom = some 2 ∧ s.rt.metrics.ordersSent = 3 ∧
      s.rt.metrics.ordersRejected = 1 ∧ s.rt.metrics.fills = 2 ∧ s.rt.strategy.position = 2 ∧
      0 ≤ s.rt.risk.cash 0 ∧ s.rt.risk.cash 0 = s.rt.strategy.cash ∧
      s.rt.metrics.ordersApproved = 2 ∧ s.rt.pnlCash = s.rt.strategy.cash := by
  obtain ⟨s, rt, reached, rebuilt, morning, rest⟩ := reaches_evening
  obtain ⟨within, ledgers, counters, -, published⟩ :=
    reaches_account Runtime.boldConfig Runtime.boldConfig_valid s reached
  obtain ⟨-, -, evening⟩ := morning.desks
  obtain ⟨sent, rejected, fills, strategy⟩ := Runtime.of_desk evening
  obtain ⟨-, -, -, -, -, three, one, two, left⟩ := Desk.day_after
  rw [← rest] at sent rejected fills strategy
  have filled := fills.trans two
  exact ⟨s, rebuilt, sent.trans three, rejected.trans one, filled, strategy ▸ left,
    within.2.2, ledgers.1, counters.2.2.2.1.symm.trans filled, published.1⟩

end System

end Trading
