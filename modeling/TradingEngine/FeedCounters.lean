/-
This file balances the counters the metrics report. Every message is timed and counted
once, every event of it is pushed or counted as dropped, every event pushed is handled,
and every event handled is timed, counted as come too early, or a heartbeat. While the
threads run, what is still on its way stands between the two sides of each balance; when
`stop` returns nothing is.

The counters are written at different places by two threads, and some of them after the
push they belong to. So the balance of a system names what the network thread still has in
hand, depending on where it stands, and each step of either thread is shown to keep it.
-/

import TradingEngine.Shutdown

namespace Trading

open Transition

/-! ### What is on its way -/

/-- The message at hand, before its last push. -/
def NetworkThread.uncounted : NetworkThread → Nat
  | .pushing _ _ (_ :: _) => 1
  | _ => 0

/-- The message at hand, before the depth of the queue is recorded. -/
def NetworkThread.unmeasured : NetworkThread → Nat
  | .pushing _ _ _ | .measuring => 1
  | _ => 0

/-- The events of the message at hand that are not pushed yet. -/
def NetworkThread.unpushed : NetworkThread → Nat
  | .pushing _ _ rest => rest.length + 1
  | _ => 0

/-- The event at hand. -/
def StrategyThread.held : StrategyThread → Nat
  | .handling _ _ => 1
  | _ => 0

/-! ### The counters of the strategy thread -/

/-- How many of the events that were handled are heartbeats. -/
def heartbeats (handled : List Entry) : Nat :=
  handled.countP fun entry => entry.event.kind = .heartbeat

theorem heartbeats_of_eq {handled : List Entry} {entry : Entry}
    (kind : entry.event.kind = .heartbeat) :
    heartbeats (handled ++ [entry]) = heartbeats handled + 1 := by
  rw [heartbeats, List.countP_append, List.countP_singleton, if_pos (decide_eq_true kind)]
  rfl

theorem heartbeats_of_ne {handled : List Entry} {entry : Entry}
    (kind : entry.event.kind ≠ .heartbeat) :
    heartbeats (handled ++ [entry]) = heartbeats handled := by
  rw [heartbeats, List.countP_append, List.countP_singleton, if_neg (by simpa using kind)]
  rfl

namespace Runtime

/-- The metrics only the network thread writes are unchanged. -/
structure KeepsFeed (before after : Runtime) : Prop where
  cfg : after.cfg = before.cfg
  wireToParse : after.metrics.wireToParse = before.metrics.wireToParse
  queueDepth : after.metrics.queueDepth = before.metrics.queueDepth
  msgsReceived : after.metrics.msgsReceived = before.metrics.msgsReceived
  heartbeatsRecv : after.metrics.heartbeatsRecv = before.metrics.heartbeatsRecv
  reconnects : after.metrics.reconnects = before.metrics.reconnects
  queueFullDrops : after.metrics.queueFullDrops = before.metrics.queueFullDrops

theorem KeepsFeed.after {first second third : Runtime} (later : KeepsFeed second third)
    (earlier : KeepsFeed first second) : KeepsFeed first third :=
  ⟨later.cfg.trans earlier.cfg, later.wireToParse.trans earlier.wireToParse,
    later.queueDepth.trans earlier.queueDepth, later.msgsReceived.trans earlier.msgsReceived,
    later.heartbeatsRecv.trans earlier.heartbeatsRecv, later.reconnects.trans earlier.reconnects,
    later.queueFullDrops.trans earlier.queueFullDrops⟩

/-- Each latency is recorded as often as the step it times is made. -/
structure Timed (rt : Runtime) : Prop where
  bookToSignal : rt.metrics.bookToSignal.count = rt.metrics.parseToBook.count
  tickToSignal : rt.metrics.tickToSignal.count = rt.metrics.parseToBook.count
  signalToOrder : rt.metrics.signalToOrder.count = rt.metrics.ordersApproved
  orderToFill : rt.metrics.orderToFill.count = rt.metrics.ordersApproved

/-- What a stage after the book leaves of the accounts. -/
structure Settles (before after : Runtime) : Prop extends KeepsFeed before after where
  timed : before.Timed → after.Timed
  parseToBook : after.metrics.parseToBook = before.metrics.parseToBook
  preSnapshotDrops : after.metrics.preSnapshotDrops = before.metrics.preSnapshotDrops

theorem Settles.after {first second third : Runtime} (later : Settles second third)
    (earlier : Settles first second) : Settles first third :=
  ⟨later.toKeepsFeed.after earlier.toKeepsFeed, fun timed => later.timed (earlier.timed timed),
    later.parseToBook.trans earlier.parseToBook,
    later.preSnapshotDrops.trans earlier.preSnapshotDrops⟩

theorem settles_of_metrics {before after : Runtime} (cfg : after.cfg = before.cfg)
    (metrics : after.metrics = before.metrics) : Settles before after := by
  refine ⟨⟨cfg, ?_, ?_, ?_, ?_, ?_, ?_⟩, fun timed => ⟨?_, ?_, ?_, ?_⟩, ?_, ?_⟩ <;> rw [metrics]
  · exact timed.bookToSignal
  · exact timed.tickToSignal
  · exact timed.signalToOrder
  · exact timed.orderToFill

theorem bookFill_settles (rt : Runtime) (order : NewOrder) (report : ExecutionReport) :
    Settles rt (rt.bookFill order report) := by
  unfold bookFill
  split
  · exact ⟨⟨rfl, rfl, rfl, rfl, rfl, rfl, rfl⟩,
      fun timed => ⟨timed.bookToSignal, timed.tickToSignal, timed.signalToOrder,
        timed.orderToFill⟩, rfl, rfl⟩
  · exact settles_of_metrics rfl rfl

theorem executeOrder_settles (rt : Runtime) (order : NewOrder) (clock : EventClock) :
    Settles rt (rt.executeOrder order clock) := by
  refine (bookFill_settles _ _ _).after ⟨⟨rfl, rfl, rfl, rfl, rfl, rfl, rfl⟩, fun timed => ?_,
    rfl, rfl⟩
  exact ⟨timed.bookToSignal, timed.tickToSignal, congrArg (· + 1) timed.signalToOrder,
    congrArg (· + 1) timed.orderToFill⟩

theorem countSent_settles (rt : Runtime) : Settles rt rt.countSent :=
  ⟨⟨rfl, rfl, rfl, rfl, rfl, rfl, rfl⟩,
    fun timed => ⟨timed.bookToSignal, timed.tickToSignal, timed.signalToOrder, timed.orderToFill⟩,
    rfl, rfl⟩

theorem blockOrder_settles (rt : Runtime) : Settles rt rt.blockOrder :=
  ⟨⟨rfl, rfl, rfl, rfl, rfl, rfl, rfl⟩,
    fun timed => ⟨timed.bookToSignal, timed.tickToSignal, timed.signalToOrder, timed.orderToFill⟩,
    rfl, rfl⟩

theorem rejectOrder_settles (rt : Runtime) : Settles rt rt.rejectOrder :=
  ⟨⟨rfl, rfl, rfl, rfl, rfl, rfl, rfl⟩,
    fun timed => ⟨timed.bookToSignal, timed.tickToSignal, timed.signalToOrder, timed.orderToFill⟩,
    rfl, rfl⟩

theorem dispatchOrder_settles (rt : Runtime) (signal : Signal) (clock : EventClock) :
    Settles rt (rt.dispatchOrder signal clock) := by
  unfold dispatchOrder
  dsimp only
  split
  · exact (blockOrder_settles _).after (countSent_settles rt)
  · split
    · exact (rejectOrder_settles _).after (countSent_settles rt)
    · exact (executeOrder_settles _ _ _).after (countSent_settles rt)

theorem countSignal_settles (rt : Runtime) : Settles rt rt.countSignal :=
  ⟨⟨rfl, rfl, rfl, rfl, rfl, rfl, rfl⟩,
    fun timed => ⟨timed.bookToSignal, timed.tickToSignal, timed.signalToOrder, timed.orderToFill⟩,
    rfl, rfl⟩

/-- An event of a kind that changes the book is timed once. -/
structure Evaluates (before after : Runtime) : Prop extends KeepsFeed before after where
  timed : before.Timed → after.Timed
  parseToBook : after.metrics.parseToBook.count = before.metrics.parseToBook.count + 1
  preSnapshotDrops : after.metrics.preSnapshotDrops = before.metrics.preSnapshotDrops

theorem evaluate_evaluates (rt : Runtime) (clock : EventClock) (recvNs : Timestamp) :
    Evaluates rt (rt.evaluate clock recvNs) := by
  have kept : ∀ strategy : ImbalanceStrategy, Evaluates rt
      ((rt.countBook clock).publishMarks.keepStrategy strategy clock recvNs) := by
    intro strategy
    refine ⟨⟨rfl, rfl, rfl, rfl, rfl, rfl, rfl⟩, fun timed => ?_, rfl, rfl⟩
    exact ⟨congrArg (· + 1) timed.bookToSignal, congrArg (· + 1) timed.tickToSignal,
      timed.signalToOrder, timed.orderToFill⟩
  unfold evaluate
  dsimp only
  split
  · obtain ⟨feed, timed, parseToBook, early⟩ :=
      (dispatchOrder_settles _ _ clock).after (countSignal_settles _)
    exact ⟨feed.after (kept _).toKeepsFeed, fun before => timed ((kept _).timed before),
      (congrArg HdrHistogram.count parseToBook).trans (kept _).parseToBook,
      early.trans (kept _).preSnapshotDrops⟩
  · exact kept _

theorem processEvent_keepsFeed (rt : Runtime) (clock : EventClock) (ev : MarketEvent) :
    KeepsFeed rt (rt.processEvent clock ev) := by
  unfold processEvent
  cases ev.kind with
  | snapshot =>
    exact (evaluate_evaluates _ _ _).toKeepsFeed.after ⟨rfl, rfl, rfl, rfl, rfl, rfl, rfl⟩
  | heartbeat => exact ⟨rfl, rfl, rfl, rfl, rfl, rfl, rfl⟩
  | l2Update =>
    dsimp only
    split
    · exact ⟨rfl, rfl, rfl, rfl, rfl, rfl, rfl⟩
    · exact (evaluate_evaluates _ _ _).toKeepsFeed.after ⟨rfl, rfl, rfl, rfl, rfl, rfl, rfl⟩

/-- The events handled are timed, come too early, or heartbeats. -/
structure Handled (rt : Runtime) (handled : List Entry) : Prop where
  timed : rt.Timed
  handled : rt.metrics.parseToBook.count + rt.metrics.preSnapshotDrops + heartbeats handled =
    handled.length

/-- An event that is evaluated is timed, so the counters of the strategy thread stay balanced. -/
theorem Evaluates.handled {before counted after : Runtime} {handled : List Entry} {entry : Entry}
    (evaluates : Evaluates counted after) (accounts : before.Handled handled)
    (metrics : counted.metrics = before.metrics) (market : entry.event.kind ≠ .heartbeat) :
    after.Handled (handled ++ [entry]) := by
  have timed : counted.Timed := by
    obtain ⟨signal, tick, order, fill⟩ := accounts.timed
    constructor <;> rw [metrics] <;> assumption
  refine ⟨evaluates.timed timed, ?_⟩
  have balance := accounts.handled
  rw [evaluates.parseToBook, evaluates.preSnapshotDrops, metrics, heartbeats_of_ne market,
    List.length_append, List.length_singleton]
  omega

theorem Handled.processEvent {rt : Runtime} {handled : List Entry} (accounts : rt.Handled handled)
    (clock : EventClock) (entry : Entry) :
    (rt.processEvent clock entry.event).Handled (handled ++ [entry]) := by
  obtain ⟨timed, balance⟩ := accounts
  have length : (handled ++ [entry]).length = handled.length + 1 := List.length_append
  unfold Runtime.processEvent
  cases kind : entry.event.kind with
  | snapshot => exact (evaluate_evaluates _ _ _).handled ⟨timed, balance⟩ rfl (by simp [kind])
  | heartbeat =>
    refine ⟨⟨timed.bookToSignal, timed.tickToSignal, timed.signalToOrder, timed.orderToFill⟩, ?_⟩
    rw [heartbeats_of_eq kind, length, ← balance]
    rfl
  | l2Update =>
    dsimp only
    split
    · refine ⟨⟨timed.bookToSignal, timed.tickToSignal, timed.signalToOrder,
        timed.orderToFill⟩, ?_⟩
      rw [heartbeats_of_ne (by simp [kind]), length, ← balance]
      show rt.metrics.parseToBook.count + (rt.metrics.preSnapshotDrops + 1) + _ = _
      omega
    · exact (evaluate_evaluates _ _ _).handled ⟨timed, balance⟩ rfl (by simp [kind])

end Runtime

/-! ### The counters of the network thread -/

/-- The events of some messages. -/
def eventsOf (tickSize : ℚ) (received : List (CoinbaseMessage × Timestamp)) : List MarketEvent :=
  received.flatMap fun message => message.1.events tickSize message.2

/-- How many of some messages carry an event. -/
def carrying (tickSize : ℚ) (received : List (CoinbaseMessage × Timestamp)) : Nat :=
  received.countP fun message => message.1.events tickSize message.2 ≠ []

theorem eventsOf_concat (tickSize : ℚ) (received : List (CoinbaseMessage × Timestamp))
    (msg : CoinbaseMessage) (recvTs : Timestamp) :
    eventsOf tickSize (received ++ [(msg, recvTs)]) =
      eventsOf tickSize received ++ msg.events tickSize recvTs := by
  rw [eventsOf, List.flatMap_append, List.flatMap_singleton]
  rfl

theorem carrying_concat (tickSize : ℚ) (received : List (CoinbaseMessage × Timestamp))
    (msg : CoinbaseMessage) (recvTs : Timestamp) :
    carrying tickSize (received ++ [(msg, recvTs)]) =
      carrying tickSize received + if msg.events tickSize recvTs = [] then 0 else 1 := by
  rw [carrying, List.countP_append, List.countP_singleton]
  by_cases empty : msg.events tickSize recvTs = []
  · rw [if_pos empty, if_neg (by simpa using empty)]
    rfl
  · rw [if_neg empty, if_pos (by simpa using empty)]
    rfl

namespace System

/-- The balances of the network thread, given what is on its way. -/
structure Balanced (s : System) (uncounted unmeasured unpushed : Nat) : Prop where
  wire : s.rt.metrics.wireToParse.count = s.received.length
  heartbeats : s.rt.metrics.heartbeatsRecv =
    s.received.countP fun received => received.1.type = .heartbeat
  messages : s.rt.metrics.msgsReceived + uncounted = s.received.length
  depths : s.rt.metrics.queueDepth.count + unmeasured = carrying s.rt.cfg.tickSize s.received
  events : s.accepted.length + s.rt.metrics.queueFullDrops + unpushed =
    (eventsOf s.rt.cfg.tickSize s.received).length
  reconnects : s.rt.metrics.reconnects = s.connection - 1

/-- The counters are balanced against what the network thread still has in hand. -/
def NetworkBalanced (s : System) : Prop :=
  s.Balanced s.network.uncounted s.network.unmeasured s.network.unpushed

/-- Whatever leaves the feed's counters and histories alone keeps the balance. -/
theorem Balanced.keepsFeed {s after : System} {uncounted unmeasured unpushed : Nat}
    (balanced : s.Balanced uncounted unmeasured unpushed) (rt : s.rt.KeepsFeed after.rt)
    (received : after.received = s.received) (accepted : after.accepted = s.accepted)
    (connection : after.connection = s.connection) :
    after.Balanced uncounted unmeasured unpushed := by
  obtain ⟨wire, heartbeats, messages, depths, events, reconnects⟩ := balanced
  constructor
  · rw [rt.wireToParse, received]
    exact wire
  · rw [rt.heartbeatsRecv, received]
    exact heartbeats
  · rw [rt.msgsReceived, received]
    exact messages
  · rw [rt.queueDepth, received, rt.cfg]
    exact depths
  · rw [accepted, rt.queueFullDrops, received, rt.cfg]
    exact events
  · rw [rt.reconnects, connection]
    exact reconnects

/-- Turning to the next event of a message: it counts as received before its last one. -/
theorem Balanced.offer {s : System} {events : List MarketEvent}
    (balanced : s.Balanced (if events = [] then 0 else 1) 1 events.length) :
    (s.offer events).NetworkBalanced := by
  obtain ⟨wire, heartbeats, messages, depths, pushed, reconnects⟩ := balanced
  cases events with
  | nil => exact ⟨wire, heartbeats, messages, depths, pushed, reconnects⟩
  | cons event rest =>
    cases rest with
    | nil => exact ⟨wire, heartbeats, messages, depths, pushed, reconnects⟩
    | cons next rest => exact ⟨wire, heartbeats, messages, depths, pushed, reconnects⟩

/-- A message is timed; it is neither counted nor pushed yet. -/
theorem Balanced.countWire {s : System} (balanced : s.Balanced 0 0 0) (msg : CoinbaseMessage)
    (recvTs parseDone : Timestamp) :
    ({ s with received := s.received ++ [(msg, recvTs)] }.countWire msg.type recvTs
      parseDone).Balanced 1 (if msg.events s.rt.cfg.tickSize recvTs = [] then 0 else 1)
      (msg.events s.rt.cfg.tickSize recvTs).length := by
  obtain ⟨wire, heartbeats, messages, depths, pushed, reconnects⟩ := balanced
  have length : (s.received ++ [(msg, recvTs)]).length = s.received.length + 1 := List.length_append
  constructor
  · show s.rt.metrics.wireToParse.count + 1 = (s.received ++ [(msg, recvTs)]).length
    rw [length, wire]
  · show (if msg.type = .heartbeat then s.rt.metrics.heartbeatsRecv + 1
      else s.rt.metrics.heartbeatsRecv) = (s.received ++ [(msg, recvTs)]).countP _
    rw [List.countP_append, List.countP_singleton, heartbeats]
    by_cases beat : msg.type = .heartbeat <;> simp [beat]
  · show s.rt.metrics.msgsReceived + 1 = (s.received ++ [(msg, recvTs)]).length
    rw [length, ← messages, add_zero]
  · show s.rt.metrics.queueDepth.count + _ =
      carrying s.rt.cfg.tickSize (s.received ++ [(msg, recvTs)])
    rw [carrying_concat, ← depths, add_zero]
  · show s.accepted.length + s.rt.metrics.queueFullDrops + _ =
      (eventsOf s.rt.cfg.tickSize (s.received ++ [(msg, recvTs)])).length
    rw [eventsOf_concat, List.length_append, ← pushed, add_zero]
  · exact reconnects

theorem Balanced.receive {s : System} (balanced : s.Balanced 0 0 0) (msg : CoinbaseMessage)
    (recvTs parseDone : Timestamp) : (s.receive msg recvTs parseDone).NetworkBalanced := by
  have timed := balanced.countWire msg recvTs parseDone
  unfold System.receive
  dsimp only
  split
  · rename_i none
    rw [none] at timed
    exact ⟨timed.wire, timed.heartbeats, timed.messages, timed.depths, timed.events,
      timed.reconnects⟩
  · rename_i events some
    rw [if_neg some] at timed
    refine Balanced.offer ?_
    rw [if_neg some]
    exact timed

/-- A push, or a drop, takes one event off the network thread's hands. -/
theorem Balanced.push {s : System} {event : MarketEvent} {retries : Nat}
    {rest : List MarketEvent} (balanced : s.NetworkBalanced)
    (pushing : s.network = .pushing event retries rest) :
    (s.push event retries rest).NetworkBalanced := by
  have before : s.Balanced (if rest = [] then 0 else 1) 1 (rest.length + 1) := by
    unfold NetworkBalanced at balanced
    rw [pushing] at balanced
    cases rest <;> exact balanced
  obtain ⟨wire, heartbeats, messages, depths, pushed, reconnects⟩ := before
  unfold System.push
  split
  · refine Balanced.offer ⟨wire, heartbeats, messages, depths, ?_, reconnects⟩
    rw [List.length_append, List.length_singleton]
    show s.accepted.length + 1 + s.rt.metrics.queueFullDrops + _ =
      (eventsOf s.rt.cfg.tickSize s.received).length
    rw [← pushed]
    omega
  · split
    · cases rest <;> exact ⟨wire, heartbeats, messages, depths, pushed, reconnects⟩
    · refine Balanced.offer ⟨wire, heartbeats, messages, depths, ?_, reconnects⟩
      show s.accepted.length + (s.rt.metrics.queueFullDrops + 1) + _ =
        (eventsOf s.rt.cfg.tickSize s.received).length
      rw [← pushed]
      omega

theorem Balanced.connect {s : System} (balanced : s.Balanced 0 0 0) :
    s.connect.NetworkBalanced := by
  obtain ⟨wire, heartbeats, messages, depths, pushed, reconnects⟩ := balanced
  unfold System.connect
  dsimp only
  split
  · refine ⟨wire, heartbeats, messages, depths, pushed, ?_⟩
    show s.rt.metrics.reconnects + 1 = s.connection + 1 - 1
    omega
  · refine ⟨wire, heartbeats, messages, depths, pushed, ?_⟩
    show s.rt.metrics.reconnects = s.connection + 1 - 1
    omega

theorem NetworkBalanced.of_phase {s : System} {phase : NetworkThread}
    (balanced : s.NetworkBalanced) (there : s.network = phase) :
    s.Balanced phase.uncounted phase.unmeasured phase.unpushed :=
  there ▸ balanced

theorem Balanced.phase {s : System} {phase : NetworkThread}
    (balanced : s.Balanced phase.uncounted phase.unmeasured phase.unpushed) :
    { s with network := phase }.NetworkBalanced :=
  ⟨balanced.wire, balanced.heartbeats, balanced.messages, balanced.depths, balanced.events,
    balanced.reconnects⟩

theorem NetworkBalanced.step {s after : System} {action : Action} (balanced : s.NetworkBalanced)
    (stepped : s.step action = some after) : after.NetworkBalanced := by
  have keeps : ∀ {after : System}, s.rt.KeepsFeed after.rt → after.network = s.network →
      after.received = s.received → after.accepted = s.accepted →
      after.connection = s.connection → after.NetworkBalanced := by
    intro after rt network received accepted connection
    unfold NetworkBalanced
    rw [network]
    exact balanced.keepsFeed rt received accepted connection
  have same : s.rt.KeepsFeed s.rt := ⟨rfl, rfl, rfl, rfl, rfl, rfl, rfl⟩
  cases moves_of_step stepped with
  | dial offline =>
    have idle := balanced.of_phase offline
    refine Balanced.phase ?_
    split <;> exact idle
  | connect dialing => exact Balanced.connect (balanced.of_phase dialing)
  | connectFailed dialing =>
    have idle := balanced.of_phase dialing
    exact Balanced.phase idle
  | testWsRunning online =>
    have idle := balanced.of_phase online
    refine Balanced.phase ?_
    split <;> exact idle
  | readTimeout reading =>
    have idle := balanced.of_phase reading
    exact Balanced.phase idle
  | parseError reading =>
    obtain ⟨wire, heartbeats, messages, depths, pushed, reconnects⟩ := balanced.of_phase reading
    exact ⟨wire, heartbeats, messages, depths, pushed, reconnects⟩
  | disconnect connected =>
    rcases connected with online | reading
    · have idle := balanced.of_phase online
      exact Balanced.phase idle
    · have idle := balanced.of_phase reading
      exact Balanced.phase idle
  | receive msg recvTs parseDone reading =>
    exact Balanced.receive (balanced.of_phase reading) msg recvTs parseDone
  | push event retries rest pushing => exact Balanced.push balanced pushing
  | measure measuring =>
    obtain ⟨wire, heartbeats, messages, depths, pushed, reconnects⟩ := balanced.of_phase measuring
    exact ⟨wire, heartbeats, messages, depths, pushed, reconnects⟩
  | exchange exchanging =>
    unfold exchange
    split <;> exact keeps ⟨rfl, rfl, rfl, rfl, rfl, rfl, rfl⟩ rfl rfl rfl rfl
  | pop popping =>
    unfold pop
    split <;> exact keeps same rfl rfl rfl rfl
  | drain draining =>
    unfold pop
    split <;> exact keeps same rfl rfl rfl rfl
  | handle entry drained clock handling =>
    exact keeps (Runtime.processEvent_keepsFeed _ _ _) rfl rfl rfl rfl
  | testRunning | stop | joinNetwork | clearRunning | joinStrategy =>
    exact keeps same rfl rfl rfl rfl

/-! ### Every run -/

/-- The metrics only the strategy thread writes and the events handled are unchanged. -/
structure KeepsTrading (before after : System) : Prop where
  parseToBook : after.rt.metrics.parseToBook = before.rt.metrics.parseToBook
  bookToSignal : after.rt.metrics.bookToSignal = before.rt.metrics.bookToSignal
  tickToSignal : after.rt.metrics.tickToSignal = before.rt.metrics.tickToSignal
  signalToOrder : after.rt.metrics.signalToOrder = before.rt.metrics.signalToOrder
  orderToFill : after.rt.metrics.orderToFill = before.rt.metrics.orderToFill
  ordersApproved : after.rt.metrics.ordersApproved = before.rt.metrics.ordersApproved
  preSnapshotDrops : after.rt.metrics.preSnapshotDrops = before.rt.metrics.preSnapshotDrops
  handled : after.handled = before.handled

theorem KeepsTrading.balanced {before after : System} (keeps : before.KeepsTrading after)
    (accounts : before.rt.Handled before.handled) : after.rt.Handled after.handled := by
  obtain ⟨⟨signal, tick, order, fill⟩, balance⟩ := accounts
  refine ⟨⟨?_, ?_, ?_, ?_⟩, ?_⟩
  · rw [keeps.bookToSignal, keeps.parseToBook, signal]
  · rw [keeps.tickToSignal, keeps.parseToBook, tick]
  · rw [keeps.signalToOrder, keeps.ordersApproved, order]
  · rw [keeps.orderToFill, keeps.ordersApproved, fill]
  · rw [keeps.parseToBook, keeps.preSnapshotDrops, keeps.handled, balance]

theorem offer_keepsTrading (s : System) (events : List MarketEvent) :
    s.KeepsTrading (s.offer events) := by
  cases events with
  | nil => exact ⟨rfl, rfl, rfl, rfl, rfl, rfl, rfl, rfl⟩
  | cons event rest => cases rest <;> exact ⟨rfl, rfl, rfl, rfl, rfl, rfl, rfl, rfl⟩

theorem push_keepsTrading (s : System) (event : MarketEvent) (retries : Nat)
    (rest : List MarketEvent) : s.KeepsTrading (s.push event retries rest) := by
  unfold push
  split
  · obtain ⟨parse, signal, tick, order, fill, approved, early, handled⟩ := offer_keepsTrading
      { s with
        queue := s.queue ++ [⟨s.connection, event⟩]
        accepted := s.accepted ++ [⟨s.connection, event⟩] } rest
    exact ⟨parse, signal, tick, order, fill, approved, early, handled⟩
  · split
    · exact ⟨rfl, rfl, rfl, rfl, rfl, rfl, rfl, rfl⟩
    · obtain ⟨parse, signal, tick, order, fill, approved, early, handled⟩ :=
        offer_keepsTrading s.countDrop rest
      exact ⟨parse, signal, tick, order, fill, approved, early, handled⟩

theorem receive_keepsTrading (s : System) (msg : CoinbaseMessage) (recvTs parseDone : Timestamp) :
    s.KeepsTrading (s.receive msg recvTs parseDone) := by
  unfold receive
  dsimp only
  split
  · exact ⟨rfl, rfl, rfl, rfl, rfl, rfl, rfl, rfl⟩
  · obtain ⟨parse, signal, tick, order, fill, approved, early, handled⟩ := offer_keepsTrading
      ({ s with received := s.received ++ [(msg, recvTs)] }.countWire msg.type recvTs parseDone)
      (msg.events s.rt.cfg.tickSize recvTs)
    exact ⟨parse, signal, tick, order, fill, approved, early, handled⟩

theorem handled_step {s after : System} {action : Action} (accounts : s.rt.Handled s.handled)
    (stepped : s.step action = some after) : after.rt.Handled after.handled := by
  have same : ∀ {after : System}, s.KeepsTrading after → after.rt.Handled after.handled :=
    fun keeps => keeps.balanced accounts
  cases moves_of_step stepped with
  | connect dialing =>
    unfold connect
    dsimp only
    split <;> exact same ⟨rfl, rfl, rfl, rfl, rfl, rfl, rfl, rfl⟩
  | receive msg recvTs parseDone reading => exact same (receive_keepsTrading _ _ _ _)
  | push event retries rest pushing => exact same (push_keepsTrading _ _ _ _)
  | exchange exchanging =>
    unfold exchange
    split <;> exact same ⟨rfl, rfl, rfl, rfl, rfl, rfl, rfl, rfl⟩
  | pop popping =>
    unfold pop
    split <;> exact same ⟨rfl, rfl, rfl, rfl, rfl, rfl, rfl, rfl⟩
  | drain draining =>
    unfold pop
    split <;> exact same ⟨rfl, rfl, rfl, rfl, rfl, rfl, rfl, rfl⟩
  | handle entry drained clock handling => exact accounts.processEvent clock entry
  | dial | connectFailed | testWsRunning | readTimeout | parseError | disconnect | measure
  | testRunning | stop | joinNetwork | clearRunning | joinStrategy =>
    exact same ⟨rfl, rfl, rfl, rfl, rfl, rfl, rfl, rfl⟩

theorem balanced_of_reaches {cfg : RuntimeConfig} {s : System}
    (reached : Reaches step Free (initial cfg) s) :
    s.NetworkBalanced ∧ s.rt.Handled s.handled := by
  refine @Reaches.invariant _ _ step Free (initial cfg)
    (fun s => s.NetworkBalanced ∧ s.rt.Handled s.handled) ⟨?_, ?_⟩
    (fun before action after holds _ stepped => ?_) s reached
  · exact ⟨rfl, rfl, rfl, rfl, rfl, rfl⟩
  · exact ⟨⟨rfl, rfl, rfl, rfl⟩, rfl⟩
  · exact ⟨holds.1.step stepped, handled_step holds.2 stepped⟩

theorem held_length (s : System) : s.pipeline.held.toList.length = s.strategy.held := by
  unfold pipeline
  cases s.strategy <;> rfl

/-- In every interleaving every message and every event is counted once, up to those on their way;
and when `stop` returns none is, so the events of all messages received are those timed, those that
came too early, the heartbeats handled and the drops. -/
theorem metrics_balance (cfg : RuntimeConfig) (s : System)
    (reached : Reaches step Free (initial cfg) s) :
    s.NetworkBalanced ∧ s.rt.Handled s.handled ∧
      s.accepted.length = s.handled.length + s.strategy.held + s.queue.length ∧
      (s.caller = .returned →
        s.rt.metrics.msgsReceived = s.received.length ∧
        s.rt.metrics.queueDepth.count = carrying s.rt.cfg.tickSize s.received ∧
        (eventsOf s.rt.cfg.tickSize s.received).length =
          s.rt.metrics.parseToBook.count + s.rt.metrics.preSnapshotDrops + heartbeats s.handled +
            s.rt.metrics.queueFullDrops) := by
  obtain ⟨balanced, accounts⟩ := balanced_of_reaches reached
  have ordered := ordered_of_reaches reached
  have fifo : s.accepted.length = s.handled.length + s.strategy.held + s.queue.length := by
    have fifo : s.accepted = s.handled ++ s.pipeline.held.toList ++ s.queue :=
      (inOrder reached).fifo
    rw [fifo, List.length_append, List.length_append, held_length]
  refine ⟨balanced, accounts, fifo, fun returned => ?_⟩
  have done := ordered.returned returned
  have idle := balanced.of_phase (ordered.producer (by rw [returned]; trivial))
  refine ⟨idle.messages, idle.depths, ?_⟩
  rw [done, ordered.drained done] at fifo
  rw [accounts.handled, ← idle.events, fifo]
  rfl

theorem metrics_balance_stopLate :
    ∃ s : System, s.caller = .returned ∧ s.rt.metrics.msgsReceived = 4 ∧
      s.rt.metrics.queueDepth.count = 4 ∧ heartbeats s.handled = 1 ∧
      4 = s.rt.metrics.parseToBook.count + s.rt.metrics.preSnapshotDrops + 1 +
        s.rt.metrics.queueFullDrops := by
  have executed : ∃ s, execute step Free (initial {}) stopLate = some s ∧
      s.caller = .returned ∧ s.received.length = 4 ∧
      carrying s.rt.cfg.tickSize s.received = 4 ∧
      (eventsOf s.rt.cfg.tickSize s.received).length = 4 ∧ heartbeats s.handled = 1 :=
    ⟨_, rfl, rfl, rfl, rfl, rfl, rfl⟩
  obtain ⟨s, executed, returned, received, depths, events, beats⟩ := executed
  obtain ⟨messages, carried, whole⟩ :=
    (metrics_balance {} s (Reaches.start.execute executed)).2.2.2 returned
  rw [events, beats] at whole
  exact ⟨s, returned, messages.trans received, carried.trans depths, beats, whole⟩

end System

end Trading
