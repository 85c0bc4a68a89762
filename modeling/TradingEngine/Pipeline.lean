/-
This file is the abstract pipeline behind the threads: events wait with the network
thread, on the queue or with the strategy thread, and then change the book. It keeps of
the system what the order of events depends on and forgets program counters, metrics and
trading. Every step of the system is a step of the pipeline or leaves the pipeline alone,
so what holds of the pipeline holds of every interleaving.

A step of the pipeline is one of seven things that can happen to an event or to the flag
beside the queue. Whether it may happen is said by its conditions alone, not by where the
threads stand.
-/

import TradingEngine.Threads

namespace Trading

/-- What the feed has to do with the book: the part of a system that the messages pass through. -/
structure Pipeline where
  tickSize : ℚ
  book : BoundedBook bookCapacity
  bookReady : Bool
  queueFullDrops : Nat
  bookInvalidate : Bool
  connection : Nat
  received : List (CoinbaseMessage × Timestamp)
  pending : List MarketEvent
  queue : List Entry
  held : Option Entry
  accepted : List Entry
  handled : List Entry
  rebuiltFrom : Option Nat

namespace Pipeline

variable [DoubleDivision]

/-- An event moves one stage on. -/
inductive Step (p : Pipeline) : Action → Pipeline → Prop where
  | connect (idle : p.pending = []) :
      Step p .connect
        { p with
          connection := p.connection + 1
          bookInvalidate := p.bookInvalidate || decide (0 < p.connection) }
  | receive (msg : CoinbaseMessage) (recvTs parseDone : Timestamp) (idle : p.pending = [])
      (connected : 0 < p.connection) :
      Step p (.receive msg recvTs parseDone)
        { p with
          received := p.received ++ [(msg, recvTs)]
          pending := msg.events p.tickSize recvTs }
  | push (event : MarketEvent) (rest : List MarketEvent) (waiting : p.pending = event :: rest)
      (room : p.queue.length < queueCapacity) :
      Step p .push
        { p with
          pending := rest
          queue := p.queue ++ [⟨p.connection, event⟩]
          accepted := p.accepted ++ [⟨p.connection, event⟩] }
  | lose (event : MarketEvent) (rest : List MarketEvent) (waiting : p.pending = event :: rest)
      (full : queueCapacity ≤ p.queue.length) :
      Step p .push { p with pending := rest, queueFullDrops := p.queueFullDrops + 1 }
  | invalidate (flagged : p.bookInvalidate = true) (free : p.held = none) :
      Step p .exchange { p with bookInvalidate := false, bookReady := false }
  | pop (entry : Entry) (rest : List Entry) (free : p.held = none)
      (first : p.queue = entry :: rest) :
      Step p .pop { p with queue := rest, held := some entry }
  | handle (entry : Entry) (clock : EventClock) (held : p.held = some entry) :
      Step p (.handle clock)
        { p with
          held := none
          handled := p.handled ++ [entry]
          book := (entry.event.calls p.tickSize p.bookReady).foldl BoundedBook.call p.book
          bookReady := p.bookReady || decide (entry.event.kind = .snapshot)
          rebuiltFrom := if entry.event.kind = .snapshot then some entry.connection
            else p.rebuiltFrom }

end Pipeline

namespace System

/-- What the pipeline keeps of the system. -/
def pipeline (s : System) : Pipeline where
  tickSize := s.rt.cfg.tickSize
  book := s.rt.book
  bookReady := s.rt.bookReady
  queueFullDrops := s.rt.metrics.queueFullDrops
  bookInvalidate := s.bookInvalidate
  connection := s.connection
  received := s.received
  pending := match s.network with
    | .pushing event _ rest => event :: rest
    | _ => []
  queue := s.queue
  held := match s.strategy with
    | .handling entry _ => some entry
    | _ => none
  accepted := s.accepted
  handled := s.handled
  rebuiltFrom := s.rebuiltFrom

theorem offer_pipeline (s : System) (events : List MarketEvent) :
    (s.offer events).pipeline = { s.pipeline with pending := events } := by
  cases events with
  | nil => rfl
  | cons event rest => cases rest <;> rfl

theorem pipeline_held {s : System} {entry : Entry} {drained : Bool}
    (handling : s.strategy = .handling entry drained) : s.pipeline.held = some entry := by
  simp only [pipeline, handling]

/-- The network thread has no connection, or made one before. -/
def Dialed (s : System) : Prop :=
  s.network = .offline ∨ s.network = .dialing ∨ s.network = .exited ∨ 0 < s.connection

theorem offer_connection (s : System) (events : List MarketEvent) :
    (s.offer events).connection = s.connection := by
  cases events with
  | nil => rfl
  | cons event rest => cases rest <;> rfl

theorem push_connection (s : System) (event : MarketEvent) (retries : Nat)
    (rest : List MarketEvent) : (s.push event retries rest).connection = s.connection := by
  unfold push
  split
  · exact offer_connection _ _
  · split
    · rfl
    · exact offer_connection _ _

theorem Dialed.of_connection {s : System} (connected : 0 < s.connection) : s.Dialed :=
  Or.inr (Or.inr (Or.inr connected))

theorem Dialed.connected {s : System} (dialed : s.Dialed)
    (network : s.network ≠ .offline ∧ s.network ≠ .dialing ∧ s.network ≠ .exited) :
    0 < s.connection :=
  ((dialed.resolve_left network.1).resolve_left network.2.1).resolve_left network.2.2

section Steps

variable [DoubleDivision]

theorem connect_pipeline {s : System} (dialing : s.network = .dialing) :
    s.pipeline.Step .connect s.connect.pipeline := by
  have idle : s.pipeline.pending = [] := by simp only [pipeline, dialing]
  have connected : s.connect.pipeline =
      { s.pipeline with
        connection := s.pipeline.connection + 1
        bookInvalidate := s.pipeline.bookInvalidate || decide (0 < s.pipeline.connection) } := by
    unfold connect
    dsimp only
    split
    · rename_i again
      simp only [pipeline, onReconnect, setMetrics, dialing, again, decide_true, Bool.or_true]
    · rename_i first
      simp only [pipeline, dialing, first, decide_false, Bool.or_false]
  rw [connected]
  exact .connect idle

theorem receive_pipeline {s : System} (reading : s.network = .reading)
    (connected : 0 < s.connection) (msg : CoinbaseMessage) (recvTs parseDone : Timestamp) :
    s.pipeline.Step (.receive msg recvTs parseDone) (s.receive msg recvTs parseDone).pipeline := by
  have idle : s.pipeline.pending = [] := by simp only [pipeline, reading]
  have received : (s.receive msg recvTs parseDone).pipeline =
      { s.pipeline with
        received := s.pipeline.received ++ [(msg, recvTs)]
        pending := msg.events s.pipeline.tickSize recvTs } := by
    unfold receive
    dsimp only
    cases events : msg.events s.rt.cfg.tickSize recvTs with
    | nil => simp only [pipeline, countMsg, countWire, setMetrics, events]
    | cons event rest =>
      dsimp only
      rw [offer_pipeline]
      simp only [pipeline, countWire, setMetrics, events]
  rw [received]
  exact .receive msg recvTs parseDone idle connected

/-- A try to push is a step of the pipeline, or is to be repeated and changes nothing there. -/
theorem push_pipeline {s : System} {event : MarketEvent} {retries : Nat}
    {rest : List MarketEvent} (pushing : s.network = .pushing event retries rest) :
    (s.push event retries rest).pipeline = s.pipeline ∨
      s.pipeline.Step .push (s.push event retries rest).pipeline := by
  have waiting : s.pipeline.pending = event :: rest := by simp only [pipeline, pushing]
  unfold push
  split
  · rename_i room
    right
    dsimp only
    rw [offer_pipeline]
    exact .push event rest waiting room
  · rename_i full
    split
    · left
      simp only [pipeline, pushing]
    · right
      rw [offer_pipeline]
      exact .lose event rest waiting (not_lt.mp full)

theorem exchange_pipeline {s : System} (exchanging : s.strategy = .exchanging) :
    s.exchange.pipeline = s.pipeline ∨ s.pipeline.Step .exchange s.exchange.pipeline := by
  unfold exchange
  split
  · rename_i flagged
    right
    have free : s.pipeline.held = none := by simp only [pipeline, exchanging]
    have taken := Pipeline.Step.invalidate (p := s.pipeline) flagged free
    simpa only [pipeline, exchanging] using taken
  · left
    simp only [pipeline, exchanging]

theorem pop_pipeline {s : System} (drained : Bool)
    (popping : s.strategy = .popping ∨ s.strategy = .draining) :
    (s.pop drained).pipeline = s.pipeline ∨ s.pipeline.Step .pop (s.pop drained).pipeline := by
  have free : s.pipeline.held = none := by
    rcases popping with loop | drain
    · simp only [pipeline, loop]
    · simp only [pipeline, drain]
  unfold pop
  split
  · left
    rcases popping with loop | drain
    · cases drained <;> simp only [pipeline, loop, Bool.false_eq_true, if_true, if_false]
    · cases drained <;> simp only [pipeline, drain, Bool.false_eq_true, if_true, if_false]
  · rename_i entry queue first
    exact Or.inr (.pop entry queue free first)

theorem handle_pipeline {s : System} {entry : Entry} {drained : Bool}
    (handling : s.strategy = .handling entry drained) (clock : EventClock) :
    s.pipeline.Step (.handle clock) (s.handle entry drained clock).pipeline := by
  have handled : (s.handle entry drained clock).pipeline =
      { s.pipeline with
        held := none
        handled := s.pipeline.handled ++ [entry]
        book := (entry.event.calls s.pipeline.tickSize s.pipeline.bookReady).foldl
          BoundedBook.call s.pipeline.book
        bookReady := s.pipeline.bookReady || decide (entry.event.kind = .snapshot)
        rebuiltFrom := if entry.event.kind = .snapshot then some entry.connection
          else s.pipeline.rebuiltFrom } := by
    cases drained <;>
      simp only [pipeline, handle, Runtime.processEvent_cfg, Runtime.processEvent_book,
        Runtime.processEvent_bookReady, Runtime.processEvent_queueFullDrops, if_true, if_false,
        Bool.false_eq_true]
  rw [handled]
  exact .handle entry clock (pipeline_held handling)

theorem receive_connection (s : System) (msg : CoinbaseMessage) (recvTs parseDone : Timestamp) :
    (s.receive msg recvTs parseDone).connection = s.connection := by
  unfold receive
  dsimp only
  split
  · rfl
  · exact offer_connection _ _

theorem Dialed.step {s after : System} {action : Action} (dialed : s.Dialed)
    (stepped : s.step action = some after) : after.Dialed := by
  cases moves_of_step stepped with
  | dial offline =>
    cases running : s.wsRunning with
    | true => exact Or.inr (Or.inl rfl)
    | false => exact Or.inr (Or.inr (Or.inl rfl))
  | connect dialing =>
    refine .of_connection ?_
    unfold connect
    dsimp only
    split <;> exact Nat.succ_pos _
  | connectFailed dialing => exact Or.inl rfl
  | testWsRunning online => exact .of_connection (dialed.connected (by simp [online]))
  | readTimeout reading => exact .of_connection (dialed.connected (by simp [reading]))
  | parseError reading => exact .of_connection (dialed.connected (by simp [reading]))
  | disconnect connected => exact Or.inl rfl
  | receive msg recvTs parseDone reading =>
    refine .of_connection ?_
    rw [receive_connection]
    exact dialed.connected (by simp [reading])
  | push event retries rest pushing =>
    refine .of_connection ?_
    rw [push_connection]
    exact dialed.connected (by simp [pushing])
  | measure measuring => exact .of_connection (dialed.connected (by simp [measuring]))
  | exchange exchanging =>
    unfold exchange
    split <;> exact dialed
  | pop popping =>
    unfold pop
    split <;> exact dialed
  | drain draining =>
    unfold pop
    split <;> exact dialed
  | testRunning | handle | stop | joinNetwork | clearRunning | joinStrategy => exact dialed

/-- Every step of the system is a step of the pipeline, or leaves the pipeline alone. -/
theorem step_pipeline {s after : System} {action : Action} (dialed : s.Dialed)
    (stepped : s.step action = some after) :
    after.pipeline = s.pipeline ∨ s.pipeline.Step action after.pipeline := by
  cases moves_of_step stepped with
  | connect dialing => exact Or.inr (connect_pipeline dialing)
  | receive msg recvTs parseDone reading =>
    have connected := dialed.connected (by simp [reading])
    exact Or.inr (receive_pipeline reading connected msg recvTs parseDone)
  | push event retries rest pushing => exact push_pipeline pushing
  | exchange exchanging => exact exchange_pipeline exchanging
  | pop popping => exact pop_pipeline false (Or.inl popping)
  | drain draining => exact pop_pipeline true (Or.inr draining)
  | handle entry drained clock handling => exact Or.inr (handle_pipeline handling clock)
  | dial offline =>
    left
    cases s.wsRunning <;> simp only [pipeline, offline, if_true, if_false, Bool.false_eq_true]
  | connectFailed dialing => exact Or.inl (by simp only [pipeline, dialing])
  | testWsRunning online =>
    left
    cases s.wsRunning <;> simp only [pipeline, online, if_true, if_false, Bool.false_eq_true]
  | readTimeout reading => exact Or.inl (by simp only [pipeline, reading])
  | parseError reading =>
    exact Or.inl (by simp only [pipeline, onParseError, setMetrics, reading])
  | disconnect connected =>
    rcases connected with online | reading
    · exact Or.inl (by simp only [pipeline, online])
    · exact Or.inl (by simp only [pipeline, reading])
  | measure measuring => exact Or.inl (by simp only [pipeline, measure, setMetrics, measuring])
  | testRunning head =>
    left
    cases s.running <;> simp only [pipeline, head, if_true, if_false, Bool.false_eq_true]
  | stop | joinNetwork | clearRunning | joinStrategy => exact Or.inl rfl

/-- What holds at the start and survives every step of the pipeline holds in every state of
every run. -/
theorem reaches_pipeline {allowed : System → Action → Prop} {cfg : RuntimeConfig}
    (Invariant : Pipeline → Prop) (start : Invariant (initial cfg).pipeline)
    (preserved : ∀ (s : System) (action : Action) (after : Pipeline), Invariant s.pipeline →
      allowed s action → s.pipeline.Step action after → Invariant after)
    {s : System} (reached : Transition.Reaches step allowed (initial cfg) s) :
    Invariant s.pipeline := by
  refine (@Transition.Reaches.invariant _ _ step allowed _
    (fun s => s.Dialed ∧ Invariant s.pipeline) ⟨Or.inl rfl, start⟩
    (fun before action after holds permitted stepped => ?_) s reached).2
  refine ⟨holds.1.step stepped, ?_⟩
  rcases step_pipeline holds.1 stepped with same | moved
  · rw [same]
    exact holds.2
  · exact preserved before action after.pipeline holds.2 permitted moved

end Steps

end System

/-! ### Every run hands events on in order -/

/-- The connection of the last snapshot among some entries. -/
def lastSnapshot (entries : List Entry) : Option Nat :=
  entries.foldl (fun last entry =>
    if entry.event.kind = .snapshot then some entry.connection else last) none

theorem lastSnapshot_append_singleton (entries : List Entry) (entry : Entry) :
    lastSnapshot (entries ++ [entry]) =
      if entry.event.kind = .snapshot then some entry.connection else lastSnapshot entries := by
  rw [lastSnapshot, List.foldl_append]
  rfl

namespace Pipeline

variable [DoubleDivision]

/-- What the queue took was handled, is held, or is still on the queue, in that order; the book
is ready only if it was rebuilt, and then from the last snapshot handled. -/
structure InOrder (p : Pipeline) : Prop where
  fifo : p.accepted = p.handled ++ p.held.toList ++ p.queue
  rebuilt : p.rebuiltFrom = lastSnapshot p.handled
  ready : p.bookReady = true → p.rebuiltFrom ≠ none

theorem InOrder.step {p after : Pipeline} {action : Action} (inOrder : InOrder p)
    (step : p.Step action after) : InOrder after := by
  obtain ⟨fifo, rebuilt, ready⟩ := inOrder
  cases step with
  | connect idle => exact ⟨fifo, rebuilt, ready⟩
  | receive msg recvTs parseDone idle connected => exact ⟨fifo, rebuilt, ready⟩
  | push event rest waiting room =>
    refine ⟨?_, rebuilt, ready⟩
    simp only [fifo, List.append_assoc]
  | lose event rest waiting full => exact ⟨fifo, rebuilt, ready⟩
  | invalidate flagged free => exact ⟨fifo, rebuilt, nofun⟩
  | pop entry rest free first =>
    refine ⟨?_, rebuilt, ready⟩
    rw [fifo, free, first]
    simp
  | handle entry clock held =>
    refine ⟨?_, ?_, ?_⟩
    · rw [fifo, held]
      simp
    · dsimp only
      rw [lastSnapshot_append_singleton, rebuilt]
    · dsimp only
      intro nowReady
      split
      · exact nofun
      · rename_i other
        simp only [other, decide_false, Bool.or_false] at nowReady
        exact ready nowReady

end Pipeline

theorem System.inOrder [DoubleDivision] {allowed : System → Action → Prop}
    {cfg : RuntimeConfig} {s : System}
    (reached : Transition.Reaches System.step allowed (System.initial cfg) s) :
    s.pipeline.InOrder :=
  System.reaches_pipeline Pipeline.InOrder ⟨rfl, rfl, nofun⟩
    (fun _ _ _ inOrder _ moved => inOrder.step moved) reached

/-- The entry at hand lies between the handled entries and the queue. -/
theorem System.accepted_of_handling [DoubleDivision] {allowed : System → Action → Prop}
    {cfg : RuntimeConfig} {s : System}
    (reached : Transition.Reaches System.step allowed (System.initial cfg) s)
    {entry : Entry} {drained : Bool} (handling : s.strategy = .handling entry drained) :
    s.accepted = s.handled ++ entry :: s.queue := by
  have fifo := (System.inOrder reached).fifo
  rw [System.pipeline_held handling, List.append_assoc] at fifo
  exact fifo

end Trading
