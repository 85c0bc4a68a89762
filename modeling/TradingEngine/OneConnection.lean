/-
This file is about what the two threads can do on one connection that first sends a
snapshot and then updates. The network thread can always receive the next message and push
its event, or lose it if the queue is full, and the strategy thread can always handle what
waits on the queue.

Concrete runs are put together from these lemmas, so that a run of some thousand steps
need not be evaluated: each lemma says where the threads stand before and after, and that
everything else is as it was.
-/

import TradingEngine.Threads

namespace Trading

open Transition

/-- One connection only, and on it first a snapshot, then updates. -/
def System.OneConnection (s : System) : Action → Prop
  | .connect => s.connection = 0
  | .receive msg _ _ => if s.received = [] then msg.type = .snapshot else msg.type = .l2Update
  | _ => True

instance (s : System) : (action : Action) → Decidable (s.OneConnection action)
  | .connect => inferInstanceAs (Decidable (s.connection = 0))
  | .receive msg _ _ => inferInstanceAs (Decidable
      (if s.received = [] then msg.type = .snapshot else msg.type = .l2Update))
  | .dial | .connectFailed | .testWsRunning | .readTimeout | .parseError | .disconnect | .push
  | .measure | .testRunning | .exchange | .pop | .handle _ | .stop | .joinNetwork | .clearRunning
  | .joinStrategy => .isTrue trivial

namespace System

variable {cfg : RuntimeConfig} {s : System}

/-! ### The network thread -/

theorem oneConnection_update (begun : s.received ≠ []) {msg : CoinbaseMessage}
    (update : msg.type = .l2Update) (recvTs parseDone : Timestamp) :
    s.OneConnection (.receive msg recvTs parseDone) := by
  rw [OneConnection, if_neg begun]
  exact update

/-- A push onto a queue with room. -/
theorem push_room {event : MarketEvent} {retries : Nat} (room : s.queue.length < queueCapacity) :
    s.push event retries [] =
      { s with
        network := .measuring
        queue := s.queue ++ [⟨s.connection, event⟩]
        accepted := s.accepted ++ [⟨s.connection, event⟩] } := by
  rw [push, if_pos room]
  rfl

theorem push_full {event : MarketEvent} (full : queueCapacity ≤ s.queue.length) :
    s.push event 0 [] = { s.countDrop with network := .measuring } := by
  rw [push, if_neg (not_lt.mpr full), if_neg (lt_irrefl 0)]
  rfl

section Threads

variable [DoubleDivision]

/-- A message that makes one event leaves that event to push. -/
theorem receive_single {msg : CoinbaseMessage} {recvTs : Timestamp} {event : MarketEvent}
    (single : msg.events s.rt.cfg.tickSize recvTs = [event]) :
    ∃ rt, Runtime.KeepsMarket s.rt rt ∧ s.receive msg recvTs recvTs =
      { s with
        rt
        network := .pushing event (if event.kind = .snapshot then snapshotRetries else 0) []
        received := s.received ++ [(msg, recvTs)] } := by
  refine ⟨_, ?_, by rw [receive, single]; rfl⟩
  exact ⟨rfl, rfl, rfl, rfl⟩

/-- A message of one event is received. -/
theorem reaches_pushing (reached : Reaches step OneConnection (initial cfg) s)
    (online : s.network = .online) (running : s.wsRunning = true) {msg : CoinbaseMessage}
    {recvTs : Timestamp} {event : MarketEvent}
    (permitted : s.OneConnection (.receive msg recvTs recvTs))
    (single : msg.events s.rt.cfg.tickSize recvTs = [event]) :
    ∃ rt, Runtime.KeepsMarket s.rt rt ∧ Reaches step OneConnection (initial cfg)
      { s with
        rt
        network := .pushing event (if event.kind = .snapshot then snapshotRetries else 0) []
        received := s.received ++ [(msg, recvTs)] } := by
  have reading : Reaches step OneConnection (initial cfg) { s with network := .reading } := by
    refine reached.next .testWsRunning trivial ?_
    rw [step, if_pos online, if_pos running]
  obtain ⟨rt, kept, received⟩ := receive_single (s := { s with network := .reading }) single
  refine ⟨rt, kept, reading.next (.receive msg recvTs recvTs) permitted ?_⟩
  rw [step, if_pos rfl, received]

/-- A message of one event is received, and its event pushed while the queue has room. -/
theorem reaches_pushed (reached : Reaches step OneConnection (initial cfg) s)
    (online : s.network = .online) (running : s.wsRunning = true) {msg : CoinbaseMessage}
    {recvTs : Timestamp} {event : MarketEvent}
    (permitted : s.OneConnection (.receive msg recvTs recvTs))
    (single : msg.events s.rt.cfg.tickSize recvTs = [event])
    (room : s.queue.length < queueCapacity) :
    ∃ rt, Runtime.KeepsMarket s.rt rt ∧ Reaches step OneConnection (initial cfg)
      { s with
        rt
        network := .online
        received := s.received ++ [(msg, recvTs)]
        queue := s.queue ++ [⟨s.connection, event⟩]
        accepted := s.accepted ++ [⟨s.connection, event⟩] } := by
  obtain ⟨rt, kept, pushing⟩ := reaches_pushing reached online running permitted single
  have pushed := pushing.next Action.push trivial (congrArg some (push_room room))
  refine ⟨_, ?_, pushed.next Action.measure trivial rfl⟩
  exact ⟨kept.cfg, kept.book, kept.bookReady, kept.queueFullDrops⟩

/-- An update of one event that finds the queue full is received and lost. -/
theorem reaches_lost (reached : Reaches step OneConnection (initial cfg) s)
    (online : s.network = .online) (running : s.wsRunning = true) {msg : CoinbaseMessage}
    {recvTs : Timestamp} {event : MarketEvent}
    (permitted : s.OneConnection (.receive msg recvTs recvTs))
    (single : msg.events s.rt.cfg.tickSize recvTs = [event]) (update : event.kind = .l2Update)
    (full : queueCapacity ≤ s.queue.length) :
    ∃ rt, rt.bookReady = s.rt.bookReady ∧
      Reaches step OneConnection (initial cfg)
        { s with rt, network := .online, received := s.received ++ [(msg, recvTs)] } := by
  obtain ⟨rt, kept, pushing⟩ := reaches_pushing reached online running permitted single
  rw [update] at pushing
  have lost := pushing.next Action.push trivial (congrArg some (push_full full))
  refine ⟨_, ?_, lost.next Action.measure trivial rfl⟩
  exact kept.bookReady

/-! ### The strategy thread -/

/-- The strategy thread takes the next entry. -/
theorem reaches_handling (reached : Reaches step OneConnection (initial cfg) s)
    (head : s.strategy = .head) (running : s.running = true) (unflagged : s.bookInvalidate = false)
    {entry : Entry} {rest : List Entry} (first : s.queue = entry :: rest) :
    Reaches step OneConnection (initial cfg)
      { s with strategy := .handling entry false, queue := rest } := by
  have exchanging : Reaches step OneConnection (initial cfg)
      { s with strategy := .exchanging } := by
    refine reached.next .testRunning trivial ?_
    rw [step, if_pos head, if_pos running]
  have popping : Reaches step OneConnection (initial cfg) { s with strategy := .popping } := by
    refine exchanging.next .exchange trivial ?_
    rw [step, if_pos rfl, exchange, if_neg (by simp [unflagged])]
  refine popping.next .pop trivial ?_
  show some (pop { s with strategy := .popping } false) = _
  simp only [pop, first]

/-- The strategy thread handles what lies at the front of the queue. -/
theorem reaches_drained {front back : List Entry}
    (reached : Reaches step OneConnection (initial cfg) s) (head : s.strategy = .head)
    (running : s.running = true) (unflagged : s.bookInvalidate = false)
    (waiting : s.queue = front ++ back) :
    ∃ rt rebuiltFrom, (s.rt.bookReady = true → rt.bookReady = true) ∧
      rt.metrics.queueFullDrops = s.rt.metrics.queueFullDrops ∧
      Reaches step OneConnection (initial cfg)
        { s with
          rt
          strategy := .head
          queue := back
          handled := s.handled ++ front
          rebuiltFrom } := by
  induction front generalizing s with
  | nil =>
    refine ⟨s.rt, s.rebuiltFrom, id, rfl, ?_⟩
    rw [List.append_nil, ← head, ← List.nil_append back, ← waiting]
    exact reached
  | cons entry front inductionHypothesis =>
    have handling := reaches_handling reached head running unflagged waiting
    have handled := handling.next (Action.handle ⟨1, 2, 3, 4, 5, 6⟩) trivial rfl
    obtain ⟨rt, rebuiltFrom, ready, drops, done⟩ := inductionHypothesis handled rfl running
      unflagged rfl
    refine ⟨rt, rebuiltFrom, fun before => ready ?_, ?_, ?_⟩
    · rw [handle, Runtime.processEvent_bookReady, before, Bool.true_or]
    · rw [drops, handle, Runtime.processEvent_queueFullDrops]
    · rw [handle, List.append_assoc] at done
      exact done

end Threads

/-! ### A snapshot and an update to run -/

/-- A snapshot of one bid at 100 and one ask at 102. -/
def quoteMessage : CoinbaseMessage := ⟨.snapshot, [⟨100, 3⟩], [⟨102, 1⟩], []⟩

/-- An update that lifts the bid to 100.1. -/
def liftMessage : CoinbaseMessage := ⟨.l2Update, [], [], [⟨.bid, 1001 / 10, 2⟩]⟩

/-- The event of the quote. -/
def quoteEvent : MarketEvent :=
  { MarketEvent.empty with
    kind := .snapshot, recvNs := 1, snap := MarketEvent.Snap.ofMessage quoteMessage (1 / 100) }

/-- The event of the lift, received at a given time. -/
def liftEvent (recvTs : Timestamp) : MarketEvent :=
  { MarketEvent.empty with
    kind := .l2Update, recvNs := recvTs, l2 := MarketEvent.L2.empty.fill liftMessage.changes }

theorem liftMessage_events (tickSize : ℚ) (recvTs : Timestamp) :
    liftMessage.events tickSize recvTs = [liftEvent recvTs] := rfl

/-- The queue fills up with updates. -/
theorem reaches_filled (reached : Reaches step OneConnection (initial cfg) s)
    (online : s.network = .online) (running : s.wsRunning = true) (begun : s.received ≠ [])
    (count : Nat) (room : s.queue.length + count ≤ queueCapacity) :
    ∃ rt, Runtime.KeepsMarket s.rt rt ∧ Reaches step OneConnection (initial cfg)
      { s with
        rt
        network := .online
        received := s.received ++ List.replicate count (liftMessage, 7)
        queue := s.queue ++ List.replicate count ⟨s.connection, liftEvent 7⟩
        accepted := s.accepted ++ List.replicate count ⟨s.connection, liftEvent 7⟩ } := by
  induction count with
  | zero =>
    refine ⟨s.rt, ⟨rfl, rfl, rfl, rfl⟩, ?_⟩
    simp only [List.replicate_zero, List.append_nil, ← online]
    exact reached
  | succ count inductionHypothesis =>
    obtain ⟨rt, kept, filled⟩ := inductionHypothesis (by omega)
    obtain ⟨after, keptToo, pushed⟩ := reaches_pushed filled rfl running
      (oneConnection_update (List.append_ne_nil_of_left_ne_nil begun _) rfl 7 7)
      (liftMessage_events _ 7)
      (by simp only [List.length_append, List.length_replicate]; omega)
    refine ⟨after, keptToo.after kept, ?_⟩
    simp only [List.append_assoc, ← List.replicate_succ'] at pushed
    exact pushed

/-- The system once it has handled a first snapshot. -/
def quoted (rt : Runtime) : System :=
  { initial {} with
    rt
    network := .online
    connection := 1
    received := [(quoteMessage, 1)]
    accepted := [⟨1, quoteEvent⟩]
    handled := [⟨1, quoteEvent⟩]
    rebuiltFrom := some 1 }

/-- A run that has handled the quote. -/
theorem reaches_quoted :
    ∃ rt, Reaches step OneConnection (initial {}) (quoted rt) ∧ rt.cfg = {} ∧
      rt.bookReady = true ∧ rt.metrics.queueFullDrops = 0 ∧
      rt.book = (quoteEvent.calls (1 / 100) false).foldl BoundedBook.call
        (BoundedBook.fresh bookCapacity) := by
  have executed : ∃ rt : Runtime, execute step OneConnection (initial {})
      [.dial, .connect, .testWsRunning, .receive quoteMessage 1 2, .push, .measure, .testRunning,
        .exchange, .pop, .handle ⟨1, 2, 3, 4, 5, 6⟩] =
        some (quoted (rt.processEvent ⟨1, 2, 3, 4, 5, 6⟩ quoteEvent)) ∧
      rt.cfg = {} ∧ rt.bookReady = false ∧ rt.metrics.queueFullDrops = 0 ∧
      rt.book = BoundedBook.fresh bookCapacity :=
    ⟨_, rfl, rfl, rfl, rfl, rfl⟩
  obtain ⟨rt, executed, cfg, unready, drops, book⟩ := executed
  refine ⟨_, Reaches.start.execute executed, ?_, ?_, ?_, ?_⟩
  · rw [Runtime.processEvent_cfg, cfg]
  · rw [Runtime.processEvent_bookReady]
    exact Bool.or_true _
  · rw [Runtime.processEvent_queueFullDrops, drops]
  · rw [Runtime.processEvent_book, cfg, unready, book]

end System

end Trading
