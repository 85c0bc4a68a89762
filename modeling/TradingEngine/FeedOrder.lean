/-
This file follows the feed of one connection, a snapshot and then updates, through
both threads to the book.

In every interleaving the queue takes a subsequence of the events the network thread
made of the feed, in order and starting with the snapshot, and the book is exactly
what the events handled so far make of it. An event that finds the queue full is
counted and missing; nothing else tells of it. So the count is zero exactly as long
as no event is missing, and an update that comes after a lost one is applied like any
other.
-/

import TradingEngine.OneConnection
import TradingEngine.Pipeline

namespace Trading

open Transition

/-- First a snapshot and then updates. -/
def FeedShape {Item : Type} (Snapshot Update : Item → Prop) : List Item → Prop
  | [] => True
  | first :: rest => Snapshot first ∧ ∀ item ∈ rest, Update item

namespace FeedShape

variable {Item : Type} {Snapshot Update : Item → Prop}

theorem append {items more : List Item} (shape : FeedShape Snapshot Update items)
    (nonempty : items ≠ []) (updates : ∀ item ∈ more, Update item) :
    FeedShape Snapshot Update (items ++ more) := by
  cases items with
  | nil => exact absurd rfl nonempty
  | cons first rest =>
    refine ⟨shape.1, fun item member => ?_⟩
    rcases List.mem_append.mp member with old | new
    · exact shape.2 item old
    · exact updates item new

theorem sublist {first : Item} {items fewer : List Item}
    (shape : FeedShape Snapshot Update (first :: items)) (fewerOf : fewer.Sublist items) :
    FeedShape Snapshot Update (first :: fewer) :=
  ⟨shape.1, fun item member => shape.2 item (fewerOf.subset member)⟩

theorem of_isPrefix {items front : List Item} (shape : FeedShape Snapshot Update items)
    (isPrefix : front <+: items) : FeedShape Snapshot Update front := by
  obtain ⟨more, rfl⟩ := isPrefix
  cases front with
  | nil => trivial
  | cons first rest => exact shape.sublist (List.sublist_append_left rest more)

end FeedShape

/-- The events of a snapshot and then updates. -/
def EventShape : List MarketEvent → Prop :=
  FeedShape (fun event => event.kind = .snapshot) fun event => event.kind = .l2Update

/-- The messages of a snapshot and then updates. -/
def MessageShape : List (CoinbaseMessage × Timestamp) → Prop :=
  FeedShape (fun message => message.1.type = .snapshot) fun message => message.1.type = .l2Update

namespace Pipeline

variable [DoubleDivision]

/-- The events of the messages received, in order. -/
def receivedEvents (p : Pipeline) : List MarketEvent :=
  p.received.flatMap fun message => message.1.events p.tickSize message.2

/-- The events the queue took, followed by those that wait to be pushed. -/
def offeredEvents (p : Pipeline) : List MarketEvent :=
  p.accepted.map Entry.event ++ p.pending

/-- The calls the handled events made on the book. -/
def handledCalls (p : Pipeline) : List BoundedBook.Call :=
  (p.handled.map Entry.event).flatMap fun event => event.calls p.tickSize true

/-- The pipeline under the feed of one connection. -/
structure OneFeed (p : Pipeline) : Prop where
  inOrder : p.InOrder
  unflagged : p.bookInvalidate = false
  offered : p.offeredEvents.Sublist p.receivedEvents
  counted : p.offeredEvents.length + p.queueFullDrops = p.receivedEvents.length
  typed : MessageShape p.received
  shape : EventShape p.offeredEvents
  started : p.received ≠ [] → p.offeredEvents ≠ []
  ready : p.bookReady = decide (p.handled ≠ [])
  book : p.book = p.handledCalls.foldl BoundedBook.call (BoundedBook.fresh bookCapacity)

namespace OneFeed

variable {p : Pipeline}

/-- The first message begins with the snapshot event, and a later one adds updates. -/
theorem shape_receive (feed : OneFeed p) {msg : CoinbaseMessage} (recvTs : Timestamp)
    (next : if p.received = [] then msg.type = .snapshot else msg.type = .l2Update) :
    EventShape (p.offeredEvents ++ msg.events p.tickSize recvTs) ∧
      p.offeredEvents ++ msg.events p.tickSize recvTs ≠ [] := by
  split at next
  · rename_i first
    have none : p.offeredEvents = [] := by
      have nothing := feed.offered
      rw [receivedEvents, first] at nothing
      exact List.sublist_nil.mp nothing
    rw [none, List.nil_append, CoinbaseMessage.events, next]
    exact ⟨⟨rfl, nofun⟩, List.cons_ne_nil _ _⟩
  · rename_i later
    have nonempty := feed.started later
    refine ⟨feed.shape.append nonempty fun event member => ?_, fun none => ?_⟩
    · rw [CoinbaseMessage.events, next] at member
      obtain ⟨l2, -, rfl⟩ := List.mem_map.mp member
      rfl
    · exact nonempty (List.append_eq_nil_iff.mp none).1

/-- A message may be received when nothing of the one before it is pending. -/
theorem receive (feed : OneFeed p) {msg : CoinbaseMessage} (recvTs : Timestamp)
    (idle : p.pending = []) (connected : 0 < p.connection)
    (next : if p.received = [] then msg.type = .snapshot else msg.type = .l2Update) :
    OneFeed { p with
      received := p.received ++ [(msg, recvTs)]
      pending := msg.events p.tickSize recvTs } := by
  have same : p.offeredEvents = p.accepted.map Entry.event := by
    rw [offeredEvents, idle, List.append_nil]
  have grown : p.accepted.map Entry.event ++ msg.events p.tickSize recvTs =
      p.offeredEvents ++ msg.events p.tickSize recvTs := by rw [same]
  have more : (p.received ++ [(msg, recvTs)]).flatMap
        (fun message => message.1.events p.tickSize message.2) =
      p.receivedEvents ++ msg.events p.tickSize recvTs := by
    rw [List.flatMap_append, List.flatMap_singleton]
    rfl
  have begun := feed.shape_receive recvTs next
  have typed : MessageShape (p.received ++ [(msg, recvTs)]) := by
    split at next
    · rename_i first
      rw [first]
      exact ⟨next, nofun⟩
    · rename_i later
      refine feed.typed.append later fun message member => ?_
      rw [List.mem_singleton.mp member]
      exact next
  exact { feed with
    inOrder := feed.inOrder.step (.receive msg recvTs 0 idle connected)
    offered := by
      rw [offeredEvents, receivedEvents, grown, more]
      exact feed.offered.append_right _
    counted := by
      have counted := feed.counted
      rw [offeredEvents, receivedEvents, grown, more, List.length_append, List.length_append]
      dsimp only
      omega
    typed := typed
    shape := by
      rw [offeredEvents, grown]
      exact begun.1
    started := fun _ => by
      rw [offeredEvents, grown]
      exact begun.2 }

/-- A push hands the first pending event on. -/
theorem push (feed : OneFeed p) {event : MarketEvent} {rest : List MarketEvent}
    (waiting : p.pending = event :: rest) (room : p.queue.length < queueCapacity) :
    OneFeed { p with
      pending := rest
      queue := p.queue ++ [⟨p.connection, event⟩]
      accepted := p.accepted ++ [⟨p.connection, event⟩] } := by
  have same : (p.accepted ++ [(⟨p.connection, event⟩ : Entry)]).map Entry.event ++ rest =
      p.offeredEvents := by
    rw [offeredEvents, waiting, List.map_append, List.append_assoc]
    rfl
  exact { feed with
    inOrder := feed.inOrder.step (.push event rest waiting room)
    offered := by
      rw [offeredEvents, same]
      exact feed.offered
    counted := by
      rw [offeredEvents, same]
      exact feed.counted
    shape := by
      rw [offeredEvents, same]
      exact feed.shape
    started := fun begun => by
      rw [offeredEvents, same]
      exact feed.started begun }

/-- A full queue holds the snapshot or something behind it, so what is lost is an update. -/
theorem lose (feed : OneFeed p) {event : MarketEvent} {rest : List MarketEvent}
    (waiting : p.pending = event :: rest) (full : queueCapacity ≤ p.queue.length) :
    OneFeed { p with pending := rest, queueFullDrops := p.queueFullDrops + 1 } := by
  obtain ⟨first, taken, accepted⟩ : ∃ first taken, p.accepted = first :: taken := by
    cases known : p.accepted with
    | cons first taken => exact ⟨first, taken, rfl⟩
    | nil =>
      have fifo := feed.inOrder.fifo
      rw [known] at fifo
      have none := (List.append_eq_nil_iff.mp fifo.symm).2
      rw [none] at full
      exact absurd full (by decide)
  have before : p.offeredEvents = first.event :: (taken.map Entry.event ++ event :: rest) := by
    rw [offeredEvents, waiting, accepted]
    rfl
  have after : p.accepted.map Entry.event ++ rest =
      first.event :: (taken.map Entry.event ++ rest) := by
    rw [accepted]
    rfl
  have fewer : (taken.map Entry.event ++ rest).Sublist (taken.map Entry.event ++ event :: rest) :=
    (List.sublist_cons_self event rest).append_left _
  exact { feed with
    inOrder := feed.inOrder.step (.lose event rest waiting full)
    offered := by
      refine List.Sublist.trans ?_ feed.offered
      rw [offeredEvents, after, before]
      exact fewer.cons_cons _
    counted := by
      have counted := feed.counted
      rw [before] at counted
      show _ + (p.queueFullDrops + 1) = p.receivedEvents.length
      rw [offeredEvents, after]
      simp only [List.length_cons, List.length_append] at counted ⊢
      omega
    shape := by
      rw [offeredEvents, after]
      have shape := feed.shape
      rw [before] at shape
      exact shape.sublist fewer
    started := fun _ => by
      rw [offeredEvents, after]
      exact List.cons_ne_nil _ _ }

/-- The first event handled is the snapshot, so every later one finds the book ready. -/
theorem calls_eq (feed : OneFeed p) {entry : Entry} (held : p.held = some entry) :
    entry.event.calls p.tickSize p.bookReady = entry.event.calls p.tickSize true ∧
      (p.bookReady || decide (entry.event.kind = .snapshot)) = true := by
  cases known : p.handled with
  | cons first rest =>
    rw [feed.ready, known]
    exact ⟨rfl, rfl⟩
  | nil =>
    have snapshot : entry.event.kind = .snapshot := by
      have shape := feed.shape
      rw [offeredEvents, feed.inOrder.fifo, known, held] at shape
      exact shape.1
    refine ⟨?_, ?_⟩
    · rw [MarketEvent.calls, MarketEvent.calls, snapshot]
    · rw [snapshot]
      exact Bool.or_true _

/-- Every step on one connection keeps the feed in order. -/
theorem step (feed : OneFeed p) {action : Action} {after : Pipeline}
    (single : action = .connect → p.connection = 0)
    (next : ∀ msg recvTs parseDone, action = .receive msg recvTs parseDone →
      if p.received = [] then msg.type = .snapshot else msg.type = .l2Update)
    (moved : p.Step action after) : OneFeed after := by
  have inOrder := feed.inOrder.step moved
  cases moved with
  | connect idle =>
    refine { feed with inOrder, unflagged := ?_ }
    dsimp only
    rw [feed.unflagged, single rfl]
    rfl
  | receive msg recvTs parseDone idle connected =>
    exact feed.receive recvTs idle connected (next msg recvTs parseDone rfl)
  | push event rest waiting room => exact feed.push waiting room
  | lose event rest waiting full => exact feed.lose waiting full
  | invalidate flagged free =>
    rw [feed.unflagged] at flagged
    cases flagged
  | pop entry rest free first => exact { feed with inOrder }
  | handle entry clock held =>
    obtain ⟨calls, ready⟩ := feed.calls_eq held
    refine { feed with inOrder, ready := ?_, book := ?_ }
    · dsimp only
      rw [ready]
      simp
    · show _ = List.foldl _ _ (((p.handled ++ [entry]).map Entry.event).flatMap _)
      rw [List.map_append, List.flatMap_append, List.foldl_append, calls, feed.book]
      simp only [handledCalls, List.map_cons, List.map_nil, List.flatMap_singleton]

/-! ### What the book was made from -/

theorem handled_isPrefix (feed : OneFeed p) : p.handled.map Entry.event <+: p.offeredEvents := by
  rw [offeredEvents, feed.inOrder.fifo, List.append_assoc, List.map_append, List.append_assoc]
  exact List.prefix_append _ _

/-- An update at hand comes behind the snapshot. -/
theorem handled_of_update (feed : OneFeed p) {entry : Entry} (held : p.held = some entry)
    (update : entry.event.kind = .l2Update) :
    ∃ snapshot updates, p.handled.map Entry.event = snapshot :: updates ∧
      snapshot.kind = .snapshot := by
  have shape := feed.shape
  rw [offeredEvents, feed.inOrder.fifo, held] at shape
  cases known : p.handled with
  | nil =>
    rw [known] at shape
    have other : entry.event.kind = .snapshot := shape.1
    rw [update] at other
    cases other
  | cons first rest =>
    rw [known] at shape
    exact ⟨first.event, rest.map Entry.event, rfl, shape.1⟩

/-- With no event lost, what was handled is where the feed began. -/
theorem offered_eq (feed : OneFeed p) (kept : p.queueFullDrops = 0) :
    p.offeredEvents = p.receivedEvents := by
  refine feed.offered.eq_of_length ?_
  rw [← feed.counted, kept]
  rfl

/-- The book is the snapshot and every change handled after it. -/
theorem book_eq (feed : OneFeed p) {snapshot : MarketEvent} {updates : List MarketEvent}
    (handled : p.handled.map Entry.event = snapshot :: updates) :
    p.book = (snapshot.snap.calls ++
      changeCalls p.tickSize (updates.flatMap fun event => event.l2.changes)).foldl
        BoundedBook.call (BoundedBook.fresh bookCapacity) := by
  have shape := feed.shape.of_isPrefix feed.handled_isPrefix
  rw [handled] at shape
  have snapshotCalls : snapshot.calls p.tickSize true = snapshot.snap.calls := by
    rw [MarketEvent.calls, shape.1]
  have updateCalls : (updates.flatMap fun event => event.calls p.tickSize true) =
      changeCalls p.tickSize (updates.flatMap fun event => event.l2.changes) := by
    rw [changeCalls, List.map_flatMap]
    refine List.flatMap_congr fun event member => ?_
    rw [MarketEvent.calls, shape.2 event member]
    rfl
  rw [feed.book, handledCalls, handled, List.flatMap_cons, snapshotCalls, updateCalls]

end OneFeed

end Pipeline

theorem System.oneFeed [DoubleDivision] {cfg : RuntimeConfig} {s : System}
    (reached : Reaches System.step System.OneConnection (System.initial cfg) s) :
    s.pipeline.OneFeed := by
  refine System.reaches_pipeline Pipeline.OneFeed ?_ ?_ reached
  · exact {
      inOrder := ⟨rfl, rfl, nofun⟩
      unflagged := rfl
      offered := List.Sublist.slnil
      counted := rfl
      typed := trivial
      shape := trivial
      started := fun begun => absurd rfl begun
      ready := rfl
      book := rfl }
  · intro s action after feed permitted moved
    refine feed.step ?_ ?_ moved
    · rintro rfl
      exact permitted
    · rintro msg recvTs parseDone rfl
      exact permitted

/-- No step changes the tick size. -/
theorem System.tickSize_eq [DoubleDivision] {allowed : System → Action → Prop}
    {cfg : RuntimeConfig} {s : System}
    (reached : Reaches System.step allowed (System.initial cfg) s) :
    s.rt.cfg.tickSize = cfg.tickSize := by
  refine System.reaches_pipeline (fun p => p.tickSize = cfg.tickSize) rfl ?_ reached
  intro s action after same permitted moved
  cases moved <;> exact same

namespace System

/-- In every interleaving on one connection, the strategy is evaluated on a book that is the
snapshot and the changes of exactly those events the queue took up to the update at hand. They
are a subsequence of the feed, each event missing from it is counted, and as long as the count
is zero they are the feed up to and including the update. -/
theorem handle_update_applies_accepted [DoubleDivision] (cfg : RuntimeConfig) (s : System)
    (reached : Reaches step OneConnection (initial cfg) s) (entry : Entry) (drained : Bool)
    (handling : s.strategy = .handling entry drained) (update : entry.event.kind = .l2Update)
    (clock : EventClock) :
    s.rt.bookReady = true ∧ ∃ snapshot updates,
      s.handled.map Entry.event = snapshot :: updates ∧ snapshot.kind = .snapshot ∧
      (s.rt.processEvent clock entry.event).book =
        (snapshot.snap.calls ++ changeCalls cfg.tickSize
          ((updates ++ [entry.event]).flatMap fun event => event.l2.changes)).foldl
            BoundedBook.call (BoundedBook.fresh bookCapacity) ∧
      s.accepted.map Entry.event =
        snapshot :: updates ++ entry.event :: s.queue.map Entry.event ∧
      s.pipeline.offeredEvents.Sublist s.pipeline.receivedEvents ∧
      s.pipeline.offeredEvents.length + s.rt.metrics.queueFullDrops =
        s.pipeline.receivedEvents.length ∧
      (s.rt.metrics.queueFullDrops = 0 →
        snapshot :: updates ++ [entry.event] <+: s.pipeline.receivedEvents) := by
  have feed := oneFeed reached
  obtain ⟨snapshot, updates, handled, kind⟩ :=
    feed.handled_of_update (pipeline_held handling) update
  have events : s.handled.map Entry.event = snapshot :: updates := handled
  have accepted : s.accepted.map Entry.event =
      snapshot :: updates ++ entry.event :: s.queue.map Entry.event := by
    rw [accepted_of_handling reached handling, List.map_append, events, List.map_cons]
  have next : Reaches step OneConnection (initial cfg) (s.handle entry drained clock) :=
    reached.next (.handle clock) trivial (by rw [step, handling])
  have applied : (s.handle entry drained clock).handled.map Entry.event =
      snapshot :: (updates ++ [entry.event]) := by
    rw [handle, List.map_append, events]
    rfl
  refine ⟨?_, snapshot, updates, events, kind, ?_, accepted, feed.offered, feed.counted,
    fun kept => ?_⟩
  · refine feed.ready.trans (decide_eq_true fun none => ?_)
    rw [none] at handled
    cases handled
  · have book := (oneFeed next).book_eq applied
    rw [show (s.handle entry drained clock).pipeline.tickSize = cfg.tickSize from
      tickSize_eq next] at book
    exact book
  · rw [← feed.offered_eq kept, Pipeline.offeredEvents]
    exact ⟨s.queue.map Entry.event ++ s.pipeline.pending, by
      rw [show s.pipeline.accepted.map Entry.event = _ from accepted]; simp⟩

/-- The snapshot and one update, with nothing lost. -/
theorem handle_update_applies_accepted_lift :
    ∃ s, Reaches step OneConnection (initial {}) s ∧
      s.strategy = .handling ⟨1, liftEvent 7⟩ false ∧ s.rt.bookReady = true ∧
      s.handled.map Entry.event ++ [liftEvent 7] <+: s.pipeline.receivedEvents := by
  obtain ⟨rt, reached, -, -, drops, -⟩ := reaches_quoted
  obtain ⟨after, kept, pushed⟩ := reaches_pushed reached rfl rfl
    (oneConnection_update (List.cons_ne_nil _ _) rfl 7 7) (liftMessage_events _ 7)
    (Nat.zero_lt_succ 4095)
  have handling := reaches_handling pushed rfl rfl rfl rfl
  obtain ⟨ready, snapshot, updates, handled, -, -, -, -, -, whole⟩ :=
    handle_update_applies_accepted {} _ handling ⟨1, liftEvent 7⟩ false rfl rfl ⟨1, 2, 3, 4, 5, 6⟩
  refine ⟨_, handling, rfl, ready, ?_⟩
  rw [handled]
  exact whole (kept.queueFullDrops.trans drops)

/-- An update of an ask the snapshot does not have. -/
def missedMessage : CoinbaseMessage := ⟨.l2Update, [], [], [⟨.ask, 203 / 2, 1⟩]⟩

/-- The event of the message that finds the queue full. -/
def missedEvent : MarketEvent :=
  { MarketEvent.empty with
    kind := .l2Update, recvNs := 9, l2 := MarketEvent.L2.empty.fill missedMessage.changes }

theorem missed_not_lifted (recvTs : Timestamp) :
    ∀ change ∈ missedMessage.changes, change ∉ (liftEvent recvTs).l2.changes := by
  show ∀ change ∈ _, change ∉ (MarketEvent.L2.empty.fill liftMessage.changes).changes
  rw [MarketEvent.L2.changes_fill]
  decide +kernel

/-- The queue is full when an update arrives, so it is lost; once the strategy thread has caught
up, the next update is applied to a book that never saw the lost one. -/
theorem update_applied_after_loss :
    ∃ s, Reaches step OneConnection (initial {}) s ∧
      s.strategy = .handling ⟨1, liftEvent 11⟩ false ∧ s.rt.bookReady = true ∧
      (∃ before, s.received = before ++ [(missedMessage, 9), (liftMessage, 11)]) ∧
      s.pipeline.pending = [] ∧
      ∀ entry ∈ s.accepted, ∀ change ∈ missedMessage.changes,
        change ∉ entry.event.l2.changes := by
  obtain ⟨rt, reached, -, ready, -, -⟩ := reaches_quoted
  obtain ⟨filledRt, filledKept, filled⟩ := reaches_filled reached rfl rfl (List.cons_ne_nil _ _)
    queueCapacity (Nat.le_of_eq (Nat.zero_add _))
  have begun : (quoted rt).received ++ List.replicate queueCapacity (liftMessage, 7) ≠ [] :=
    List.cons_ne_nil _ _
  have full : queueCapacity ≤ ((quoted rt).queue ++
      List.replicate queueCapacity (⟨1, liftEvent 7⟩ : Entry)).length := by
    rw [List.length_append, List.length_replicate]
    exact Nat.le_add_left _ _
  obtain ⟨lostRt, lostReady, lost⟩ := reaches_lost filled rfl rfl
    (oneConnection_update begun rfl 9 9) (show missedMessage.events _ 9 = [missedEvent] from rfl)
    rfl full
  obtain ⟨drainedRt, rebuiltFrom, drainedReady, -, drained⟩ := reaches_drained lost rfl rfl rfl
    (List.append_nil _).symm
  have stillReady := drainedReady (lostReady.trans (filledKept.bookReady.trans ready))
  obtain ⟨lateRt, lateKept, late⟩ := reaches_pushed drained rfl rfl
    (oneConnection_update (List.cons_ne_nil _ _) rfl 11 11) (liftMessage_events _ 11)
    (Nat.zero_lt_succ 4095)
  refine ⟨_, reaches_handling late rfl rfl rfl rfl, rfl, lateKept.bookReady.trans stillReady,
    ⟨_, List.append_assoc _ [_] [_]⟩, rfl, ?_⟩
  intro entry member
  rcases List.mem_append.mp member with early | last
  · rcases List.mem_append.mp early with first | filling
    · obtain rfl := List.mem_singleton.mp first
      decide +kernel
    · rw [List.eq_of_mem_replicate filling]
      exact missed_not_lifted 7
  · rw [List.mem_singleton.mp last]
    exact missed_not_lifted 11

end System

end Trading
