/-
This file compares the chunks of a long update with the update as a whole.

The chunks are the slices of the message's changes, the last one not more and not less, and
they are what the network thread pushes. On a ready book, handling them comes to applying
every change of the message; before a snapshot they are dropped like any update.

For the strategy a chunk is an event like any other. It is evaluated after each of them, on
the changes so far, so that a message of more than one chunk is not one update to it.
-/

import TradingEngine.Divisors
import TradingEngine.Lib.Slices
import TradingEngine.Pipeline

namespace Trading

open Slices (slices)

/-! ### The events of an update -/

namespace CoinbaseMessage

variable [DoubleDivision] {msg : CoinbaseMessage}

theorem kind_of_update (update : msg.type = .l2Update) {tickSize : ℚ} {recvTs : Timestamp}
    {event : MarketEvent} (member : event ∈ msg.events tickSize recvTs) :
    event.kind = .l2Update ∧ event.recvNs = recvTs := by
  rw [events, update] at member
  obtain ⟨l2, -, rfl⟩ := List.mem_map.mp member
  exact ⟨rfl, rfl⟩

/-- The events of an update carry the slices of its changes. -/
theorem events_update (update : msg.type = .l2Update) (tickSize : ℚ) (recvTs : Timestamp) :
    (msg.events tickSize recvTs).map (fun event => event.l2.changes) =
      slices maxL2Changes msg.changes := by
  rw [events, update, ← MarketEvent.L2.chunks_eq]
  rw [List.map_map]
  rfl

theorem length_events_update (update : msg.type = .l2Update) (tickSize : ℚ) (recvTs : Timestamp) :
    (msg.events tickSize recvTs).length = max 1 (msg.changes.length ⌈/⌉ maxL2Changes) := by
  have length := congrArg List.length (events_update update tickSize recvTs)
  rw [List.length_map, Slices.length_slices] at length
  exact length

/-- An update that fits one event is one event, with all of its changes. -/
theorem events_of_le (update : msg.type = .l2Update) (short : msg.changes.length ≤ maxL2Changes)
    (tickSize : ℚ) (recvTs : Timestamp) :
    ∃ event, msg.events tickSize recvTs = [event] ∧ event.kind = .l2Update ∧
      event.recvNs = recvTs ∧ event.l2.changes = msg.changes := by
  have carried := events_update update tickSize recvTs
  rw [Slices.slices_of_le MarketEvent.maxL2Changes_pos short] at carried
  obtain ⟨event, alone, changes⟩ := List.map_eq_singleton_iff.mp carried
  obtain ⟨kind, received⟩ := kind_of_update update (alone ▸ List.mem_singleton_self event)
  exact ⟨event, alone, kind, received, changes⟩

end CoinbaseMessage

theorem MarketEvent.L2.length_changes (l2 : MarketEvent.L2) : l2.changes.length = l2.nChanges := by
  rw [changes, List.length_map, List.length_range]

/-! ### Pushing them -/

namespace System

open Transition

/-- A step of any thread but the start of a further message. -/
def NoReceive (_ : System) (action : Action) : Prop :=
  ∀ msg recvTs parseDone, action ≠ .receive msg recvTs parseDone

/-- What the queue took before and since, followed by what waits to be pushed, as long as no push
failed. -/
structure Offering (drops : Nat) (offered : List MarketEvent) (p : Pipeline) : Prop where
  least : drops ≤ p.queueFullDrops
  events : p.queueFullDrops = drops → p.accepted.map Entry.event ++ p.pending = offered

/-- Until the next message comes, what was made of this one is pushed or dropped in order. -/
theorem Offering.step [DoubleDivision] {drops : Nat} {offered : List MarketEvent}
    {p after : Pipeline} {action : Action} (offering : Offering drops offered p)
    (later : ∀ msg recvTs parseDone, action ≠ .receive msg recvTs parseDone)
    (step : p.Step action after) : Offering drops offered after := by
  obtain ⟨least, events⟩ := offering
  cases step with
  | connect idle => exact ⟨least, events⟩
  | receive msg recvTs parseDone idle connected => exact absurd rfl (later msg recvTs parseDone)
  | push event rest waiting room =>
    refine ⟨least, fun none => ?_⟩
    rw [← events none, waiting, List.map_append, List.append_assoc]
    rfl
  | lose event rest waiting full =>
    exact ⟨Nat.le_succ_of_le least, fun none => absurd none (by dsimp only; omega)⟩
  | invalidate flagged free => exact ⟨least, events⟩
  | pop entry rest free first => exact ⟨least, events⟩
  | handle entry clock held => exact ⟨least, events⟩

/-- From the start of a message on, in every interleaving and until the next message: if no push
has failed, the queue has taken the events of the message, but for those still to be pushed. -/
theorem accepted_receive [DoubleDivision] {s : System} (reading : s.network = .reading)
    (connected : 0 < s.connection) (msg : CoinbaseMessage) (recvTs parseDone : Timestamp)
    {after : System} (reached : Reaches step NoReceive (s.receive msg recvTs parseDone) after)
    (none : after.rt.metrics.queueFullDrops = s.rt.metrics.queueFullDrops) :
    after.accepted.map Entry.event ++ after.pipeline.pending =
      s.accepted.map Entry.event ++ msg.events s.rt.cfg.tickSize recvTs := by
  have start : Offering s.rt.metrics.queueFullDrops
      (s.accepted.map Entry.event ++ msg.events s.rt.cfg.tickSize recvTs)
      (s.receive msg recvTs parseDone).pipeline := by
    generalize received : (s.receive msg recvTs parseDone).pipeline = next
    have step := receive_pipeline reading connected msg recvTs parseDone
    rw [received] at step
    cases step
    exact ⟨le_rfl, fun _ => rfl⟩
  have dialed : (s.receive msg recvTs parseDone).Dialed :=
    Dialed.of_connection (by rw [receive_connection]; exact connected)
  have invariant := @Reaches.invariant _ _ step NoReceive _
    (fun s' => s'.Dialed ∧ Offering s.rt.metrics.queueFullDrops
      (s.accepted.map Entry.event ++ msg.events s.rt.cfg.tickSize recvTs) s'.pipeline)
    ⟨dialed, start⟩ (fun before action next holds permitted stepped => ?_) after reached
  · exact invariant.2.events none
  · refine ⟨holds.1.step stepped, ?_⟩
    rcases step_pipeline holds.1 stepped with same | moved
    · rw [same]
      exact holds.2
    · exact holds.2.step permitted moved

end System

/-! ### Handling them -/

namespace Runtime

/-- Handle events one after another, each at its own clock readings. -/
def handle [DoubleDivision] (rt : Runtime) (handled : List (EventClock × MarketEvent)) : Runtime :=
  handled.foldl (fun rt next => rt.processEvent next.1 next.2) rt

/-- The orders handed to `dispatchOrder` on the way. -/
def ordersOf (rt : Runtime) : List (EventClock × MarketEvent) → List NewOrder
  | [] => []
  | next :: rest =>
    (rt.sentOrder next.1 next.2).toList ++ (rt.processEvent next.1 next.2).ordersOf rest

/-- The books the strategy is evaluated on, on the way. -/
def evaluatedOn (rt : Runtime) :
    List (EventClock × MarketEvent) → List (BoundedBook bookCapacity)
  | [] => []
  | next :: rest =>
    ((rt.withBook next.2).map Runtime.book).toList ++
      (rt.processEvent next.1 next.2).evaluatedOn rest

/-- An update handled as one event, had an event room for all its changes. -/
def processBatch (rt : Runtime) (clock : EventClock) (recvNs : Timestamp)
    (changes : List CoinbaseChange) : Runtime :=
  if !rt.bookReady then rt.countMessage.dropUpdate
  else
    evaluate { rt.countMessage with book := rt.book.applyChanges rt.cfg.tickSize changes } clock
      recvNs

/-- The order handed to `dispatchOrder` then. -/
def batchOrder (rt : Runtime) (clock : EventClock) (changes : List CoinbaseChange) :
    Option NewOrder :=
  if rt.bookReady then
    orderOn { rt.countMessage with book := rt.book.applyChanges rt.cfg.tickSize changes } clock
  else none

section Update

variable {rt : Runtime} {clock : EventClock} {event : MarketEvent}

theorem processEvent_update (update : event.kind = .l2Update) :
    rt.processEvent clock event = rt.processBatch clock event.recvNs event.l2.changes := by
  unfold processEvent
  rw [update]
  rfl

theorem sentOrder_update (update : event.kind = .l2Update) :
    rt.sentOrder clock event = rt.batchOrder clock event.l2.changes := by
  unfold sentOrder withBook batchOrder
  rw [update]
  dsimp only
  split <;> rfl

/-- An update changes a ready book, and no other. -/
theorem processEvent_update_book [DoubleDivision] (update : event.kind = .l2Update) :
    (rt.processEvent clock event).book =
      if rt.bookReady then rt.book.applyChanges rt.cfg.tickSize event.l2.changes else rt.book := by
  rw [processEvent_book, MarketEvent.calls, update, BoundedBook.applyChanges_eq]
  dsimp only
  split <;> rfl

theorem processEvent_update_bookReady [DoubleDivision] (update : event.kind = .l2Update) :
    (rt.processEvent clock event).bookReady = rt.bookReady := by
  rw [processEvent_bookReady, update]
  exact Bool.or_false _

/-- An update changes the book if it is ready, and is left aside if not. -/
theorem withBook_update (update : event.kind = .l2Update) :
    (rt.withBook event).map Runtime.book =
      if rt.bookReady then some (rt.book.applyChanges rt.cfg.tickSize event.l2.changes)
      else none := by
  unfold withBook
  rw [update]
  dsimp only
  split <;> rfl

end Update

section Updates

variable {rt : Runtime} {handled : List (EventClock × MarketEvent)}

/-- Changes are applied one after another, wherever they are cut. -/
theorem applyChanges_append [DoubleDivision] {capacity : Nat} (book : BoundedBook capacity)
    (tickSize : ℚ) (first second : List CoinbaseChange) :
    book.applyChanges tickSize (first ++ second) =
      (book.applyChanges tickSize first).applyChanges tickSize second :=
  List.foldl_append

/-- Updates come to all their changes on a ready book, and to nothing on another. -/
theorem handle_book [DoubleDivision] (updates : ∀ next ∈ handled, next.2.kind = .l2Update) :
    (rt.handle handled).book =
      if rt.bookReady then
        rt.book.applyChanges rt.cfg.tickSize (handled.flatMap fun next => next.2.l2.changes)
      else rt.book := by
  induction handled generalizing rt with
  | nil => exact (ite_self _).symm
  | cons next rest inductionHypothesis =>
    obtain ⟨update, others⟩ := List.forall_mem_cons.mp updates
    show ((rt.processEvent next.1 next.2).handle rest).book = _
    rw [inductionHypothesis others, processEvent_update_bookReady update, processEvent_cfg,
      processEvent_update_book update, List.flatMap_cons, applyChanges_append]
    split <;> rfl

/-- On a ready book the strategy is evaluated after each update, on the changes so far. -/
theorem evaluatedOn_ready (updates : ∀ next ∈ handled, next.2.kind = .l2Update)
    (ready : rt.bookReady = true) :
    rt.evaluatedOn handled = (List.range handled.length).map fun k =>
      rt.book.applyChanges rt.cfg.tickSize
        ((handled.take (k + 1)).flatMap fun next => next.2.l2.changes) := by
  induction handled generalizing rt with
  | nil => rfl
  | cons next rest inductionHypothesis =>
    obtain ⟨update, others⟩ := List.forall_mem_cons.mp updates
    have still : (rt.processEvent next.1 next.2).bookReady = true :=
      (processEvent_update_bookReady update).trans ready
    rw [evaluatedOn, withBook_update update, if_pos ready, inductionHypothesis others still,
      processEvent_cfg, processEvent_update_book update, if_pos ready, List.length_cons,
      List.range_succ_eq_map, List.map_cons, List.map_map]
    refine congrArg₂ List.cons ?_ (List.map_congr_left fun k _ => ?_)
    · show _ = rt.book.applyChanges rt.cfg.tickSize (next.2.l2.changes ++ [])
      rw [List.append_nil]
    · exact (applyChanges_append _ _ _ _).symm

/-- Before a snapshot updates leave the strategy alone and send nothing. -/
theorem handle_unready (updates : ∀ next ∈ handled, next.2.kind = .l2Update)
    (unready : rt.bookReady = false) :
    (rt.handle handled).strategy = rt.strategy ∧ rt.ordersOf handled = [] ∧
      rt.evaluatedOn handled = [] := by
  induction handled generalizing rt with
  | nil => exact ⟨rfl, rfl, rfl⟩
  | cons next rest inductionHypothesis =>
    obtain ⟨update, others⟩ := List.forall_mem_cons.mp updates
    have still : (rt.processEvent next.1 next.2).bookReady = false :=
      (processEvent_update_bookReady update).trans unready
    obtain ⟨strategy, orders, books⟩ := inductionHypothesis others still
    have dropped : (rt.processEvent next.1 next.2).strategy = rt.strategy := by
      rw [processEvent_update update, processBatch, unready]
      rfl
    refine ⟨strategy.trans dropped, ?_, ?_⟩
    · rw [ordersOf, sentOrder_update update, batchOrder, unready, orders]
      rfl
    · rw [evaluatedOn, withBook_update update, unready, books]
      rfl

end Updates

end Runtime

/-! ### A message as a whole -/

namespace CoinbaseMessage

/-- An update of any number of changes is turned into `max 1 ⌈n / 128⌉` events of at most 128
changes each that carry exactly its changes in order, and these are what the queue takes if no
push fails. Handling them one after another leaves a ready book as applying all the changes does,
and leaves a book that is not ready as it is. -/
theorem update_chunked [DoubleDivision] (s : System) (reading : s.network = .reading)
    (connected : 0 < s.connection) (msg : CoinbaseMessage) (update : msg.type = .l2Update)
    (recvTs parseDone : Timestamp) :
    let events := msg.events s.rt.cfg.tickSize recvTs
    (∀ event ∈ events, event.kind = .l2Update ∧ event.l2.changes.length ≤ 128) ∧
    events.flatMap (fun event => event.l2.changes) = msg.changes ∧
    events.length = max 1 (msg.changes.length ⌈/⌉ 128) ∧
    (∀ after, Transition.Reaches System.step System.NoReceive (s.receive msg recvTs parseDone)
        after → after.rt.metrics.queueFullDrops = s.rt.metrics.queueFullDrops →
      after.accepted.map Entry.event ++ after.pipeline.pending =
        s.accepted.map Entry.event ++ events) ∧
    ∀ (rt : Runtime) (handled : List (EventClock × MarketEvent)),
      handled.map Prod.snd = events →
      (rt.bookReady = true →
        (rt.handle handled).book = rt.book.applyChanges rt.cfg.tickSize msg.changes) ∧
      (rt.bookReady = false → (rt.handle handled).book = rt.book) := by
  intro events
  have carried : events.flatMap (fun event => event.l2.changes) = msg.changes := by
    rw [List.flatMap_def, events_update update,
      Slices.flatten_slices MarketEvent.maxL2Changes_pos]
  refine ⟨fun event member => ⟨(kind_of_update update member).1, ?_⟩, carried,
    length_events_update update _ _, fun after reached none => ?_, fun rt handled same => ?_⟩
  · rw [MarketEvent.L2.length_changes]
    exact event.l2.nChanges_le
  · exact System.accepted_receive reading connected msg recvTs parseDone reached none
  · have updates : ∀ next ∈ handled, next.2.kind = .l2Update := fun next member =>
      (kind_of_update update (same ▸ List.mem_map_of_mem member)).1
    have changes : handled.flatMap (fun next => next.2.l2.changes) = msg.changes := by
      rw [← carried, ← same, List.flatMap_map]
    rw [Runtime.handle_book updates, changes]
    exact ⟨fun ready => if_pos ready, fun unready => by rw [unready]; rfl⟩

/-- An update of 129 changes, each of which takes away a level that is not there. -/
def quietMessage : CoinbaseMessage :=
  ⟨.l2Update, [], [], List.replicate 129 ⟨.bid, 9999 / 100, 0⟩⟩

theorem length_quietMessage : quietMessage.changes.length = 129 := List.length_replicate

/-- One change more than an event holds makes a second event. -/
theorem update_chunked_quietMessage : (quietMessage.events (1 / 100) 0).length = 2 := by
  obtain ⟨-, -, length, -⟩ := update_chunked
    { System.initial {} with network := .reading, connection := 1 } rfl (by decide) quietMessage
    rfl 0 0
  rw [length_quietMessage] at length
  exact length

/-- The clock of an event handled at time zero. -/
def zeroClock : EventClock := ⟨0, 0, 0, 0, 0, 0⟩

/-- Before a snapshot an update does not reach the book. -/
theorem unready_book_unchanged :
    let rt := Runtime.create {}
    let msg : CoinbaseMessage := ⟨.l2Update, [], [], [⟨.bid, 100, 1⟩]⟩
    let handled := (msg.events rt.cfg.tickSize 0).map (Prod.mk zeroClock)
    (rt.handle handled).book = rt.book ∧
      (rt.handle handled).book ≠ rt.book.applyChanges rt.cfg.tickSize msg.changes := by
  intro rt msg handled
  have updates : ∀ next ∈ handled, next.2.kind = .l2Update := by
    intro next member
    obtain ⟨event, listed, rfl⟩ := List.mem_map.mp member
    exact (kind_of_update (show msg.type = .l2Update from rfl) listed).1
  have same : (rt.handle handled).book = rt.book := Runtime.handle_book updates
  refine ⟨same, fun applied => ?_⟩
  have anchored := rt.book.update_haveRef .bid (Price.fromDouble 100 rt.cfg.tickSize) ⟨1⟩
  rw [same] at applied
  rw [show rt.book.update .bid (Price.fromDouble 100 rt.cfg.tickSize) ⟨1⟩ = rt.book from
    applied.symm] at anchored
  exact absurd anchored (by decide)

end CoinbaseMessage

/-! ### The strategy between two chunks -/

namespace Runtime

open CoinbaseMessage (quietMessage zeroClock)

variable {rt : Runtime} {clock : EventClock} {recvTs : Timestamp} {msg : CoinbaseMessage}

/-- The chunks of an update are handled as an update each. -/
theorem handle_chunks (update : msg.type = .l2Update) (tickSize : ℚ) :
    rt.handle ((msg.events tickSize recvTs).map (Prod.mk clock)) =
      (slices maxL2Changes msg.changes).foldl
        (fun rt slice => rt.processBatch clock recvTs slice) rt := by
  rw [← CoinbaseMessage.events_update update tickSize recvTs, List.foldl_map, handle,
    List.foldl_map]
  refine List.foldl_ext _ _ _ fun rt event member => ?_
  obtain ⟨kind, received⟩ := CoinbaseMessage.kind_of_update update member
  rw [processEvent_update kind, received]

/-- The book of the snapshot after some of the quiet changes. -/
def quietBook (count : Nat) : BoundedBook bookCapacity :=
  ((BoundedBook.fresh bookCapacity).applySnapshot entryQuote.2.snap).applyChanges (1 / 100)
    (quietMessage.changes.take count)

/-- The calls of the snapshot and of the first changes of the message behind it. -/
def quietCalls (count : Nat) : List BoundedBook.Call :=
  entryQuote.2.snap.calls.tail ++ changeCalls (1 / 100) (quietMessage.changes.take count)

/-- The quiet changes leave the imbalance of the snapshot as it is. -/
theorem imbalanceOf_quietBook {strategy : ImbalanceStrategy}
    (levels : strategy.params.depthLevels = 5) (tickSize : strategy.tickSize = 1 / 100)
    {count : Nat} (few : count ∈ [0, 128, 129]) :
    strategy.imbalanceOf (quietBook count) = some (9 / 11) := by
  have inside : ∀ count ∈ [0, 128, 129], ∀ call ∈ quietCalls count,
      BoundedBook.Call.InBand bookCapacity 9000 call := by
    decide +kernel
  have bids : ∀ count ∈ [0, 128, 129],
      ((quietCalls count).foldl ReferenceBook.call ReferenceBook.empty).levels .bid =
        [⟨⟨10000⟩, ⟨1000⟩⟩] := by
    decide +kernel
  have asks : ∀ count ∈ [0, 128, 129],
      ((quietCalls count).foldl ReferenceBook.call ReferenceBook.empty).levels .ask =
        [⟨⟨10001⟩, ⟨100⟩⟩] := by
    decide +kernel
  have depth : ∀ side n, (quietBook count).depth side n =
      (((quietCalls count).foldl ReferenceBook.call ReferenceBook.empty).levels side).take n := by
    rw [quietBook, BoundedBook.applyChanges_eq]
    exact depth_rebuilt _ (inside count few)
  unfold ImbalanceStrategy.imbalanceOf
  rw [depth, depth, bids count few, asks count few, levels, tickSize]
  decide +kernel

/-- A runtime on the book of the snapshot and some of the quiet changes, with room for more
samples. -/
structure Quoting (count samples : Nat) (rt : Runtime) : Prop where
  ready : rt.bookReady = true
  cfg : rt.cfg = {}
  book : rt.book = quietBook count
  params : rt.strategy.params = {}
  tickSize : rt.strategy.tickSize = 1 / 100
  samples : rt.strategy.rollingCount = samples

/-- Each evaluation is a sample. -/
theorem Quoting.evaluate {count samples : Nat} (quoting : Quoting count samples rt)
    (room : samples < 5) (few : count ∈ [0, 128, 129]) :
    Quoting count (samples + 1) (rt.evaluate clock recvTs) := by
  have keeps := evaluate_keepsMarket rt clock recvTs
  have found : rt.strategy.imbalanceOf rt.book = some (9 / 11) := by
    rw [quoting.book]
    exact imbalanceOf_quietBook (by rw [quoting.params]) quoting.tickSize few
  rcases evaluate_ring rt clock recvTs with ⟨unread, -⟩ | ⟨imbalance, -, recorded⟩
  · cases found.symm.trans unread
  · refine ⟨keeps.bookReady.trans quoting.ready, keeps.cfg.trans quoting.cfg,
      keeps.book.trans quoting.book, recorded.params.trans quoting.params,
      recorded.tickSize.trans quoting.tickSize, ?_⟩
    have window : rt.strategy.rollingCount < rt.strategy.params.smoothingWindow := by
      rw [quoting.samples, quoting.params]
      exact room
    rw [recorded.rollingCount, ← quoting.samples]
    exact if_pos window

/-- A quiet batch adds one sample and no order. -/
theorem Quoting.processBatch {count samples more : Nat} {changes : List CoinbaseChange}
    (quoting : Quoting count samples rt) (room : samples < 5) (few : more ∈ [0, 128, 129])
    (next : quietMessage.changes.take more = quietMessage.changes.take count ++ changes) :
    Quoting more (samples + 1) (rt.processBatch clock recvTs changes) := by
  have applied : rt.book.applyChanges rt.cfg.tickSize changes = quietBook more := by
    rw [quoting.book, quoting.cfg, quietBook, quietBook, next, applyChanges_append]
  have changed : Quoting more samples { rt.countMessage with
      book := rt.book.applyChanges rt.cfg.tickSize changes } :=
    ⟨quoting.ready, quoting.cfg, applied, quoting.params, quoting.tickSize, quoting.samples⟩
  unfold Runtime.processBatch
  rw [quoting.ready]
  exact changed.evaluate room few

/-- A fresh runtime after the snapshot. -/
def quoted : Runtime := (create {}).processEvent entryQuote.1 entryQuote.2

theorem quoted_quoting : Quoting 0 1 quoted := by
  have strategy := create_strategy default_valid.symbolId
  have cfg : (create {}).cfg = {} := rfl
  have book : (create {}).book = BoundedBook.fresh bookCapacity := rfl
  unfold quoted
  generalize create {} = rt at strategy cfg book ⊢
  have rebuilt : ∀ snap, (rt.countMessage.rebuildBook snap).book = rt.book.applySnapshot snap ∧
      (rt.countMessage.rebuildBook snap).bookReady = true := fun _ => ⟨rfl, rfl⟩
  have first : rt.book.applySnapshot entryQuote.2.snap = quietBook 0 := by
    rw [quietBook, List.take_zero, book, BoundedBook.applyChanges, List.foldl_nil]
  have found : rt.withBook entryQuote.2 =
      some (rt.countMessage.rebuildBook entryQuote.2.snap) := by
    unfold withBook
    rw [show entryQuote.2.kind = .snapshot from rfl]
  obtain ⟨sameCfg, -, counted⟩ := withBook_keeps found
  have same := congrArg Desk.strategy counted
  have quoting : Quoting 0 0 (rt.countMessage.rebuildBook entryQuote.2.snap) := by
    generalize entryQuote.2.snap = snap at *
    refine ⟨(rebuilt snap).2, sameCfg.trans cfg, (rebuilt snap).1.trans first, ?_, ?_, ?_⟩
    · exact congrArg ImbalanceStrategy.params (same.trans strategy)
    · exact congrArg ImbalanceStrategy.tickSize (same.trans strategy)
    · exact congrArg ImbalanceStrategy.rollingCount (same.trans strategy)
  rw [processEvent_of_withBook found]
  exact quoting.evaluate (by decide) (by decide)

/-- Chunk by chunk: an update of at most one chunk, or on a book that is not ready, leaves the
strategy and sends the orders as an event with room for all its changes would. The chunks of a
longer one are handled as an update each: on a ready book the strategy is evaluated after every
128 changes on the book with all the changes so far, and last on the book with all of them. -/
theorem chunks_evaluated (rt : Runtime) (clock : EventClock) (msg : CoinbaseMessage)
    (update : msg.type = .l2Update) (recvTs : Timestamp) :
    let handled := (msg.events rt.cfg.tickSize recvTs).map (Prod.mk clock)
    (msg.changes.length ≤ 128 ∨ rt.bookReady = false →
      (rt.handle handled).strategy = (rt.processBatch clock recvTs msg.changes).strategy ∧
      rt.ordersOf handled = (rt.batchOrder clock msg.changes).toList) ∧
    rt.handle handled = (slices 128 msg.changes).foldl
      (fun rt slice => rt.processBatch clock recvTs slice) rt ∧
    (rt.bookReady = false → rt.evaluatedOn handled = []) ∧
    (rt.bookReady = true →
      rt.evaluatedOn handled = (List.range (max 1 (msg.changes.length ⌈/⌉ 128))).map fun k =>
        rt.book.applyChanges rt.cfg.tickSize (msg.changes.take (128 * (k + 1)))) ∧
    (rt.bookReady = true → (rt.evaluatedOn handled).getLast? =
      some (rt.book.applyChanges rt.cfg.tickSize msg.changes)) := by
  intro handled
  have updates : ∀ next ∈ handled, next.2.kind = .l2Update := by
    intro next member
    obtain ⟨event, listed, rfl⟩ := List.mem_map.mp member
    exact (CoinbaseMessage.kind_of_update update listed).1
  have chunks : rt.handle handled = _ := handle_chunks update rt.cfg.tickSize
  have books : rt.bookReady = true → rt.evaluatedOn handled =
      (List.range (max 1 (msg.changes.length ⌈/⌉ 128))).map fun k =>
        rt.book.applyChanges rt.cfg.tickSize (msg.changes.take (128 * (k + 1))) := by
    intro ready
    rw [evaluatedOn_ready updates ready, List.length_map,
      CoinbaseMessage.length_events_update update]
    refine List.map_congr_left fun k _ => ?_
    have taken := Slices.flatten_take_slices MarketEvent.maxL2Changes_pos msg.changes (k + 1)
    rw [← CoinbaseMessage.events_update update rt.cfg.tickSize recvTs, ← List.map_take,
      ← List.flatMap_def] at taken
    rw [← List.map_take, List.flatMap_map]
    exact congrArg _ taken
  refine ⟨?_, chunks, fun unready => (handle_unready updates unready).2.2, books,
    fun ready => ?_⟩
  · rintro (short | unready)
    · obtain ⟨event, alone, kind, received, changes⟩ :=
        CoinbaseMessage.events_of_le update short rt.cfg.tickSize recvTs
      rw [show handled = [(clock, event)] from congrArg _ alone, ← changes, ← received]
      refine ⟨congrArg Runtime.strategy (processEvent_update kind), ?_⟩
      rw [ordersOf, ordersOf, List.append_nil, sentOrder_update kind]
    · obtain ⟨strategy, orders, -⟩ := handle_unready updates unready
      rw [strategy, orders, processBatch, batchOrder, unready]
      exact ⟨rfl, rfl⟩
  · obtain ⟨k, count⟩ : ∃ k, max 1 (msg.changes.length ⌈/⌉ 128) = k + 1 :=
      Nat.exists_eq_add_of_le' (le_max_left _ _)
    have whole : msg.changes.length ≤ 128 * (k + 1) := by
      rw [← count]
      exact (ceilDiv_le_iff_le_mul MarketEvent.maxL2Changes_pos).mp (le_max_right _ _)
    rw [books ready, count, List.range_succ, List.map_append, List.map_singleton,
      List.getLast?_concat, List.take_of_length_le whole]

/-- The strategy is evaluated twice on the two chunks. -/
theorem chunks_evaluated_quietMessage :
    (quoted.evaluatedOn
      ((quietMessage.events quoted.cfg.tickSize 0).map (Prod.mk zeroClock))).length = 2 := by
  obtain ⟨-, -, -, books, -⟩ := chunks_evaluated quoted zeroClock quietMessage rfl 0
  rw [books quoted_quoting.ready, List.length_map, List.length_range,
    CoinbaseMessage.length_quietMessage]
  decide

/-- Two chunks record two samples where one event with all the changes would record one. -/
theorem chunks_record_twice :
    let handled := (quietMessage.events quoted.cfg.tickSize 0).map (Prod.mk zeroClock)
    (quoted.handle handled).strategy.rollingCount = 3 ∧
      (quoted.processBatch zeroClock 0 quietMessage.changes).strategy.rollingCount = 2 := by
  have length := CoinbaseMessage.length_quietMessage
  have all : quietMessage.changes.take 129 = quietMessage.changes :=
    List.take_of_length_le (le_of_eq length)
  have two : slices maxL2Changes quietMessage.changes =
      [quietMessage.changes.take 128, quietMessage.changes.drop 128] := by
    rw [Slices.slices_of_lt MarketEvent.maxL2Changes_pos (by rw [length]; decide),
      Slices.slices_of_le MarketEvent.maxL2Changes_pos (by rw [List.length_drop, length]; decide)]
    rfl
  have first : Quoting 128 2
      (quoted.processBatch zeroClock 0 (quietMessage.changes.take 128)) :=
    quoted_quoting.processBatch (by decide) (by decide) (List.nil_append _).symm
  have second := @Quoting.processBatch _ zeroClock 0 128 2 129 (quietMessage.changes.drop 128) first
    (by decide) (by decide) (by rw [all, List.take_append_drop])
  have whole : Quoting 129 2 (quoted.processBatch zeroClock 0 quietMessage.changes) :=
    quoted_quoting.processBatch (by decide) (by decide) all
  intro handled
  have chunks : quoted.handle handled = _ := handle_chunks rfl _
  rw [chunks, two, List.foldl_cons, List.foldl_cons, List.foldl_nil]
  exact ⟨second.samples, whole.samples⟩

end Runtime

end Trading
