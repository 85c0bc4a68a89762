/-
This file is about reconnects. The invalidation flag travels beside the queue, not in
it, so the strategy thread may see it too late or too early for an entry it takes off
the queue.

An update of one connection on a book of another is ruled out in two ways. Either the
feed does it: no update is pushed on a connection before a snapshot of that
connection. Or the flag does it: no update is taken while the flag still stands, and
no snapshot of an earlier connection once it was taken. A snapshot that the flag of
its own connection discards is ruled out if the flag is taken first. Under these
conditions every interleaving keeps what the reconnect logic is for, and a short run
without them does not.
-/

import Mathlib.Data.List.Induction
import TradingEngine.OneConnection
import TradingEngine.Pipeline
import TradingEngine.ReferenceBook

namespace Trading

open Transition

/-! ### Updates and the connection of the book -/

/-- An update is pushed only after a snapshot of its own connection, or before any snapshot. -/
def System.SnapshotFirst (s : System) (action : Action) : Prop :=
  action = .push → ∀ event ∈ s.pipeline.pending.head?, event.kind = .l2Update →
    lastSnapshot s.accepted = none ∨ lastSnapshot s.accepted = some s.connection

instance (s : System) (action : Action) : Decidable (s.SnapshotFirst action) :=
  inferInstanceAs (Decidable (_ → _))

/-- Behind every update is either no snapshot or one of the update's own connection. -/
def OwnSnapshots (entries : List Entry) : Prop :=
  ∀ before entry after, entries = before ++ entry :: after → entry.event.kind = .l2Update →
    lastSnapshot before = none ∨ lastSnapshot before = some entry.connection

theorem OwnSnapshots.append_singleton {entries : List Entry} (own : OwnSnapshots entries)
    {entry : Entry} (behind : entry.event.kind = .l2Update →
      lastSnapshot entries = none ∨ lastSnapshot entries = some entry.connection) :
    OwnSnapshots (entries ++ [entry]) := by
  intro before other after split update
  rcases List.eq_nil_or_concat after with rfl | ⟨shorter, last, rfl⟩
  · obtain ⟨rfl, same⟩ := List.append_inj' split rfl
    obtain rfl := (List.cons.inj same).1
    exact behind update
  · rw [List.concat_eq_append, ← List.cons_append, ← List.append_assoc] at split
    exact own before other shorter (List.append_inj' split rfl).1 update

theorem System.ownSnapshots {cfg : RuntimeConfig} {s : System}
    (reached : Reaches System.step System.SnapshotFirst (System.initial cfg) s) :
    OwnSnapshots s.accepted := by
  refine System.reaches_pipeline (fun p => OwnSnapshots p.accepted) ?_ ?_ reached
  · intro before entry after split
    exact absurd split.symm (by simp [System.pipeline, System.initial])
  · intro s action after own permitted moved
    cases moved with
    | push event rest waiting room =>
      refine own.append_singleton (permitted rfl event ?_)
      rw [waiting]
      rfl
    | _ => exact own

/-- The strategy thread takes no update off the queue while an invalidation stands, and no
snapshot of an earlier connection once none stands. -/
def System.FlagInTime (s : System) (action : Action) : Prop :=
  action = .pop → ∀ entry ∈ s.queue.head?,
    (entry.event.kind = .l2Update → s.bookInvalidate = false) ∧
      (entry.event.kind = .snapshot → s.bookInvalidate = false →
        entry.connection = s.connection)

instance (s : System) (action : Action) : Decidable (s.FlagInTime action) :=
  inferInstanceAs (Decidable (_ → _))

theorem lastSnapshot_mem {entries : List Entry} {connection : Nat}
    (last : lastSnapshot entries = some connection) :
    ∃ entry ∈ entries, entry.connection = connection := by
  induction entries using List.reverseRecOn with
  | nil => cases last
  | append_singleton entries entry inductionHypothesis =>
    rw [lastSnapshot_append_singleton] at last
    split at last
    · exact ⟨entry, by simp, Option.some.inj last⟩
    · obtain ⟨other, member, same⟩ := inductionHypothesis last
      exact ⟨other, List.mem_append_left _ member, same⟩

namespace Pipeline

/-- Entries are numbered by connections made so far, in order. -/
structure Numbered (p : Pipeline) : Prop where
  bounded : ∀ entry ∈ p.accepted, entry.connection ≤ p.connection
  ordered : p.accepted.Pairwise fun first second => first.connection ≤ second.connection
  offline : p.connection = 0 → p.accepted = [] ∧ p.pending = []

theorem Numbered.initial {cfg : RuntimeConfig} : Numbered (System.initial cfg).pipeline :=
  ⟨nofun, List.Pairwise.nil, fun _ => ⟨rfl, rfl⟩⟩

theorem Numbered.step {p after : Pipeline} {action : Action} (numbered : Numbered p)
    (step : p.Step action after) : Numbered after := by
  obtain ⟨bounded, ordered, offline⟩ := numbered
  cases step with
  | connect idle =>
    exact ⟨fun entry member => Nat.le_succ_of_le (bounded entry member), ordered, nofun⟩
  | receive msg recvTs parseDone idle connected =>
    exact ⟨bounded, ordered, fun never => absurd never (Nat.ne_of_gt connected)⟩
  | push event rest waiting room =>
    refine ⟨fun entry member => ?_, ?_, fun never => ?_⟩
    · rcases List.mem_append.mp member with old | new
      · exact bounded entry old
      · rw [List.mem_singleton.mp new]
    · refine List.pairwise_append.mpr ⟨ordered, List.pairwise_singleton _ _, ?_⟩
      intro entry member last new
      rw [List.mem_singleton.mp new]
      exact bounded entry member
    · rw [(offline never).2] at waiting
      cases waiting
  | lose event rest waiting full =>
    refine ⟨bounded, ordered, fun never => ?_⟩
    rw [(offline never).2] at waiting
    cases waiting
  | invalidate flagged free => exact ⟨bounded, ordered, offline⟩
  | pop entry rest free first => exact ⟨bounded, ordered, offline⟩
  | handle entry clock held => exact ⟨bounded, ordered, offline⟩

/-- Without an invalidation, a ready book is one of the current connection; a held snapshot is
about to make it so, and a held update finds a book of its own connection or none. -/
structure Timely (p : Pipeline) : Prop where
  inOrder : InOrder p
  numbered : Numbered p
  current : p.bookInvalidate = false → p.bookReady = true → p.rebuiltFrom = some p.connection
  snapshot : ∀ entry ∈ p.held, entry.event.kind = .snapshot → p.bookInvalidate = false →
    entry.connection = p.connection
  update : ∀ entry ∈ p.held, entry.event.kind = .l2Update → p.bookReady = true →
    p.rebuiltFrom = some entry.connection

namespace Timely

variable {p : Pipeline}

/-- The next entry lies behind a snapshot of the current connection, so it is of that
connection too. -/
theorem next_connection (timely : Timely p) {entry : Entry} {rest : List Entry}
    (free : p.held = none) (first : p.queue = entry :: rest)
    (rebuilt : p.rebuiltFrom = some p.connection) : entry.connection = p.connection := by
  have order : p.accepted = p.handled ++ entry :: rest := by
    rw [timely.inOrder.fifo, free, first]
    simp
  obtain ⟨last, handled, same⟩ := lastSnapshot_mem (timely.inOrder.rebuilt.symm.trans rebuilt)
  have ordered := timely.numbered.ordered
  have bounded := timely.numbered.bounded entry (by rw [order]; simp)
  rw [order] at ordered
  have above := (List.pairwise_append.mp ordered).2.2 last handled entry List.mem_cons_self
  omega

theorem connect (timely : Timely p) :
    (p.bookInvalidate || decide (0 < p.connection)) = false → p.rebuiltFrom = none ∧
      p.held = none := by
  intro unflagged
  have never : p.connection = 0 := by
    simp only [Bool.or_eq_false_iff, decide_eq_false_iff_not, Nat.not_lt, Nat.le_zero] at unflagged
    exact unflagged.2
  have fifo := timely.inOrder.fifo
  rw [(timely.numbered.offline never).1] at fifo
  obtain ⟨taken, -⟩ := List.append_eq_nil_iff.mp fifo.symm
  obtain ⟨handled, held⟩ := List.append_eq_nil_iff.mp taken
  refine ⟨?_, Option.toList_eq_nil_iff.mp held⟩
  rw [timely.inOrder.rebuilt, handled]
  rfl

theorem step (timely : Timely p) {action : Action} {after : Pipeline}
    (permitted : action = .pop → ∀ entry ∈ p.queue.head?,
      (entry.event.kind = .l2Update → p.bookInvalidate = false) ∧
        (entry.event.kind = .snapshot → p.bookInvalidate = false →
          entry.connection = p.connection))
    (moved : p.Step action after) : Timely after := by
  have inOrder := timely.inOrder.step moved
  have numbered := timely.numbered.step moved
  cases moved with
  | connect idle =>
    refine { timely with inOrder, numbered, current := ?_, snapshot := ?_ }
    · intro unflagged ready
      exact absurd (timely.connect unflagged).1 (timely.inOrder.ready ready)
    · intro entry held _ unflagged
      rw [(timely.connect unflagged).2] at held
      cases held
  | receive msg recvTs parseDone idle connected => exact { timely with inOrder, numbered }
  | push event rest waiting room => exact { timely with inOrder, numbered }
  | lose event rest waiting full => exact { timely with inOrder, numbered }
  | invalidate flagged free =>
    refine { inOrder, numbered, current := nofun, snapshot := ?_, update := nofun }
    intro entry held
    rw [free] at held
    cases held
  | pop entry rest free first =>
    have taken := permitted rfl entry (by rw [first]; rfl)
    refine { timely with inOrder, numbered, snapshot := ?_, update := ?_ }
    · rintro other ⟨⟩ kind unflagged
      exact taken.2 kind unflagged
    · rintro other ⟨⟩ kind ready
      have rebuilt := timely.current (taken.1 kind) ready
      rw [timely.next_connection free first rebuilt]
      exact rebuilt
  | handle entry clock held =>
    refine { inOrder, numbered, current := ?_, snapshot := nofun, update := nofun }
    dsimp only
    intro unflagged ready
    split
    · rename_i kind
      rw [timely.snapshot entry held kind unflagged]
    · rename_i other
      simp only [other, decide_false, Bool.or_false] at ready
      exact timely.current unflagged ready

end Timely

end Pipeline

theorem System.timely {cfg : RuntimeConfig} {s : System}
    (reached : Reaches System.step System.FlagInTime (System.initial cfg) s) :
    s.pipeline.Timely := by
  refine System.reaches_pipeline Pipeline.Timely ?_ ?_ reached
  · exact {
      inOrder := ⟨rfl, rfl, nofun⟩
      numbered := Pipeline.Numbered.initial
      current := nofun
      snapshot := nofun
      update := nofun }
  · exact fun s action after timely permitted moved => timely.step permitted moved

namespace System

/-- If the feed sends each connection's snapshot first, or the flag is always seen in time,
then in every interleaving an update is dropped unless the snapshot the book was last rebuilt
from came from the update's own connection. -/
theorem handle_drops_foreign_update (cfg : RuntimeConfig) (s : System)
    (reached : Reaches step SnapshotFirst (initial cfg) s ∨
      Reaches step FlagInTime (initial cfg) s) (entry : Entry) (drained : Bool)
    (handling : s.strategy = .handling entry drained) (update : entry.event.kind = .l2Update)
    (foreign : s.rebuiltFrom ≠ some entry.connection) (clock : EventClock) :
    s.rt.processEvent clock entry.event = s.rt.countMessage.dropUpdate := by
  have unready : s.rt.bookReady = false := by
    cases known : s.rt.bookReady with
    | false => rfl
    | true =>
      rcases reached with snapshotFirst | flagInTime
      · obtain ⟨-, rebuilt, ready⟩ := inOrder snapshotFirst
        have rebuiltSome : s.rebuiltFrom ≠ none := ready known
        have split := accepted_of_handling snapshotFirst handling
        rcases ownSnapshots snapshotFirst _ _ _ split update with none | own
        · exact absurd (rebuilt.trans none) rebuiltSome
        · exact absurd (rebuilt.trans own) foreign
      · have held := pipeline_held handling
        exact absurd ((timely flagInTime).update entry held update known) foreign
  simp only [Runtime.processEvent, update, unready, Bool.not_false, if_true]

/-! ### Updates that come too early and too late -/

theorem quoteEvent_calls (bookReady : Bool) :
    quoteEvent.calls (1 / 100) bookReady =
      [.clear, .seedReference ⟨10100⟩, .update .bid ⟨10000⟩ ⟨3⟩, .update .ask ⟨10200⟩ ⟨1⟩] := by
  show quoteEvent.snap.calls = _
  decide +kernel

theorem liftEvent_calls :
    (liftEvent 7).calls (1 / 100) true = [.update .bid ⟨10010⟩ ⟨2⟩] := by
  show changeCalls _ (liftEvent 7).l2.changes = _
  decide +kernel

/-- The first connection's snapshot is handled; then the connection is lost, the strategy thread
takes the flag of the next one, and an update of that comes before its snapshot. -/
def updateAfterReconnect : List Action :=
  [.dial, .connect, .testWsRunning, .receive quoteMessage 1 2, .push, .measure, .testRunning,
    .exchange, .pop, .handle ⟨1, 2, 3, 4, 5, 6⟩, .testWsRunning, .disconnect, .dial, .connect,
    .testRunning, .exchange, .testWsRunning, .receive liftMessage 7 8, .push, .measure, .pop]

theorem handle_drops_foreign_update_reconnected :
    ∃ s, Reaches step FlagInTime (initial {}) s ∧
      s.strategy = .handling ⟨2, liftEvent 7⟩ false ∧ s.rebuiltFrom = some 1 ∧
      s.rt.processEvent ⟨1, 2, 3, 4, 5, 6⟩ (liftEvent 7) = s.rt.countMessage.dropUpdate := by
  have executed : ∃ s, execute step FlagInTime (initial {}) updateAfterReconnect = some s ∧
      s.strategy = .handling ⟨2, liftEvent 7⟩ false ∧ s.rebuiltFrom = some 1 :=
    ⟨_, rfl, rfl, rfl⟩
  obtain ⟨s, executed, handling, rebuilt⟩ := executed
  have reached := Reaches.start.execute executed
  exact ⟨s, reached, handling, rebuilt,
    handle_drops_foreign_update {} s (Or.inr reached) ⟨2, liftEvent 7⟩ false handling rfl
      (by rw [rebuilt]; decide) ⟨1, 2, 3, 4, 5, 6⟩⟩

/-- The same system after a reconnect, holding an update of the new connection. -/
def requoted (rt : Runtime) : System :=
  { quoted rt with
    network := .measuring
    strategy := .handling ⟨2, liftEvent 7⟩ false
    bookInvalidate := true
    connection := 2
    received := [(quoteMessage, 1), (liftMessage, 7)]
    accepted := [⟨1, quoteEvent⟩, ⟨2, liftEvent 7⟩] }

/-- The strategy thread passes the flag, the network thread reconnects and pushes an update,
and the update lifts the bid of a book rebuilt on the connection before. -/
theorem handle_applies_foreign_update :
    ∃ s, Reaches step Free (initial {}) s ∧ s.strategy = .handling ⟨2, liftEvent 7⟩ false ∧
      s.rebuiltFrom = some 1 ∧ s.rt.book.topOfBook .bid = some ⟨⟨10000⟩, ⟨3⟩⟩ ∧
      (s.rt.processEvent ⟨1, 2, 3, 4, 5, 6⟩ (liftEvent 7)).book.topOfBook .bid =
        some ⟨⟨10010⟩, ⟨2⟩⟩ := by
  obtain ⟨rt, reached, cfg, ready, -, book⟩ := reaches_quoted
  have executed : ∃ after, execute step Free (quoted rt)
      [.testRunning, .exchange, .testWsRunning, .disconnect, .dial, .connect, .testWsRunning,
        .receive liftMessage 7 8, .push, .pop] = some (requoted after) ∧
      after.cfg = rt.cfg ∧ after.bookReady = rt.bookReady ∧ after.book = rt.book :=
    ⟨_, rfl, rfl, rfl, rfl⟩
  obtain ⟨after, executed, sameCfg, sameReady, sameBook⟩ := executed
  refine ⟨requoted after, (reached.mono fun _ _ _ => trivial).execute executed, rfl, rfl, ?_, ?_⟩
  · show after.book.topOfBook .bid = _
    rw [sameBook, book, quoteEvent_calls, BoundedBook.topOfBook_foldl_fresh 10000]
    · decide +kernel
    · simp [BoundedBook.Call.InBand, BoundedBook.Band, BoundedBook.center, bookCapacity]
  · rw [show (requoted after).rt = after from rfl, Runtime.processEvent_book, sameCfg, cfg,
      sameReady, ready, sameBook, book, ← List.foldl_append, quoteEvent_calls, liftEvent_calls,
      BoundedBook.topOfBook_foldl_fresh 10000]
    · decide +kernel
    · simp [BoundedBook.Call.InBand, BoundedBook.Band, BoundedBook.center, bookCapacity]

/-! ### The snapshot of the current connection -/

/-- A snapshot of the current connection is not taken off the queue while the invalidation of
that connection still stands. -/
def TakenUnflagged (s : System) (action : Action) : Prop :=
  action = .pop → ∀ entry ∈ s.queue.head?, entry.event.kind = .snapshot →
    entry.connection = s.connection → s.bookInvalidate = false

instance (s : System) (action : Action) : Decidable (s.TakenUnflagged action) :=
  inferInstanceAs (Decidable (_ → _))

end System

namespace Pipeline

/-- A snapshot of the current connection is among some entries. -/
def Current (p : Pipeline) (entries : List Entry) : Prop :=
  ∃ entry ∈ entries, entry.event.kind = .snapshot ∧ entry.connection = p.connection

/-- A snapshot of the current connection that the queue took is still on the queue, or it is
past the flag: held, or handled with the book ready. -/
structure Synced (p : Pipeline) : Prop where
  numbered : Numbered p
  synced : p.Current p.accepted → p.Current p.queue ∨
    p.bookInvalidate = false ∧ (p.Current p.held.toList ∨ p.bookReady = true)

theorem Synced.step {p after : Pipeline} {action : Action} (holds : Synced p)
    (permitted : action = .pop → ∀ entry ∈ p.queue.head?, entry.event.kind = .snapshot →
      entry.connection = p.connection → p.bookInvalidate = false)
    (step : p.Step action after) : Synced after := by
  have numbered := holds.numbered.step step
  obtain ⟨old, synced⟩ := holds
  cases step with
  | connect idle =>
    refine ⟨numbered, ?_⟩
    rintro ⟨entry, member, -, current⟩
    have below := old.bounded entry member
    have above : entry.connection = p.connection + 1 := current
    omega
  | receive msg recvTs parseDone idle connected => exact ⟨numbered, synced⟩
  | push event rest waiting room =>
    refine ⟨numbered, ?_⟩
    rintro ⟨entry, member, kind, current⟩
    rcases List.mem_append.mp member with earlier | new
    · rcases synced ⟨entry, earlier, kind, current⟩ with ⟨other, queued, facts⟩ | past
      · exact Or.inl ⟨other, List.mem_append_left _ queued, facts⟩
      · exact Or.inr past
    · exact Or.inl ⟨entry, List.mem_append_right _ new, kind, current⟩
  | lose event rest waiting full => exact ⟨numbered, synced⟩
  | invalidate flagged free =>
    refine ⟨numbered, fun current => ?_⟩
    rcases synced current with queued | ⟨unflagged, -⟩
    · exact Or.inl queued
    · rw [unflagged] at flagged
      cases flagged
  | pop entry rest free first =>
    refine ⟨numbered, fun current => ?_⟩
    rcases synced current with ⟨other, queued, kind, own⟩ | ⟨unflagged, held | ready⟩
    · rw [first] at queued
      rcases List.mem_cons.mp queued with rfl | later
      · have unflagged := permitted rfl other (by rw [first]; rfl) kind own
        exact Or.inr ⟨unflagged, Or.inl ⟨other, List.mem_singleton.mpr rfl, kind, own⟩⟩
      · exact Or.inl ⟨other, later, kind, own⟩
    · rw [free] at held
      obtain ⟨other, member, -⟩ := held
      cases member
    · exact Or.inr ⟨unflagged, Or.inr ready⟩
  | handle entry clock held =>
    refine ⟨numbered, fun current => ?_⟩
    rcases synced current with queued | ⟨unflagged, ⟨other, member, kind, -⟩ | ready⟩
    · exact Or.inl queued
    · rw [held] at member
      obtain rfl := List.mem_singleton.mp member
      refine Or.inr ⟨unflagged, Or.inr ?_⟩
      dsimp only
      rw [kind]
      exact Bool.or_true _
    · refine Or.inr ⟨unflagged, Or.inr ?_⟩
      dsimp only
      rw [ready]
      exact Bool.true_or _

end Pipeline

namespace System

/-- Under `TakenUnflagged`, in every interleaving: once the queue took the current connection's
snapshot, and is then empty with the strategy thread between two iterations, the book is
ready. -/
theorem bookReady_of_current_snapshot (cfg : RuntimeConfig) (s : System)
    (reached : Reaches step TakenUnflagged (initial cfg) s)
    (delivered : ∃ entry ∈ s.accepted, entry.event.kind = .snapshot ∧
      entry.connection = s.connection)
    (drained : s.queue = []) (between : s.strategy = .head) : s.rt.bookReady = true := by
  have synced : s.pipeline.Synced := by
    refine reaches_pipeline Pipeline.Synced ⟨Pipeline.Numbered.initial, nofun⟩ ?_ reached
    exact fun s action after holds permitted moved => holds.step permitted moved
  rcases synced.synced delivered with queued | ⟨-, held | ready⟩
  · obtain ⟨entry, member, -⟩ := queued
    rw [show s.pipeline.queue = [] from drained] at member
    cases member
  · obtain ⟨entry, member, -⟩ := held
    simp only [pipeline, between] at member
    cases member
  · exact ready

/-- A second connection whose snapshot is taken after the flag. -/
def flagThenSnapshot : List Action :=
  [.dial, .connect, .testWsRunning, .disconnect, .dial, .connect, .testRunning, .exchange,
    .testWsRunning, .receive quoteMessage 1 2, .push, .measure, .pop, .handle ⟨1, 2, 3, 4, 5, 6⟩]

theorem bookReady_of_current_snapshot_second :
    ∃ s, Reaches step TakenUnflagged (initial {}) s ∧ s.connection = 2 ∧
      s.accepted = [⟨2, quoteEvent⟩] ∧ s.rt.bookReady = true := by
  have executed : ∃ s, execute step TakenUnflagged (initial {}) flagThenSnapshot = some s ∧
      s.connection = 2 ∧ s.accepted = [⟨2, quoteEvent⟩] ∧ s.queue = [] ∧
      s.strategy = .head := ⟨_, rfl, rfl, rfl, rfl, rfl⟩
  obtain ⟨s, executed, connection, accepted, drained, between⟩ := executed
  have reached := Reaches.start.execute executed
  refine ⟨s, reached, connection, accepted, ?_⟩
  refine bookReady_of_current_snapshot {} s reached ?_ drained between
  exact ⟨⟨2, quoteEvent⟩, by rw [accepted]; exact List.mem_singleton.mpr rfl, rfl,
    connection.symm⟩

/-- A second connection whose snapshot is taken between the strategy thread's look at the flag
and the next one. -/
def snapshotThenFlag : List Action :=
  [.dial, .connect, .testRunning, .exchange, .testWsRunning, .disconnect, .dial, .connect,
    .testWsRunning, .receive quoteMessage 1 2, .push, .measure, .pop,
    .handle ⟨1, 2, 3, 4, 5, 6⟩, .testRunning, .exchange, .pop]

/-- The late flag discards the very snapshot it announced. -/
theorem late_flag_discards_snapshot :
    ∃ s, Reaches step Free (initial {}) s ∧
      (∃ entry ∈ s.accepted, entry.event.kind = .snapshot ∧ entry.connection = s.connection) ∧
      s.queue = [] ∧ s.bookInvalidate = false ∧ s.strategy = .head ∧ s.rt.bookReady = false := by
  have executed : ∃ s, execute step Free (initial {}) snapshotThenFlag = some s ∧
      s.accepted = [⟨2, quoteEvent⟩] ∧ s.connection = 2 ∧ s.queue = [] ∧
      s.bookInvalidate = false ∧ s.strategy = .head ∧ s.rt.bookReady = false :=
    ⟨_, rfl, rfl, rfl, rfl, rfl, rfl, rfl⟩
  obtain ⟨s, executed, accepted, connection, facts⟩ := executed
  refine ⟨s, Reaches.start.execute executed, ?_, facts⟩
  exact ⟨⟨2, quoteEvent⟩, by rw [accepted]; exact List.mem_singleton.mpr rfl, rfl,
    connection.symm⟩

end System

end Trading
