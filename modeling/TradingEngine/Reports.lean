/-
This file is about the account the main thread reports. While the strategy thread handles an
event it stores the marks of the sides with a top, and behind a fill the four numbers of the
account. For its line the main thread loads the position, the cash and the realized profit, and
for the unrealized profit of a position the position again, a mark and the average entry. Each
store and each load is one step, in any interleaving.

So a report can mix accounts, but it makes none of its numbers up. Each is that of an account the
strategy held at some time of the report, and if the account did not change the report is that
account, at a mark of that time. A field is no state of the program: `window` holds what was
published when the report began and since.
-/

import TradingEngine.Lib.Publication
import TradingEngine.TradingSteps

namespace Trading

open Publication (Board)
open Publication.Board (Covers Seen)
open Transition

/-- The values the strategy thread publishes. -/
inductive Cell where
  | markBid
  | markAsk
  | cash
  | position
  | avgEntry
  | realized
deriving DecidableEq, Repr

/-! ### The thread that publishes -/

namespace Runtime

/-- The value of a cell once everything is published. -/
def cell (rt : Runtime) : Cell → ℚ
  | .markBid => rt.markBid
  | .markAsk => rt.markAsk
  | .cash => rt.pnlCash
  | .position => rt.pnlPosition
  | .avgEntry => rt.pnlAvgEntry
  | .realized => rt.pnlRealized

/-- The stores of the marks. -/
def markCells (rt : Runtime) : List Cell :=
  (if (rt.book.topOfBook .bid).isSome then [.markBid] else []) ++
    if (rt.book.topOfBook .ask).isSome then [.markAsk] else []

/-- The stores of `publishPnl`. -/
def pnlCells : List Cell := [.cash, .position, .avgEntry, .realized]

/-- The cells stored while an event is handled, in order. -/
def stores (rt : Runtime) (clock : EventClock) (ev : MarketEvent) : List Cell :=
  match rt.withBook ev with
  | none => []
  | some ready => ready.markCells ++
    if (ready.evaluate clock ev.recvNs).metrics.fills = ready.metrics.fills then [] else pnlCells

/-- The account is published anew behind a fill only. -/
theorem dispatchOrder_cell (rt : Runtime) (signal : Signal) (clock : EventClock) (cell : Cell)
    (kept : (rt.dispatchOrder signal clock).metrics.fills = rt.metrics.fills ∨
      cell ∉ pnlCells) : (rt.dispatchOrder signal clock).cell cell = rt.cell cell := by
  unfold dispatchOrder at kept ⊢
  dsimp only at kept ⊢
  split at kept
  · rename_i tripped
    rw [if_pos tripped]
    cases cell <;> rfl
  · rename_i untripped
    rw [if_neg untripped]
    split at kept
    · rename_i refused
      rw [if_pos refused]
      cases cell <;> rfl
    · rename_i approved
      rw [if_neg approved]
      unfold executeOrder bookFill at kept ⊢
      split at kept
      · rename_i fills
        rw [if_pos fills]
        rcases kept with same | other
        · exact absurd same (Nat.succ_ne_self _)
        · cases cell with
          | markBid | markAsk => rfl
          | cash | position | avgEntry | realized => exact absurd (by decide) other
      · rename_i empty
        rw [if_neg empty]
        cases cell <;> rfl

theorem publishMarks_cell (rt : Runtime) (cell : Cell) (absent : cell ∉ rt.markCells) :
    rt.publishMarks.cell cell = rt.cell cell := by
  unfold markCells at absent
  cases cell with
  | markBid =>
    cases top : rt.book.topOfBook .bid with
    | none =>
      unfold publishMarks cell
      simp only [top]
    | some level =>
      rw [top] at absent
      exact absurd (by simp) absent
  | markAsk =>
    cases top : rt.book.topOfBook .ask with
    | none =>
      unfold publishMarks cell
      simp only [top]
    | some level =>
      rw [top] at absent
      exact absurd (by simp) absent
  | cash | position | avgEntry | realized => rfl

theorem evaluate_cell (rt : Runtime) (clock : EventClock) (recvNs : Timestamp) (cell : Cell)
    (absent : cell ∉ rt.markCells ++
      if (rt.evaluate clock recvNs).metrics.fills = rt.metrics.fills then [] else pnlCells) :
    (rt.evaluate clock recvNs).cell cell = rt.cell cell := by
  obtain ⟨unmarked, unpublished⟩ := not_or.mp fun member => absent (List.mem_append.mpr member)
  have marks : rt.publishMarks.cell cell = rt.cell cell := publishMarks_cell rt cell unmarked
  rw [evaluate_eq] at unpublished ⊢
  generalize rt.strategy.onMarketUpdate rt.book clock.bookDone = decided at *
  dsimp only at unpublished ⊢
  split at unpublished
  · rename_i actionable
    rw [if_pos actionable]
    refine Eq.trans (dispatchOrder_cell _ _ _ _ ?_) ?_
    · split at unpublished
      · rename_i same
        exact Or.inl same
      · exact Or.inr unpublished
    · rw [← marks]
      cases cell <;> rfl
  · rename_i quiet
    rw [if_neg quiet, ← marks]
    cases cell <;> rfl

/-- An event leaves every cell alone that it does not store. -/
theorem processEvent_cell (rt : Runtime) (clock : EventClock) (ev : MarketEvent) (cell : Cell)
    (absent : cell ∉ rt.stores clock ev) : (rt.processEvent clock ev).cell cell = rt.cell cell := by
  unfold stores at absent
  cases found : rt.withBook ev with
  | none =>
    unfold withBook at found
    unfold processEvent
    cases kind : ev.kind <;> rw [kind] at found
    · cases found
    · dsimp only at found ⊢
      split at found
      · cases found
      · rename_i unready
        rw [Bool.eq_false_iff.mpr unready]
        cases cell <;> rfl
    · cases cell <;> rfl
  | some ready =>
    rw [found] at absent
    have same : ready.cell cell = rt.cell cell := by
      unfold withBook at found
      split at found
      · rw [← Option.some.inj found]
        cases cell <;> rfl
      · split at found
        · rw [← Option.some.inj found]
          cases cell <;> rfl
        · cases found
      · cases found
    rw [processEvent_of_withBook found, ← same]
    exact evaluate_cell ready clock ev.recvNs cell absent

end Runtime

/-! ### The thread that reports -/

/-- What a report says; the unrealized profit is left out for a flat position. -/
structure Report where
  position : ℚ
  cash : ℚ
  realized : ℚ
  unrealized : Option ℚ

/-- Where the main thread stands in a report, with what it loaded. -/
inductive Reporter where
  | ready
  | loadingCash (position : ℚ)
  | loadingRealized (position cash : ℚ)
  | loadingPosition (position cash realized : ℚ)
  | loadingMark (position cash realized held : ℚ)
  | loadingEntry (position cash realized held mark : ℚ)
  | printed (report : Report)

/-- The mark that values a position. -/
def Cell.markOf (held : ℚ) : Cell := if 0 < held then .markBid else .markAsk

/-- The next load, from cells as they stand. -/
def Reporter.load (cells : Cell → ℚ) : Reporter → Reporter
  | .ready | .printed _ => .loadingCash (cells .position)
  | .loadingCash position => .loadingRealized position (cells .cash)
  | .loadingRealized position cash =>
    if position = 0 then .printed ⟨position, cash, cells .realized, none⟩
    else .loadingPosition position cash (cells .realized)
  | .loadingPosition position cash realized =>
    if cells .position = 0 then .printed ⟨position, cash, realized, some 0⟩
    else .loadingMark position cash realized (cells .position)
  | .loadingMark position cash realized held =>
    if cells (.markOf held) ≤ 0 then .printed ⟨position, cash, realized, some 0⟩
    else .loadingEntry position cash realized held (cells (.markOf held))
  | .loadingEntry position cash realized held mark =>
    .printed ⟨position, cash, realized, some (held * (mark - cells .avgEntry))⟩

/-- The strategy thread's runtime, what it has published of it, and the main thread. -/
structure ReportedRuntime where
  rt : Runtime
  board : Board Cell ℚ
  reporter : Reporter
  window : List (Cell → ℚ)

/-- A step of the strategy thread, between events or at one store of an event, or a load of the
main thread; the first load of a report begins it. -/
inductive ReportAction where
  | handle (clock : EventClock) (ev : MarketEvent)
  | reset
  | store
  | load

namespace ReportedRuntime

/-- Nothing was handled and nothing is read. -/
def initial (cfg : RuntimeConfig) : ReportedRuntime where
  rt := Runtime.create cfg
  board := .settled (Runtime.create cfg).cell
  reporter := .ready
  window := [(Runtime.create cfg).cell]

/-- Handle an event: what is to be published is listed, and none of it is stored yet. -/
def handle (s : ReportedRuntime) (clock : EventClock) (ev : MarketEvent) : ReportedRuntime :=
  { s with
    rt := s.rt.processEvent clock ev
    board := s.board.publish (s.rt.processEvent clock ev).cell (s.rt.stores clock ev)
    window := s.window ++ [(s.rt.processEvent clock ev).cell] }

theorem handle_keeps (s : ReportedRuntime) (clock : EventClock) (ev : MarketEvent) :
    (s.handle clock ev).reporter = s.reporter ∧ (s.handle clock ev).board.cells = s.board.cells ∧
      (s.handle clock ev).window.length = s.window.length + 1 :=
  ⟨rfl, rfl, List.length_append⟩

/-- Load the next cell of the report; the first load opens a new window. -/
def load (s : ReportedRuntime) : ReportedRuntime :=
  { s with
    reporter := s.reporter.load s.board.cells
    window := match s.reporter with
      | .ready | .printed _ => s.board.records
      | _ => s.window }

/-- One step of the strategy thread or of the reporter. -/
def step (s : ReportedRuntime) : ReportAction → Option ReportedRuntime
  | .handle clock ev => if s.board.pending = [] then some (s.handle clock ev) else none
  | .reset => if s.board.pending = [] then some { s with rt := s.rt.reset } else none
  | .store => match s.board.pending with
      | cell :: rest => some { s with board := s.board.store cell rest }
      | [] => none
  | .load => some s.load

/-- The events are priced from one tick on. -/
def Priced (tickSize : ℚ) (_ : ReportedRuntime) : ReportAction → Prop
  | .handle _ ev => ev.PricedFromOne tickSize
  | .reset | .store | .load => True

/-- The steps of the two threads, each with what it needs and what it leaves. -/
inductive Moves (s : ReportedRuntime) : ReportAction → ReportedRuntime → Prop where
  | handle (clock : EventClock) (ev : MarketEvent) (idle : s.board.pending = []) :
      Moves s (.handle clock ev) (s.handle clock ev)
  | reset (idle : s.board.pending = []) : Moves s .reset { s with rt := s.rt.reset }
  | store (cell : Cell) (rest : List Cell) (first : s.board.pending = cell :: rest) :
      Moves s .store { s with board := s.board.store cell rest }
  | load : Moves s .load s.load

theorem moves_of_step {s after : ReportedRuntime} {action : ReportAction}
    (stepped : s.step action = some after) : s.Moves action after := by
  unfold step at stepped
  cases action with
  | handle clock ev =>
    dsimp only at stepped
    split at stepped
    · obtain rfl := Option.some.inj stepped
      exact .handle clock ev ‹_›
    · cases stepped
  | reset =>
    dsimp only at stepped
    split at stepped
    · obtain rfl := Option.some.inj stepped
      exact .reset ‹_›
    · cases stepped
  | store =>
    dsimp only at stepped
    split at stepped
    · obtain rfl := Option.some.inj stepped
      exact .store _ _ ‹_›
    · cases stepped
  | load =>
    obtain rfl := Option.some.inj stepped
    exact .load

end ReportedRuntime

/-! ### What a report says -/

/-- An unrealized profit from the window: none of a position that was closed meanwhile or has no
mark yet, else of a position at a mark above an average entry, each as it was at some time. -/
inductive Unrealized (window : List (Cell → ℚ)) : ℚ → Prop where
  | closed (flat : Seen window .position 0) : Unrealized window 0
  | unmarked {held mark : ℚ} (seen : Seen window .position held) (opened : held ≠ 0)
      (marked : Seen window (.markOf held) mark) (none : mark ≤ 0) : Unrealized window 0
  | marked {held mark entry : ℚ} (seen : Seen window .position held) (opened : held ≠ 0)
      (marked : Seen window (.markOf held) mark) (some : 0 < mark)
      (entered : Seen window .avgEntry entry) : Unrealized window (held * (mark - entry))

/-- The numbers of a report are all from the window. -/
structure Report.From (window : List (Cell → ℚ)) (report : Report) : Prop where
  position : Seen window .position report.position
  cash : Seen window .cash report.cash
  realized : Seen window .realized report.realized
  flat : report.unrealized = none ↔ report.position = 0
  unrealized : ∀ profit, report.unrealized = some profit → Unrealized window profit

/-- What is loaded so far is from the window. -/
def Reporter.From (window : List (Cell → ℚ)) : Reporter → Prop
  | .ready => True
  | .loadingCash position => Seen window .position position
  | .loadingRealized position cash => Seen window .position position ∧ Seen window .cash cash
  | .loadingPosition position cash realized =>
    (Seen window .position position ∧ Seen window .cash cash ∧ Seen window .realized realized) ∧
      position ≠ 0
  | .loadingMark position cash realized held =>
    ((Seen window .position position ∧ Seen window .cash cash ∧ Seen window .realized realized) ∧
      position ≠ 0) ∧ Seen window .position held ∧ held ≠ 0
  | .loadingEntry position cash realized held mark =>
    (((Seen window .position position ∧ Seen window .cash cash ∧
      Seen window .realized realized) ∧ position ≠ 0) ∧ Seen window .position held ∧ held ≠ 0) ∧
      Seen window (.markOf held) mark ∧ 0 < mark
  | .printed report => report.From window

section Window

variable {window more : List (Cell → ℚ)}

theorem Unrealized.mono (grown : window ⊆ more) {profit : ℚ} (told : Unrealized window profit) :
    Unrealized more profit := by
  cases told with
  | closed flat => exact .closed (flat.mono grown)
  | unmarked seen opened marked none =>
    exact .unmarked (seen.mono grown) opened (marked.mono grown) none
  | marked seen opened marked some entered =>
    exact .marked (seen.mono grown) opened (marked.mono grown) some (entered.mono grown)

theorem Reporter.From.mono (grown : window ⊆ more) {reporter : Reporter}
    (told : reporter.From window) : reporter.From more := by
  cases reporter with
  | ready => trivial
  | loadingCash => exact Seen.mono grown told
  | loadingRealized => exact ⟨told.1.mono grown, told.2.mono grown⟩
  | loadingPosition =>
    obtain ⟨⟨position, cash, realized⟩, opened⟩ := told
    exact ⟨⟨position.mono grown, cash.mono grown, realized.mono grown⟩, opened⟩
  | loadingMark =>
    obtain ⟨⟨⟨position, cash, realized⟩, opened⟩, held, still⟩ := told
    exact ⟨⟨⟨position.mono grown, cash.mono grown, realized.mono grown⟩, opened⟩,
      held.mono grown, still⟩
  | loadingEntry =>
    obtain ⟨⟨⟨⟨position, cash, realized⟩, opened⟩, held, still⟩, mark, some⟩ := told
    exact ⟨⟨⟨⟨position.mono grown, cash.mono grown, realized.mono grown⟩, opened⟩,
      held.mono grown, still⟩, mark.mono grown, some⟩
  | printed report =>
    exact ⟨told.position.mono grown, told.cash.mono grown, told.realized.mono grown, told.flat,
      fun profit said => (told.unrealized profit said).mono grown⟩

/-- A load in the middle of a report. -/
theorem Reporter.From.load {reporter : Reporter} (told : reporter.From window) {cells : Cell → ℚ}
    (seen : ∀ cell, Seen window cell (cells cell)) : (reporter.load cells).From window := by
  have without : ∀ {position cash realized : ℚ}, (Seen window .position position ∧
      Seen window .cash cash ∧ Seen window .realized realized) ∧ position ≠ 0 → ∀ {profit},
      Unrealized window profit → Report.From window ⟨position, cash, realized, some profit⟩ := by
    rintro position cash realized ⟨⟨one, two, three⟩, opened⟩ profit told
    refine ⟨one, two, three, ⟨nofun, fun flat => absurd flat opened⟩, fun other said => ?_⟩
    obtain rfl := Option.some.inj said
    exact told
  cases reporter with
  | ready | printed => exact seen .position
  | loadingCash position => exact ⟨told, seen .cash⟩
  | loadingRealized position cash =>
    show Reporter.From window (if position = 0 then _ else _)
    split
    · rename_i flat
      exact ⟨told.1, told.2, seen .realized, ⟨fun _ => flat, fun _ => rfl⟩, nofun⟩
    · rename_i opened
      exact ⟨⟨told.1, told.2, seen .realized⟩, opened⟩
  | loadingPosition position cash realized =>
    show Reporter.From window (if cells .position = 0 then _ else _)
    split
    · rename_i flat
      exact without told (.closed (flat ▸ seen .position))
    · rename_i opened
      exact ⟨told, seen .position, opened⟩
  | loadingMark position cash realized held =>
    show Reporter.From window (if cells (.markOf held) ≤ 0 then _ else _)
    split
    · rename_i none
      exact without told.1 (.unmarked told.2.1 told.2.2 (seen _) none)
    · rename_i some
      exact ⟨told, seen _, not_le.mp some⟩
  | loadingEntry position cash realized held mark =>
    exact without told.1.1
      (.marked told.1.2.1 told.1.2.2 told.2.1 told.2.2 (seen .avgEntry))

end Window

/-! ### Reports of every run -/

/-- An account without debt, and not short where it must not be. -/
structure Solvent (cfg : RuntimeConfig) (record : Cell → ℚ) : Prop where
  cash : 0 ≤ record .cash
  position : cfg.strategy.allowShort = false → 0 ≤ record .position

theorem Runtime.InOrder.solvent {cfg : RuntimeConfig} (valid : cfg.Valid) {rt : Runtime}
    (inOrder : InOrder cfg rt) : Solvent cfg rt.cell := by
  have cash : rt.pnlCash = rt.strategy.cash := congrArg PnlState.cash inOrder.current
  have position : rt.pnlPosition = rt.strategy.position :=
    congrArg PnlState.position inOrder.current
  constructor
  · have kept := inOrder.within.solvent.cash
    have agreed : rt.risk.cash cfg.symbolId = rt.strategy.cash := inOrder.ledgers.cash
    unfold RiskManager.cash at agreed
    rw [if_pos valid.symbolId] at agreed
    show 0 ≤ rt.pnlCash
    rw [cash, ← agreed]
    exact kept
  · intro forbidden
    show 0 ≤ rt.pnlPosition
    rw [position]
    exact inOrder.longOnly forbidden

namespace ReportedRuntime

/-- The board is what the runtime publishes, and the report so far is from the window. -/
structure Told (cfg : RuntimeConfig) (s : ReportedRuntime) : Prop where
  target : s.board.target = s.rt.cell
  sound : s.board.Sound
  covers : Covers s.window s.board
  from_window : s.reporter.From s.window
  inOrder : s.rt.InOrder cfg
  solvent : ∀ record ∈ s.window, Solvent cfg record

variable {cfg : RuntimeConfig} {s after : ReportedRuntime}

theorem initial_told (valid : cfg.Valid) : (initial cfg).Told cfg where
  target := rfl
  sound := Publication.Board.sound_settled _
  covers := Publication.Board.covers_records _
  from_window := trivial
  inOrder := Runtime.create_inOrder valid
  solvent := by
    intro record member
    obtain rfl := List.mem_singleton.mp member
    exact (Runtime.create_inOrder valid).solvent valid

theorem Told.handle (told : s.Told cfg) (valid : cfg.Valid) (idle : s.board.pending = [])
    (clock : EventClock) {ev : MarketEvent} (priced : ev.PricedFromOne cfg.tickSize) :
    (s.handle clock ev).Told cfg := by
  have inOrder := told.inOrder.processEvent valid clock priced
  refine ⟨rfl, told.sound.publish idle fun cell absent => ?_, told.covers.publish _ _,
    told.from_window.mono (List.subset_append_left _ _), inOrder, fun record member => ?_⟩
  · rw [told.target]
    exact s.rt.processEvent_cell clock ev cell absent
  · rcases List.mem_append.mp member with earlier | last
    · exact told.solvent record earlier
    · obtain rfl := List.mem_singleton.mp last
      exact inOrder.solvent valid

theorem Told.load (told : s.Told cfg) : s.load.Told cfg := by
  obtain ⟨target, sound, covers, from_window, inOrder, solvent⟩ := told
  have begun : ∀ reporter : Reporter, (reporter.load s.board.cells =
      .loadingCash (s.board.cells .position)) →
      Told cfg { s with
        reporter := reporter.load s.board.cells
        window := s.board.records } := by
    intro reporter first
    refine ⟨target, sound, Publication.Board.covers_records _, ?_, inOrder, fun record member =>
      solvent record (covers record member)⟩
    show (reporter.load s.board.cells).From s.board.records
    rw [first]
    exact sound.seen (Publication.Board.covers_records _) .position
  have continued := from_window.load (sound.seen covers)
  unfold ReportedRuntime.load
  cases standing : s.reporter with
  | ready => exact begun .ready rfl
  | printed report => exact begun (.printed report) rfl
  | loadingCash | loadingRealized | loadingPosition | loadingMark | loadingEntry =>
    rw [standing] at continued
    exact ⟨target, sound, covers, continued, inOrder, solvent⟩

theorem Told.moves (told : s.Told cfg) (valid : cfg.Valid) {action : ReportAction}
    (priced : Priced cfg.tickSize s action) (moved : s.Moves action after) : after.Told cfg := by
  cases moved with
  | handle clock ev idle => exact told.handle valid idle clock priced
  | reset idle =>
    exact ⟨told.target, told.sound, told.covers, told.from_window, told.inOrder.reset,
      told.solvent⟩
  | store cell rest first =>
    exact ⟨told.target, told.sound.store first, told.covers.store first, told.from_window,
      told.inOrder, told.solvent⟩
  | load => exact told.load

theorem reaches_told (valid : cfg.Valid)
    (reached : Reaches step (Priced cfg.tickSize) (initial cfg) s) : s.Told cfg :=
  Reaches.invariant (initial_told valid)
    (fun _ _ _ told priced stepped => told.moves valid priced (moves_of_step stepped)) reached

/-- In every interleaving of the single stores of the strategy thread with the single loads of the
main thread: the numbers of a report are each of an account published when the report began or
since, so it shows no debt and no short position where none is allowed. And if these accounts are
one, the report is that account, at a mark published by then. -/
theorem report_from_window (cfg : RuntimeConfig) (valid : cfg.Valid) (s : ReportedRuntime)
    (reached : Reaches step (Priced cfg.tickSize) (initial cfg) s) (report : Report)
    (printed : s.reporter = .printed report) :
    report.From s.window ∧ 0 ≤ report.cash ∧
      (cfg.strategy.allowShort = false → 0 ≤ report.position) ∧
      ∀ account : PnlState, (∀ record ∈ s.window, record .cash = account.cash ∧
        record .position = account.position ∧ record .avgEntry = account.avgEntry ∧
        record .realized = account.realized) →
        report.position = account.position ∧ report.cash = account.cash ∧
        report.realized = account.realized ∧
        (account.position = 0 → report.unrealized = none) ∧
        (account.position ≠ 0 → ∃ mark, Seen s.window (.markOf account.position) mark ∧
          report.unrealized =
            some (if mark ≤ 0 then 0 else account.position * (mark - account.avgEntry))) := by
  have told := reaches_told valid reached
  have whole := told.from_window
  rw [printed] at whole
  obtain ⟨position, cash, realized, flat, unrealized⟩ : report.From s.window := whole
  refine ⟨⟨position, cash, realized, flat, unrealized⟩, ?_, ?_, ?_⟩
  · obtain ⟨record, member, same⟩ := cash
    rw [same]
    exact (told.solvent record member).cash
  · intro forbidden
    obtain ⟨record, member, same⟩ := position
    rw [same]
    exact (told.solvent record member).position forbidden
  · intro account agree
    have held : ∀ {value}, Seen s.window .position value → value = account.position := fun seen =>
      seen.eq_of_agree fun record member => (agree record member).2.1
    have same := held position
    refine ⟨same, cash.eq_of_agree fun record member => (agree record member).1,
      realized.eq_of_agree fun record member => (agree record member).2.2.2,
      fun none => flat.mpr (same.trans none), fun opened => ?_⟩
    cases said : report.unrealized with
    | none => exact absurd (same.symm.trans (flat.mp said)) opened
    | some profit =>
      cases unrealized profit said with
      | closed none => exact absurd (held none).symm opened
      | unmarked seen _ marked none =>
        obtain rfl := held seen
        exact ⟨_, marked, by rw [if_pos none]⟩
      | @marked _ mark _ seen _ marked some entry =>
        obtain rfl := held seen
        obtain rfl := entry.eq_of_agree fun record member => (agree record member).2.2.1
        exact ⟨_, marked, by rw [if_neg (not_le.mpr some)]⟩

/-- The main thread can always load. -/
theorem reaches_load (reached : Reaches step (Priced cfg.tickSize) (initial cfg) s) :
    Reaches step (Priced cfg.tickSize) (initial cfg) s.load :=
  reached.next ReportAction.load trivial rfl

/-- The strategy thread stores some of the pending cells. -/
theorem reaches_storeAll {fields rest : List Cell} (pending : s.board.pending = fields ++ rest)
    (reached : Reaches step (Priced cfg.tickSize) (initial cfg) s) :
    Reaches step (Priced cfg.tickSize) (initial cfg)
      { s with board := s.board.storeAll fields rest } := by
  induction fields generalizing s with
  | nil =>
    rw [List.nil_append] at pending
    rw [← pending, Publication.Board.storeAll_nil]
    exact reached
  | cons field fields inductionHypothesis =>
    have stepped : s.step .store =
        some { s with board := s.board.store field (fields ++ rest) } := by
      unfold step
      rw [pending]
      rfl
    have later := inductionHypothesis rfl (reached.next .store trivial stepped)
    rwa [← Publication.Board.storeAll_cons] at later

end ReportedRuntime

/-! ### A report with a fill in it -/

namespace Runtime

/-- A small snapshot of both sides stores the marks, and the account if its order fills. -/
theorem stores_of_small {rt : Runtime} {ev : MarketEvent} (small : ev.Small) (clock : EventClock)
    (bids : (ev.snap.smallBook.topOfBook .bid).isSome = true)
    (asks : (ev.snap.smallBook.topOfBook .ask).isSome = true)
    (filled : (rt.processEvent clock ev).metrics.fills ≠ rt.metrics.fills) :
    rt.stores clock ev = [.markBid, .markAsk] ++ pnlCells := by
  have found : rt.withBook ev = some (rt.countMessage.rebuildBook ev.snap) := by
    rw [withBook, small.kind]
  rw [processEvent_of_withBook found] at filled
  rw [(small.queries rt.book .bid).1] at bids
  rw [(small.queries rt.book .ask).1] at asks
  rw [stores, found]
  dsimp only
  rw [if_neg (show ¬(_ : Nat) = (rt.countMessage.rebuildBook ev.snap).metrics.fills from filled),
    markCells]
  rw [show (rt.countMessage.rebuildBook ev.snap).book = rt.book.applySnapshot ev.snap from rfl,
    if_pos bids, if_pos asks]
  rfl

/-- The mark of the bids is the best bid. -/
theorem processEvent_markBid {rt : Runtime} {ev : MarketEvent} (small : ev.Small)
    (clock : EventClock) {bid : PriceLevel} (top : ev.snap.smallBook.topOfBook .bid = some bid) :
    (rt.processEvent clock ev).markBid = bid.price.toDouble rt.cfg.tickSize := by
  have found : rt.withBook ev = some (rt.countMessage.rebuildBook ev.snap) := by
    rw [withBook, small.kind]
  rw [(small.queries rt.book .bid).1] at top
  have marks : (rt.countMessage.rebuildBook ev.snap).publishMarks.markBid =
      bid.price.toDouble rt.cfg.tickSize := by
    unfold publishMarks
    dsimp only
    rw [show (rt.countMessage.rebuildBook ev.snap).book = rt.book.applySnapshot ev.snap from rfl,
      top]
    rfl
  rw [processEvent_of_withBook found, evaluate_eq, ← marks]
  dsimp only
  split
  · exact dispatchOrder_cell _ _ _ .markBid (Or.inr (by decide))
  · rfl

end Runtime

/-- The first three loads of a report on a held position. -/
theorem Reporter.load_account {cells : Cell → ℚ} (opened : cells .position ≠ 0) :
    ((Reporter.ready.load cells).load cells).load cells =
      .loadingPosition (cells .position) (cells .cash) (cells .realized) :=
  if_neg opened

/-- Where there is still a position, its mark is next. -/
theorem Reporter.load_position {cells : Cell → ℚ} (opened : 0 < cells .position)
    (position cash realized : ℚ) :
    (Reporter.loadingPosition position cash realized).load cells =
      .loadingMark position cash realized (cells .position) := if_neg (ne_of_gt opened)

theorem Reporter.load_mark {cells : Cell → ℚ} {held : ℚ} (opened : 0 < held)
    (marked : 0 < cells .markBid) (position cash realized : ℚ) :
    (Reporter.loadingMark position cash realized held).load cells =
      .loadingEntry position cash realized held (cells .markBid) := by
  have mark : Cell.markOf held = .markBid := if_pos opened
  show (if cells (.markOf _) ≤ 0 then _ else Reporter.loadingEntry _ _ _ _ (cells (.markOf _))) = _
  rw [mark, if_neg (not_le.mpr marked)]

namespace ReportedRuntime

/-- The account of a desk is on the board to be stored. -/
structure Targets (desk : Desk) (bid : PriceLevel) (s : ReportedRuntime) : Prop where
  markBid : s.board.target .markBid = bid.price.toDouble (1 / 100)
  cash : s.board.target .cash = desk.strategy.cash
  position : s.board.target .position = desk.strategy.position
  avgEntry : s.board.target .avgEntry = desk.strategy.avgEntry
  realized : s.board.target .realized = desk.strategy.realized

/-- A small snapshot whose order fills leaves everything to be stored. -/
theorem reaches_fill {cfg : RuntimeConfig} (valid : cfg.Valid) (tickSize : cfg.tickSize = 1 / 100)
    {s : ReportedRuntime} (reached : Reaches step (Priced cfg.tickSize) (initial cfg) s)
    (idle : s.board.pending = []) {desk after : Desk} (same : s.rt.desk = desk) {ev : MarketEvent}
    (small : ev.Small) (priced : ev.PricedFromOne cfg.tickSize) {clock : EventClock}
    (moved : (desk.trade cfg ev.snap.smallBook clock).2 = after) (filled : after.fills ≠ desk.fills)
    {bid : PriceLevel} (bids : ev.snap.smallBook.topOfBook .bid = some bid)
    (asks : (ev.snap.smallBook.topOfBook .ask).isSome = true) :
    Reaches step (Priced cfg.tickSize) (initial cfg) (s.handle clock ev) ∧
      (s.handle clock ev).rt.desk = after ∧
      (s.handle clock ev).board.pending = [.markBid, .markAsk] ++ Runtime.pnlCells ∧
      Targets after bid (s.handle clock ev) := by
  have configured := (reaches_told valid reached).inOrder.within.configured
  obtain ⟨-, desks, kept⟩ := Runtime.processEvent_of_desk same configured small clock
  rw [moved] at desks
  have stepped : s.step (.handle clock ev) = some (s.handle clock ev) := if_pos idle
  have permitted : Priced cfg.tickSize s (.handle clock ev) := priced
  have next := reached.next _ permitted stepped
  have fills : (s.rt.processEvent clock ev).metrics.fills ≠ s.rt.metrics.fills := by
    rw [(Runtime.of_desk desks).2.2.1, (Runtime.of_desk same).2.2.1]
    exact filled
  have current := (reaches_told valid next).inOrder.current
  have account := (Runtime.of_desk desks).2.2.2
  refine ⟨next, desks, ?_, ?_, ?_, ?_, ?_, ?_⟩
  · exact Runtime.stores_of_small small clock (by rw [bids]; rfl) asks fills
  · rw [← tickSize, ← configured]
    exact Runtime.processEvent_markBid small clock bids
  · rw [← account]
    exact congrArg PnlState.cash current
  · rw [← account]
    exact congrArg PnlState.position current
  · rw [← account]
    exact congrArg PnlState.avgEntry current
  · rw [← account]
    exact congrArg PnlState.realized current

/-- A load in the middle of a report leaves the window alone. -/
theorem load_window {s : ReportedRuntime} {reporter : Reporter} (standing : s.reporter = reporter)
    (begun : reporter ≠ .ready) (unprinted : ∀ report, reporter ≠ .printed report) :
    s.load.window = s.window := by
  unfold load
  dsimp only
  rw [standing]
  cases reporter with
  | ready => exact absurd rfl begun
  | printed report => exact absurd rfl (unprinted report)
  | _ => rfl

section Loads

variable {cfg : RuntimeConfig} {s : ReportedRuntime} {desk : Desk} {bid : PriceLevel}

/-- Everything is stored, and the first three loads of a report are made. -/
theorem reaches_loaded (reached : Reaches step (Priced cfg.tickSize) (initial cfg) s)
    (pending : s.board.pending = [.markBid, .markAsk] ++ Runtime.pnlCells)
    (targets : Targets desk bid s) (ready : s.reporter = .ready)
    (opened : desk.strategy.position ≠ 0) :
    ∃ t, Reaches step (Priced cfg.tickSize) (initial cfg) t ∧ t.rt = s.rt ∧
      t.board.pending = [] ∧ t.window.length = 1 ∧
      t.board.cells .avgEntry = desk.strategy.avgEntry ∧
      t.reporter = .loadingPosition desk.strategy.position desk.strategy.cash
        desk.strategy.realized := by
  have stored := reaches_storeAll (pending.trans (List.append_nil _).symm) reached
  let t := { s with board := s.board.storeAll (Cell.markBid :: .markAsk :: Runtime.pnlCells) [] }
  have loaded : Reaches step (Priced cfg.tickSize) (initial cfg) t.load.load.load :=
    reaches_load (reaches_load (reaches_load stored))
  have position : t.board.cells .position = desk.strategy.position := targets.position
  have cash : t.board.cells .cash = desk.strategy.cash := targets.cash
  have realized : t.board.cells .realized = desk.strategy.realized := targets.realized
  have account := Reporter.load_account (position ▸ opened : t.board.cells .position ≠ 0)
  have window : t.load.load.load.window = t.board.records := by
    unfold ReportedRuntime.load
    dsimp only
    rw [show t.reporter = .ready from ready]
    rfl
  refine ⟨t.load.load.load, loaded, rfl, rfl, congrArg List.length window, targets.avgEntry, ?_⟩
  show ((s.reporter.load t.board.cells).load t.board.cells).load t.board.cells = _
  rw [ready, account, position, cash, realized]

/-- The marks, the cash and the position are stored, the rest of the account is not, and a report
goes on to its end. -/
theorem reaches_mixed (reached : Reaches step (Priced cfg.tickSize) (initial cfg) s)
    (pending : s.board.pending = [.markBid, .markAsk] ++ Runtime.pnlCells)
    (targets : Targets desk bid s) {position cash realized : ℚ}
    (loading : s.reporter = .loadingPosition position cash realized)
    (opened : 0 < desk.strategy.position) (marked : 0 < bid.price.toDouble (1 / 100)) :
    ∃ t, Reaches step (Priced cfg.tickSize) (initial cfg) t ∧ t.window = s.window ∧
      t.reporter = .printed ⟨position, cash, realized, some (desk.strategy.position *
        (bid.price.toDouble (1 / 100) - s.board.cells .avgEntry))⟩ := by
  have split : s.board.pending =
      [.markBid, .markAsk, .cash, .position] ++ [.avgEntry, .realized] := pending
  have stored := reaches_storeAll split reached
  let t := { s with
    board := s.board.storeAll [.markBid, .markAsk, .cash, .position] [.avgEntry, .realized] }
  have loaded : Reaches step (Priced cfg.tickSize) (initial cfg) t.load.load.load :=
    reaches_load (reaches_load (reaches_load stored))
  have mark : t.board.cells .markBid = bid.price.toDouble (1 / 100) := targets.markBid
  have held : t.board.cells .position = desk.strategy.position := targets.position
  have first : t.load.reporter = .loadingMark position cash realized desk.strategy.position := by
    show s.reporter.load t.board.cells = _
    rw [loading, Reporter.load_position (held ▸ opened), held]
  have second : t.load.load.reporter = .loadingEntry position cash realized
      desk.strategy.position (bid.price.toDouble (1 / 100)) := by
    show t.load.reporter.load t.board.cells = _
    rw [first, Reporter.load_mark opened (mark ▸ marked), mark]
  refine ⟨t.load.load.load, loaded, ?_, ?_⟩
  · rw [load_window second nofun nofun, load_window first nofun nofun,
      load_window (show t.reporter = _ from loading) nofun nofun]
  · show t.load.load.reporter.load t.board.cells = _
    rw [second]
    rfl

end Loads

/-- Five are bought. -/
def bought : Desk :=
  ((Runtime.create Runtime.boldConfig).desk.trade Runtime.boldConfig
    Runtime.thinQuote.2.snap.smallBook Runtime.thinQuote.1).2

/-- Three of them are sold. -/
def sold : Desk :=
  (bought.trade Runtime.boldConfig Runtime.rallyQuote.2.snap.smallBook Runtime.rallyQuote.1).2

theorem bought_sold :
    (bought.fills ≠ (Runtime.create Runtime.boldConfig).desk.fills ∧
      bought.strategy.state = ⟨189999 / 20, 5, 10001 / 100, 0⟩) ∧
    sold.fills ≠ bought.fills ∧ sold.strategy.position = 2 := by
  decide +kernel

theorem quotes_top :
    (Runtime.thinQuote.2.snap.smallBook.topOfBook .bid = some ⟨⟨10000⟩, ⟨1000⟩⟩ ∧
      (Runtime.thinQuote.2.snap.smallBook.topOfBook .ask).isSome = true) ∧
    Runtime.rallyQuote.2.snap.smallBook.topOfBook .bid = some ⟨⟨50000⟩, ⟨3⟩⟩ ∧
      (Runtime.rallyQuote.2.snap.smallBook.topOfBook .ask).isSome = true := by
  decide +kernel

theorem quotes_priced :
    Runtime.thinQuote.2.PricedFromOne (1 / 100) ∧
      Runtime.rallyQuote.2.PricedFromOne (1 / 100) := by
  constructor <;> (show ∀ level ∈ _, _; decide +kernel)

/-- An exit fills in the middle of a report, and its account is not all stored when the report
goes on: the position printed is the one before, the unrealized profit is that of the position
after, at the new mark and the old average entry. -/
theorem report_from_window_mixed :
    ∃ (s : ReportedRuntime) (report : Report),
      Reaches step (Priced Runtime.boldConfig.tickSize) (initial Runtime.boldConfig) s ∧
      s.window.length = 2 ∧ s.reporter = .printed report ∧
      report = ⟨5, 189999 / 20, 0, some (2 * (500 - 10001 / 100))⟩ ∧
      report.From s.window ∧ 0 ≤ report.cash := by
  obtain ⟨⟨once, state⟩, twice, two⟩ := bought_sold
  obtain ⟨⟨thinBid, thinAsk⟩, rallyBid, rallyAsk⟩ := quotes_top
  have five : bought.strategy.position = 5 := congrArg PnlState.position state
  have cash : bought.strategy.cash = 189999 / 20 := congrArg PnlState.cash state
  have entry : bought.strategy.avgEntry = 10001 / 100 := congrArg PnlState.avgEntry state
  have realized : bought.strategy.realized = 0 := congrArg PnlState.realized state
  have fresh : (initial Runtime.boldConfig).rt.desk = (Runtime.create Runtime.boldConfig).desk :=
    rfl
  have tickSize : Runtime.boldConfig.tickSize = 1 / 100 := rfl
  have moved : ((Runtime.create Runtime.boldConfig).desk.trade Runtime.boldConfig
    Runtime.thinQuote.2.snap.smallBook Runtime.thinQuote.1).2 = bought := rfl
  obtain ⟨reached, desks, pending, targets⟩ := reaches_fill Runtime.boldConfig_valid tickSize
    .start rfl fresh Runtime.thinQuote_small quotes_priced.1 moved once thinBid thinAsk
  obtain ⟨s, loaded, same, idle, window, avgEntry, loading⟩ :=
    reaches_loaded reached pending targets rfl (by rw [five]; norm_num)
  rw [← same] at desks
  obtain ⟨later, -, pending, targets⟩ := reaches_fill Runtime.boldConfig_valid tickSize loaded idle
    desks Runtime.rallyQuote_small quotes_priced.2 (rfl : _ = sold) twice rallyBid rallyAsk
  obtain ⟨reporter, cells, longer⟩ :=
    s.handle_keeps Runtime.rallyQuote.1 Runtime.rallyQuote.2
  obtain ⟨t, whole, kept, printed⟩ := reaches_mixed later pending targets
    (reporter.trans loading) (by rw [two]; norm_num) (by norm_num [Price.toDouble])
  rw [cells, avgEntry, entry] at printed
  obtain ⟨told, solvent, -⟩ :=
    report_from_window Runtime.boldConfig Runtime.boldConfig_valid t whole _ printed
  refine ⟨t, _, whole, ?_, printed, ?_, told, solvent⟩
  · rw [kept, longer, window]
  · rw [five, cash, realized, two]
    norm_num [Price.toDouble]

end ReportedRuntime

end Trading
