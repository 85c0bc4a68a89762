/-
This file is the profit-and-loss tracker of `pnl_tracker.hpp`: per symbol the cash, the
position, its average entry price and the realized profit, moved by fills. A position of
magnitude at most `tinyQty` is snapped to zero.

A fill is booked in three steps that the source makes in one function: the cash, then the
average entry or the realized profit, depending on whether the fill adds to the position,
reduces it or flips it, and last the position with its snap. The cash is moved by all of
the fill, whatever the snap does, and a flip is recognized before it. Reports that are no
fills and symbols without a ledger are ignored.
-/

import TradingEngine.Lib.Slots
import TradingEngine.Orders

namespace Trading

/-- The ledger of one symbol. -/
structure PnlState where
  cash : ℚ := 0
  position : ℚ := 0
  avgEntry : ℚ := 0
  realized : ℚ := 0
deriving DecidableEq, Repr, Inhabited

/-- The ledgers of all symbols. -/
structure PnlTracker where
  states : Vector PnlState maxSymbols
deriving DecidableEq

namespace PnlTracker

/-- Empty ledgers. -/
def fresh : PnlTracker := ⟨Vector.replicate _ {}⟩

/-- The ledger of a symbol, an empty one if it has none. -/
def state (tracker : PnlTracker) (id : SymbolId) : PnlState := tracker.states.getD id {}

/-- Set the cash of a symbol. -/
def seedCash (tracker : PnlTracker) (id : SymbolId) (cash : ℚ) : PnlTracker :=
  if id < maxSymbols then
    ⟨tracker.states.setIfInBounds id { tracker.state id with cash }⟩
  else tracker

/-- Move one state by a fill of `signed` units at price `px`. -/
def fillState (s : PnlState) (signed px : ℚ) : PnlState :=
  let pos := s.position
  let newPos := pos + signed
  let cash := s.cash - signed * px
  let position := if |newPos| ≤ tinyQty then 0 else newPos
  if pos = 0 ∨ (0 < pos ↔ 0 < signed) then
    let totalCost := s.avgEntry * |pos| + px * |signed|
    { cash, position
      avgEntry := if tinyQty < |newPos| then totalCost / |newPos| else 0
      realized := s.realized }
  else
    let closeQty := min |signed| |pos|
    let direction : ℚ := if 0 < pos then 1 else -1
    { cash, position
      realized := s.realized + direction * (px - s.avgEntry) * closeQty
      avgEntry := if newPos ≠ 0 ∧ ¬(0 < newPos ↔ 0 < pos) then px
        else if |newPos| ≤ tinyQty then 0 else s.avgEntry }

/-- Book a fill in the ledger of its symbol; anything else is ignored. -/
def onFill (tracker : PnlTracker) (report : ExecutionReport) (tickSize : ℚ) : PnlTracker :=
  if ¬report.isFill ∨ maxSymbols ≤ report.symbolId then tracker
  else
    ⟨tracker.states.setIfInBounds report.symbolId
      (fillState (tracker.state report.symbolId)
        (signedQty report.side report.execQty.value) (report.execPrice.toDouble tickSize))⟩

/-- What the position would gain at the mark. -/
def unrealized (tracker : PnlTracker) (id : SymbolId) (mark : Price) (tickSize : ℚ) : ℚ :=
  let s := tracker.state id
  if s.position = 0 then 0 else s.position * (mark.toDouble tickSize - s.avgEntry)

/-! ### What a fill does to the states -/

theorem fillState_cash (s : PnlState) (signed px : ℚ) :
    (fillState s signed px).cash = s.cash - signed * px := by
  unfold fillState
  dsimp only
  split <;> rfl

theorem fillState_position (s : PnlState) (signed px : ℚ) :
    (fillState s signed px).position =
      if |s.position + signed| ≤ tinyQty then 0 else s.position + signed := by
  unfold fillState
  dsimp only
  split <;> rfl

theorem state_seedCash (tracker : PnlTracker) {id : SymbolId} (inside : id < maxSymbols)
    (cash : ℚ) : (tracker.seedCash id cash).state id = { tracker.state id with cash } := by
  unfold seedCash
  rw [if_pos inside]
  unfold state
  rw [Slots.getD_setIfInBounds, if_pos ⟨rfl, inside⟩]

/-- A fill changes the ledger of its symbol as said. -/
theorem state_onFill (tracker : PnlTracker) {report : ExecutionReport}
    (fills : report.isFill = true) (inside : report.symbolId < maxSymbols) (tickSize : ℚ) :
    (tracker.onFill report tickSize).state report.symbolId =
      fillState (tracker.state report.symbolId) (signedQty report.side report.execQty.value)
        (report.execPrice.toDouble tickSize) := by
  unfold onFill
  rw [if_neg (not_or.mpr ⟨not_not.mpr fills, Nat.not_le.mpr inside⟩)]
  unfold state
  rw [Slots.getD_setIfInBounds, if_pos ⟨rfl, inside⟩]

end PnlTracker

end Trading
