/-
This file is the pre-trade risk check of `risk_manager.hpp`: per symbol a position, a
position limit and a cash balance, and for all symbols together one tick size and one
switch that turns the cash check on.

`approve` looks at what the position would be if all of the order filled, and for a
purchase at what it would cost at its limit. `onFill` books what did fill, at the price it
filled at, and unlike the tracker it keeps tiny positions. Configuring a symbol with cash
turns the check on for every symbol, and there is no way to turn it off again.
-/

import TradingEngine.Lib.Slots
import TradingEngine.Orders

namespace Trading

/-- The positions, limits and cash of all symbols, and the one grid and the one switch they share.
-/
structure RiskManager where
  positions : Vector ℚ maxSymbols
  maxPositions : Vector ℚ maxSymbols
  cashes : Vector ℚ maxSymbols
  tick : ℚ
  cashEnabled : Bool
deriving DecidableEq

namespace RiskManager

/-- No symbol is configured. -/
def fresh : RiskManager where
  positions := Vector.replicate _ 0
  maxPositions := Vector.replicate _ 0
  cashes := Vector.replicate _ 0
  tick := 0
  cashEnabled := false

/-- A negative `initialCash` leaves the cash check as it is. -/
def configure (risk : RiskManager) (id : SymbolId) (maxPosition initialCash tickSize : ℚ) :
    RiskManager :=
  if maxSymbols ≤ id then risk
  else
    let limited := { risk with maxPositions := risk.maxPositions.setIfInBounds id maxPosition }
    if 0 ≤ initialCash then
      { limited with
        cashes := limited.cashes.setIfInBounds id initialCash
        cashEnabled := true
        tick := tickSize }
    else limited

/-- Whether the order keeps the position inside its limit and, for a buy, fits the cash. -/
def approve (risk : RiskManager) (order : NewOrder) : Bool :=
  if maxSymbols ≤ order.symbolId then false
  else
    let projected := risk.positions.getD order.symbolId 0 + signedQty order.side order.qty.value
    let maxPos := risk.maxPositions.getD order.symbolId 0
    if maxPos < projected ∨ projected < -maxPos then false
    else if risk.cashEnabled ∧ order.side = .bid then
      if risk.cashes.getD order.symbolId 0 < order.qty.value * order.price.toDouble risk.tick then
        false
      else true
    else true

/-- Book a fill. -/
def onFill (risk : RiskManager) (report : ExecutionReport) : RiskManager :=
  if ¬report.isFill ∨ maxSymbols ≤ report.symbolId then risk
  else
    let signed := signedQty report.side report.execQty.value
    let moved := { risk with
      positions := risk.positions.setIfInBounds report.symbolId
        (risk.positions.getD report.symbolId 0 + signed) }
    if risk.cashEnabled then
      { moved with
        cashes := risk.cashes.setIfInBounds report.symbolId
          (risk.cashes.getD report.symbolId 0 - signed * report.execPrice.toDouble risk.tick) }
    else moved

/-- The position of a symbol. -/
def position (risk : RiskManager) (id : SymbolId) : ℚ :=
  if id < maxSymbols then risk.positions.getD id 0 else 0

/-- The cash of a symbol. -/
def cash (risk : RiskManager) (id : SymbolId) : ℚ :=
  if id < maxSymbols then risk.cashes.getD id 0 else 0

end RiskManager

end Trading
