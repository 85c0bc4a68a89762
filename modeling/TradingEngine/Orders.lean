/-
This file holds the records that pass between the strategy, the risk check and the fill
simulator: the parameters of the strategy with their defaults, and its signals, the orders
made of them and the execution reports.

Each of them has the fields of the structures in `signal.hpp` and `order_types.hpp`.
Quantities and numbers are rationals, times are integers in nanoseconds, and an order
carries its price in ticks.
-/

import TradingEngine.Types

namespace Trading

/-- What the strategy wants to do. -/
inductive SignalAction where
  | none
  | buy
  | sell
deriving DecidableEq, Repr, Inhabited

/-- What the strategy asks for. -/
structure Signal where
  action : SignalAction
  price : Price
  qty : Qty
  ts : Timestamp
deriving DecidableEq, Repr, Inhabited

namespace Signal

/-- No action. -/
def none : Signal := ⟨.none, ⟨0⟩, ⟨0⟩, 0⟩

/-- The signal asks for an order. -/
def isActionable (signal : Signal) : Bool := signal.action ≠ .none

end Signal

/-- The strategy's parameters, with the defaults of `signal.hpp`. -/
@[ext]
structure StrategyParams where
  depthLevels : Nat := 5
  smoothingWindow : Nat := 5
  entryImbalance : ℚ := 3 / 10
  takeProfitBps : ℚ := 8
  stopLossBps : ℚ := 8
  maxSpreadBps : ℚ := 5
  tradeFraction : ℚ := 1 / 10
  cooldownS : ℚ := 2
  allowShort : Bool := true
deriving DecidableEq, Repr

/-- An order as it goes to the risk manager and to the simulator. -/
structure NewOrder where
  id : OrderId
  symbolId : SymbolId
  side : Side
  price : Price
  qty : Qty
  createdNs : Timestamp
deriving DecidableEq, Repr

/-- What the simulator did with an order. -/
structure ExecutionReport where
  id : OrderId
  symbolId : SymbolId
  side : Side
  isFill : Bool
  execPrice : Price
  execQty : Qty
  completedNs : Timestamp
deriving DecidableEq, Repr

/-- The size below which a remainder or a position counts as nothing. -/
def tinyQty : ℚ := 1 / 10 ^ 12

theorem tinyQty_pos : 0 < tinyQty := by
  unfold tinyQty
  positivity

/-- A quantity signed by the side it trades on. -/
def signedQty (side : Side) (quantity : ℚ) : ℚ :=
  quantity * if side = .bid then 1 else -1

end Trading
