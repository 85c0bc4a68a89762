/-
This file holds the value types every component shares: prices counted in whole
ticks, quantities, sides and price levels. Binary floating point is read as
exact rational arithmetic, so a `double` is a `ℚ`; a tick count is an `Int`.

One rounding is kept apart, that of the quotient from which a price gets its
ticks. The feed is turned into ticks by it, and from some size on it moves them,
so the results about the feed leave open how a machine divides. Elsewhere the
quotient is exact like everything else.
-/

import TradingEngine.Lib.Rounding

namespace Trading

/-- How a quotient of two doubles is rounded. A quotient beyond all doubles has no rounding; any
number that fits no tick count may stand for it. -/
class DoubleDivision where
  round : ℚ → ℚ

/-- Division without rounding, where numbers are read as exact rationals. Whatever does not leave
the division open uses this one. -/
instance exactDivision : DoubleDivision := ⟨id⟩

/-- A price, counted in whole ticks. -/
structure Price where
  ticks : Int
deriving DecidableEq, Repr, Inhabited

namespace Price

/-- The price of a number of ticks. -/
def fromTicks (ticks : Int) : Price := ⟨ticks⟩

/-- The nearest whole number of ticks to a decimal price, by way of the rounded quotient. -/
def fromDouble [DoubleDivision] (px tickSize : ℚ) : Price :=
  ⟨Rounding.llround (DoubleDivision.round (px / tickSize))⟩

/-- The decimal price of a number of ticks. -/
def toDouble (price : Price) (tickSize : ℚ) : ℚ := price.ticks * tickSize

/-- Without rounding, a price is the nearest whole number of ticks to the quotient. -/
theorem fromDouble_eq (px tickSize : ℚ) :
    fromDouble px tickSize = ⟨Rounding.llround (px / tickSize)⟩ := rfl

/-- Converting a tick price to a decimal one and back returns the price. -/
theorem fromDouble_toDouble (price : Price) {tickSize : ℚ} (positive : 0 < tickSize) :
    fromDouble (price.toDouble tickSize) tickSize = price := by
  obtain ⟨ticks⟩ := price
  have cancel : (ticks : ℚ) * tickSize / tickSize = ticks :=
    mul_div_cancel_right₀ _ (ne_of_gt positive)
  rw [fromDouble_eq]
  simp only [toDouble, cancel, Rounding.llround_intCast]

theorem toDouble_le_toDouble {first second : Price} {tickSize : ℚ} (positive : 0 < tickSize)
    (ordered : first.ticks ≤ second.ticks) :
    first.toDouble tickSize ≤ second.toDouble tickSize :=
  mul_le_mul_of_nonneg_right (Int.cast_le.mpr ordered) (le_of_lt positive)

theorem ticks_le_of_toDouble_le {first second : Price} {tickSize : ℚ} (positive : 0 < tickSize)
    (ordered : first.toDouble tickSize ≤ second.toDouble tickSize) :
    first.ticks ≤ second.ticks :=
  Int.cast_le.mp (le_of_mul_le_mul_right ordered positive)

end Price

/-- A quantity. -/
structure Qty where
  value : ℚ
deriving DecidableEq, Repr, Inhabited

/-- The two sides of the book. -/
inductive Side where
  | bid
  | ask
deriving DecidableEq, Repr, Inhabited

/-- The other side. -/
def opposite : Side → Side
  | .bid => .ask
  | .ask => .bid

/-- A price together with the quantity resting there. -/
structure PriceLevel where
  price : Price
  qty : Qty
deriving DecidableEq, Repr, Inhabited

/-- Symbols are indices into fixed tables. -/
abbrev SymbolId := Nat

/-- The number of an order. -/
abbrev OrderId := Nat

/-- Nanoseconds. -/
abbrev Timestamp := Int

/-- `INVALID_SYMBOL_ID`, which no symbol has. -/
def invalidSymbolId : SymbolId := 2 ^ 16 - 1

/-- `MAX_SYMBOLS`, the number of symbols that have a ledger. -/
def maxSymbols : Nat := 64

/-- The deepest ladder walked when sizing or simulating an order. -/
def maxBookWalk : Nat := 32

end Trading
