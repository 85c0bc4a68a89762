/-
This file is the order sizer of `order_sizer.hpp`: it walks the opposing side of the book
for a target quantity and sets the limit at the worst level it takes from.

A target that is not positive and an empty side give no signal. The limit is the price of
the last level something was taken from, converted to a number and back to ticks as the
source does; the conversion is undone exactly as long as the quotient is rounded back to
the tick it came from.
-/

import TradingEngine.BookLevels
import TradingEngine.Orders

namespace Trading

namespace OrderSizer

/-- The walk: the size accumulated so far and the price of the last level taken from. -/
def walk (tickSize targetQty : ℚ) : List PriceLevel → (accSize limitPx : ℚ) → ℚ × ℚ
  | [], accSize, limitPx => (accSize, limitPx)
  | level :: rest, accSize, limitPx =>
    let px := level.price.toDouble tickSize
    let fill := min (targetQty - accSize) level.qty.value
    if fill ≤ 0 then (accSize, limitPx)
    else if targetQty ≤ accSize + fill then (accSize + fill, px)
    else walk tickSize targetQty rest (accSize + fill) px

/-- A marketable order for `targetQty`, as far as the opposing levels go. -/
def computeOrder [DoubleDivision] {capacity : Nat} (book : BoundedBook capacity) (tickSize : ℚ)
    (side : Side) (targetQty : ℚ) : Signal :=
  if targetQty ≤ 0 then Signal.none
  else
    let liquidity := if side = .bid then Side.ask else Side.bid
    let levels := book.depth liquidity maxBookWalk
    if levels = [] then Signal.none
    else
      let sized := walk tickSize targetQty levels 0 0
      if sized.1 ≤ 0 then Signal.none
      else
        { action := if side = .bid then .buy else .sell
          price := Price.fromDouble sized.2 tickSize
          qty := ⟨sized.1⟩
          ts := 0 }

end OrderSizer

end Trading
