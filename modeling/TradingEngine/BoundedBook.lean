/-
This file is the flat price-level order book of `bounded_book.hpp`.

The book keeps one ladder of quantities per side, indexed by slot; slot
`capacity / 2` stands for the reference tick, so the ladders cover the window of
`capacity` ticks around it. Beside each ladder stand three redundant indices: a
bitmap with one bit per slot, a summary word with one bit per bitmap word, and
the cached best slot. An update outside the window is ignored, and an update that
leaves the touch near an edge moves the window onto the touch.
-/

import TradingEngine.Lib.BitScan
import TradingEngine.Lib.Slots
import TradingEngine.Types

namespace Trading

open BitScan (bitAt highestBit lowestBit)

/-- The capacities the template's static assertions admit: the powers of two that fill at
least one bitmap word and whose bitmap words one summary word can index. -/
class ValidCapacity (capacity : Nat) : Prop where
  power : ∃ exponent, 6 ≤ exponent ∧ exponent ≤ 12 ∧ capacity = 2 ^ exponent

/-- The width of one bitmap word. -/
def wordBits : Nat := 64

/-- The number of bitmap words of one side. -/
def numWords (capacity : Nat) : Nat := capacity / wordBits

/-- One bit for each slot of a ladder, in words. -/
abbrev Bitmap (capacity : Nat) := Vector (BitVec wordBits) (numWords capacity)

/-- The book over a window of `capacity` ticks. -/
structure BoundedBook (capacity : Nat) where
  refTick : Int
  haveRef : Bool
  bids : Vector ℚ capacity
  asks : Vector ℚ capacity
  bidBits : Bitmap capacity
  askBits : Bitmap capacity
  bidSummary : BitVec wordBits
  askSummary : BitVec wordBits
  bestBidIdx : Int
  bestAskIdx : Int
  rebaseCount : Nat
deriving DecidableEq

namespace BoundedBook

variable {capacity : Nat}

/-- The slot of the reference tick. -/
def center (capacity : Nat) : Int := (capacity / 2 : Nat)

/-- How close to an edge the touch may come before the window follows it. -/
def recenterMargin (capacity : Nat) : Int := (capacity / 8 : Nat)

/-- A freshly constructed book. -/
def fresh (capacity : Nat) : BoundedBook capacity where
  refTick := 0
  haveRef := false
  bids := Vector.replicate capacity 0
  asks := Vector.replicate capacity 0
  bidBits := Vector.replicate _ 0
  askBits := Vector.replicate _ 0
  bidSummary := 0
  askSummary := 0
  bestBidIdx := -1
  bestAskIdx := capacity
  rebaseCount := 0

/-- Empty both ladders and their indices; the window stays where it is. -/
def clear (book : BoundedBook capacity) : BoundedBook capacity :=
  { book with
    bids := Vector.replicate capacity 0
    asks := Vector.replicate capacity 0
    bidBits := Vector.replicate _ 0
    askBits := Vector.replicate _ 0
    bidSummary := 0
    askSummary := 0
    bestBidIdx := -1
    bestAskIdx := capacity
    haveRef := false }

/-- Anchor the window; only a cleared book takes the new reference. -/
def seedReference (book : BoundedBook capacity) (price : Price) : BoundedBook capacity :=
  if book.haveRef then book else { book with refTick := price.ticks, haveRef := true }

/-! ### The two-level bitmap -/

/-- Mark a slot as listed, in the bitmap and in its summary. -/
def setBit (bits : Bitmap capacity) (summary : BitVec wordBits) (idx : Nat) :
    Bitmap capacity × BitVec wordBits :=
  let word := idx / wordBits
  (bits.setIfInBounds word (bits.getD word 0 ||| bitAt wordBits (idx % wordBits)),
    summary ||| bitAt wordBits word)

/-- Unmark a slot; the summary forgets a word once its last bit is gone. -/
def clearBit (bits : Bitmap capacity) (summary : BitVec wordBits) (idx : Nat) :
    Bitmap capacity × BitVec wordBits :=
  let word := idx / wordBits
  let bits := bits.setIfInBounds word
    (bits.getD word 0 &&& ~~~bitAt wordBits (idx % wordBits))
  (bits, if bits.getD word 0 = 0 then summary &&& ~~~bitAt wordBits word else summary)

/-- The greatest set slot, or `-1`. The two scans are defined on nonzero words only; the
index invariant is what keeps them there. -/
def highestSet (bits : Bitmap capacity) (summary : BitVec wordBits) : Int :=
  if summary = 0 then -1
  else
    let word := highestBit summary
    let bit := highestBit (bits.getD word 0)
    (word * wordBits + bit : Nat)

/-- The least set slot, or `capacity`. -/
def lowestSet (bits : Bitmap capacity) (summary : BitVec wordBits) : Int :=
  if summary = 0 then capacity
  else
    let word := lowestBit summary
    let bit := lowestBit (bits.getD word 0)
    (word * wordBits + bit : Nat)

/-- One pass over a ladder that sets the bit of every live slot. -/
def indexLadder (ladder : Vector ℚ capacity) : Bitmap capacity × BitVec wordBits :=
  (List.range capacity).foldl
    (fun index slot =>
      if 0 < ladder.getD slot 0 then setBit index.1 index.2 slot else index)
    (Vector.replicate _ 0, 0)

/-- Derive both bitmaps and summaries from the ladders. -/
def rebuildIndex (book : BoundedBook capacity) : BoundedBook capacity :=
  let bidIndex := indexLadder book.bids
  let askIndex := indexLadder book.asks
  { book with
    bidBits := bidIndex.1
    askBits := askIndex.1
    bidSummary := bidIndex.2
    askSummary := askIndex.2
    bestBidIdx := highestSet bidIndex.1 bidIndex.2
    bestAskIdx := lowestSet askIndex.1 askIndex.2 }

/-! ### Moving the window -/

/-- A ladder read `shift` slots further up; slots that come from outside are empty. -/
def shiftLadder (ladder : Vector ℚ capacity) (shift : Int) : Vector ℚ capacity :=
  Vector.ofFn fun slot =>
    let src : Int := slot + shift
    if 0 ≤ src ∧ src < capacity then ladder.getD src.toNat 0 else 0

/-- Move the window to a new reference tick: the levels still inside keep their prices. -/
def rebase (book : BoundedBook capacity) (newRef : Int) : BoundedBook capacity :=
  let shift := newRef - book.refTick
  let shifted := { book with
    bids := shiftLadder book.bids shift
    asks := shiftLadder book.asks shift
    refTick := newRef }
  let indexed := shifted.rebuildIndex
  { indexed with rebaseCount := indexed.rebaseCount + 1 }

/-- The lower end of the touch. -/
def lo (book : BoundedBook capacity) : Int :=
  if 0 ≤ book.bestBidIdx ∧ book.bestAskIdx < capacity then min book.bestBidIdx book.bestAskIdx
  else if 0 ≤ book.bestBidIdx then book.bestBidIdx else book.bestAskIdx

/-- The upper end of the touch. -/
def hi (book : BoundedBook capacity) : Int :=
  if 0 ≤ book.bestBidIdx ∧ book.bestAskIdx < capacity then max book.bestBidIdx book.bestAskIdx
  else if book.bestAskIdx < capacity then book.bestAskIdx else book.bestBidIdx

/-- Move the window onto the touch once the touch is near an edge. -/
def recenterIfNearEdge (book : BoundedBook capacity) : BoundedBook capacity :=
  let haveBid := 0 ≤ book.bestBidIdx
  let haveAsk := book.bestAskIdx < capacity
  if ¬haveBid ∧ ¬haveAsk then book
  else if recenterMargin capacity ≤ book.lo ∧ book.hi < capacity - recenterMargin capacity then
    book
  else
    let newRef := book.refTick + ((book.lo + book.hi).tdiv 2 - center capacity)
    if newRef ≠ book.refTick then book.rebase newRef else book

/-! ### Updates and queries -/

/-- The slot a price falls on; outside `[0, capacity)` the window does not cover it. -/
def slotOf (book : BoundedBook capacity) (price : Price) : Int :=
  center capacity + (price.ticks - book.refTick)

/-- Write one slot of one ladder and bring that side's index up to date. -/
def writeSlot (book : BoundedBook capacity) (side : Side) (slot : Nat) (qty : Qty) :
    BoundedBook capacity :=
  match side with
  | .bid =>
    let bids := book.bids.setIfInBounds slot qty.value
    if 0 < qty.value then
      let index := setBit book.bidBits book.bidSummary slot
      { book with
        bids, bidBits := index.1, bidSummary := index.2
        bestBidIdx := if book.bestBidIdx < slot then slot else book.bestBidIdx }
    else
      let index := clearBit book.bidBits book.bidSummary slot
      { book with
        bids, bidBits := index.1, bidSummary := index.2
        bestBidIdx := if slot = book.bestBidIdx then highestSet index.1 index.2
          else book.bestBidIdx }
  | .ask =>
    let asks := book.asks.setIfInBounds slot qty.value
    if 0 < qty.value then
      let index := setBit book.askBits book.askSummary slot
      { book with
        asks, askBits := index.1, askSummary := index.2
        bestAskIdx := if slot < book.bestAskIdx then slot else book.bestAskIdx }
    else
      let index := clearBit book.askBits book.askSummary slot
      { book with
        asks, askBits := index.1, askSummary := index.2
        bestAskIdx := if slot = book.bestAskIdx then lowestSet index.1 index.2
          else book.bestAskIdx }

/-- The first price a cleared book sees anchors the window. -/
def anchor (book : BoundedBook capacity) (price : Price) : BoundedBook capacity :=
  if book.haveRef then book else { book with refTick := price.ticks, haveRef := true }

/-- An update outside the window returns before the recentering. -/
def update (book : BoundedBook capacity) (side : Side) (price : Price) (qty : Qty) :
    BoundedBook capacity :=
  let book := book.anchor price
  let idx := book.slotOf price
  if idx < 0 ∨ capacity ≤ idx then book
  else (book.writeSlot side idx.toNat qty).recenterIfNearEdge

/-- The tick a slot stands for. -/
def tickOf (book : BoundedBook capacity) (slot : Int) : Int :=
  book.refTick + (slot - center capacity)

/-- The best level of a side, if it lists one. -/
def topOfBook (book : BoundedBook capacity) : Side → Option PriceLevel
  | .bid =>
    if book.bestBidIdx < 0 then none
    else some ⟨Price.fromTicks (book.tickOf book.bestBidIdx),
      ⟨book.bids.getD book.bestBidIdx.toNat 0⟩⟩
  | .ask =>
    if capacity ≤ book.bestAskIdx then none
    else some ⟨Price.fromTicks (book.tickOf book.bestAskIdx),
      ⟨book.asks.getD book.bestAskIdx.toNat 0⟩⟩

/-- Collect up to `n` live bids from the slots below `slots`, downwards. -/
def collectBids (book : BoundedBook capacity) : (slots n : Nat) → List PriceLevel
  | 0, _ => []
  | _ + 1, 0 => []
  | slot + 1, n + 1 =>
    if 0 < book.bids.getD slot 0 then
      ⟨Price.fromTicks (book.tickOf slot), ⟨book.bids.getD slot 0⟩⟩ :: collectBids book slot n
    else collectBids book slot (n + 1)

/-- Collect up to `n` live asks from the last `slots` slots, upwards. -/
def collectAsks (book : BoundedBook capacity) : (slots n : Nat) → List PriceLevel
  | 0, _ => []
  | _ + 1, 0 => []
  | rest + 1, n + 1 =>
    let slot := capacity - (rest + 1)
    if 0 < book.asks.getD slot 0 then
      ⟨Price.fromTicks (book.tickOf slot), ⟨book.asks.getD slot 0⟩⟩ :: collectAsks book rest n
    else collectAsks book rest (n + 1)

/-- The `n` best levels of one side, best first; the scan starts at the cached best slot. -/
def depth (book : BoundedBook capacity) (side : Side) (n : Nat) : List PriceLevel :=
  match side with
  | .bid => book.collectBids (book.bestBidIdx + 1).toNat n
  | .ask => book.collectAsks (capacity - book.bestAskIdx).toNat n

/-! ### Runs of calls -/

/-- One call on the book. -/
inductive Call where
  | clear
  | seedReference (price : Price)
  | update (side : Side) (price : Price) (qty : Qty)
deriving DecidableEq, Repr

/-- Make one call on the book. -/
def call (book : BoundedBook capacity) : Call → BoundedBook capacity
  | .clear => book.clear
  | .seedReference price => book.seedReference price
  | .update side price qty => book.update side price qty

/-- The book a fresh one becomes after a sequence of calls. -/
def run (capacity : Nat) (calls : List Call) : BoundedBook capacity :=
  calls.foldl call (fresh capacity)

end BoundedBook

end Trading
