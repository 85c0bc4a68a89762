/-
This file is the latency histogram of `hdr_histogram.hpp` and the counters of
`metrics.hpp`. A histogram value is a 64-bit word; each power-of-two octave above the
linear part is split into `subCount` cells.

Here the operations are those of one thread, each at once; that another thread reads while
one records is the subject of `HistogramReads`. The cells and counters are natural
numbers, the sum and the largest value are words, as their wrapping and their order are
visible in what is reported. A percentage is exact, and `percentileNs` keeps the source's
rounding down of the rank, its least rank of one and its cut at the largest value.
-/

import TradingEngine.Lib.BitScan
import TradingEngine.Lib.Slots
import TradingEngine.Types

namespace Trading

namespace HdrHistogram

/-- `SUB_BITS`, how many bits below the highest one a cell tells apart. -/
def subBits : Nat := 5

/-- `SUB_COUNT`, the number of cells of one power of two. -/
def subCount : Nat := 2 ^ subBits

/-- `NUM_CELLS`, the number of cells in all. -/
def numCells : Nat := 64 * subCount

end HdrHistogram

/-- Counts durations in cells whose width grows with the duration. -/
structure HdrHistogram where
  counts : Vector Nat HdrHistogram.numCells
  count : Nat
  sum : BitVec 64
  max : BitVec 64
deriving DecidableEq

namespace HdrHistogram

/-- A histogram nothing was recorded in. -/
def fresh : HdrHistogram := ⟨Vector.replicate _ 0, 0, 0, 0⟩

/-- The cell of a value. -/
def indexFor (v : BitVec 64) : Nat :=
  if v.toNat < subCount then v.toNat
  else
    let exp := BitScan.highestBit v
    let octave := exp - subBits
    let sub := (v >>> octave).toNat - subCount
    let idx := subCount * (octave + 1) + sub
    if idx < numCells then idx else numCells - 1

/-- The middle of a cell. -/
def valueAt (idx : Nat) : Int :=
  if idx < subCount then idx
  else
    let rel := idx - subCount
    let octave := rel / subCount
    let sub := rel % subCount
    let lowerEdge := BitVec.ofNat 64 (subCount + sub) <<< octave
    let halfWidth := (1#64 <<< octave) >>> 1
    (lowerEdge + halfWidth).toInt

/-- Record a duration; a negative one counts as 0. -/
def recordNs (histogram : HdrHistogram) (ns : Int) : HdrHistogram :=
  let v := BitVec.ofInt 64 (if ns < 0 then 0 else ns)
  let cell := indexFor v
  { counts := histogram.counts.setIfInBounds cell (histogram.counts.getD cell 0 + 1)
    count := histogram.count + 1
    sum := histogram.sum + v
    max := if histogram.max < v then v else histogram.max }

/-- The first cell at which the cumulative count reaches a target. -/
def findCell (histogram : HdrHistogram) (target : Nat) : (cells cum : Nat) → Option Nat
  | 0, _ => none
  | rest + 1, cum =>
    let cell := numCells - (rest + 1)
    let cum := cum + histogram.counts.getD cell 0
    if target ≤ cum then some cell else histogram.findCell target rest cum

/-- The floor of the cell the percentile falls into, at most the maximum; 0 if nothing was recorded.
-/
def percentileNs (histogram : HdrHistogram) (pct : ℚ) : Int :=
  if histogram.count = 0 then 0
  else
    let floored := ⌊pct / 100 * histogram.count⌋.toNat
    let target := if floored = 0 then 1 else floored
    let mx := histogram.max.toInt
    match histogram.findCell target numCells 0 with
    | some cell => if valueAt cell < mx then valueAt cell else mx
    | none => mx

end HdrHistogram

/-- The counters and histograms the two threads and the reporter share. -/
structure Metrics where
  wireToParse : HdrHistogram := HdrHistogram.fresh
  parseToBook : HdrHistogram := HdrHistogram.fresh
  bookToSignal : HdrHistogram := HdrHistogram.fresh
  signalToOrder : HdrHistogram := HdrHistogram.fresh
  orderToFill : HdrHistogram := HdrHistogram.fresh
  tickToSignal : HdrHistogram := HdrHistogram.fresh
  queueDepth : HdrHistogram := HdrHistogram.fresh
  msgsReceived : Nat := 0
  parseErrors : Nat := 0
  reconnects : Nat := 0
  heartbeatsRecv : Nat := 0
  signalsGenerated : Nat := 0
  ordersSent : Nat := 0
  ordersApproved : Nat := 0
  ordersRejected : Nat := 0
  fills : Nat := 0
  partialFills : Nat := 0
  circuitBlocked : Nat := 0
  queueFullDrops : Nat := 0
  preSnapshotDrops : Nat := 0
deriving DecidableEq

end Trading
