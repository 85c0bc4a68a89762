/-
This file is the order-book-imbalance strategy of `imbalance_strategy.hpp` and
`imbalance_strategy.cpp`. A smoothed size imbalance opens a position when flat, and only a
take-profit or a stop-loss closes it.

`onMarketUpdate` is cut where the source returns: an update that finds an empty, crossed
or sizeless book changes nothing; one that gets past these checks records an imbalance,
and is passed over if it is the first after a reconnect; then the exit is decided while a
position is held, and the entry while none is. Numbers are rationals. The one quotient
that a rational has no value for, the move since an average entry of zero, is infinite in
the source, and is decided by the sign of the gain here.
-/

import TradingEngine.OrderSizer
import TradingEngine.PnlTracker

namespace Trading

/-- `MAX_DEPTH`, the most levels of a side that are summed. -/
def maxDepth : Nat := 32

/-- `MAX_ROLLING`, the most samples the smoothing averages over. -/
def maxRolling : Nat := 32

/-- Trades the smoothed imbalance of the quantities on both sides, and keeps the position it trades.
-/
structure ImbalanceStrategy where
  params : StrategyParams
  symbol : SymbolId
  tickSize : ℚ
  rolling : Vector ℚ maxRolling
  rollingCount : Nat
  rollingHead : Nat
  pnl : PnlTracker
  lastTradeNs : Timestamp
  skipNextSignal : Bool
deriving DecidableEq

namespace ImbalanceStrategy

/-- The constructor's clamp of a parameter into `[1, bound]`. -/
def clamp (value bound : Nat) : Nat :=
  let raised := if value = 0 then 1 else value
  if bound < raised then bound else raised

/-- The constructor. -/
def create (params : StrategyParams) : ImbalanceStrategy where
  params := { params with
    smoothingWindow := clamp params.smoothingWindow maxRolling
    depthLevels := clamp params.depthLevels maxDepth }
  symbol := invalidSymbolId
  tickSize := 0
  rolling := Vector.replicate _ 0
  rollingCount := 0
  rollingHead := 0
  pnl := PnlTracker.fresh
  lastTradeNs := 0
  skipNextSignal := false

/-- Choose what is traded, and on which grid. -/
def setSymbol (strategy : ImbalanceStrategy) (id : SymbolId) (tickSize : ℚ) : ImbalanceStrategy :=
  { strategy with symbol := id, tickSize }

/-- Seed the cash of the symbol. -/
def setInitialCash (strategy : ImbalanceStrategy) (cash : ℚ) : ImbalanceStrategy :=
  if strategy.symbol < maxSymbols then
    { strategy with pnl := strategy.pnl.seedCash strategy.symbol cash }
  else strategy

/-- The state of the strategy's own symbol. -/
def state (strategy : ImbalanceStrategy) : PnlState :=
  if strategy.symbol < maxSymbols then strategy.pnl.state strategy.symbol else {}

/-- The cash of the symbol. -/
def cash (strategy : ImbalanceStrategy) : ℚ := strategy.state.cash

/-- The position in the symbol. -/
def position (strategy : ImbalanceStrategy) : ℚ := strategy.state.position

/-- The average price the position was entered at. -/
def avgEntry (strategy : ImbalanceStrategy) : ℚ := strategy.state.avgEntry

/-- What was gained on the positions that were closed. -/
def realized (strategy : ImbalanceStrategy) : ℚ := strategy.state.realized

/-- Book a fill. -/
def onFill (strategy : ImbalanceStrategy) (report : ExecutionReport) : ImbalanceStrategy :=
  { strategy with pnl := strategy.pnl.onFill report strategy.tickSize }

/-- Forget the samples of the old connection, and skip the first signal of the new one. -/
def onReconnect (strategy : ImbalanceStrategy) : ImbalanceStrategy :=
  { strategy with rollingCount := 0, rollingHead := 0, skipNextSignal := true }

/-- Stamp an actionable signal and start the cooldown. -/
def emit (strategy : ImbalanceStrategy) (signal : Signal) (now : Timestamp) :
    Signal × ImbalanceStrategy :=
  if !signal.isActionable then (Signal.none, strategy)
  else ({ signal with ts := now }, { strategy with lastTradeNs := now })

/-- The total size of some levels. -/
def totalSize (levels : List PriceLevel) : ℚ :=
  levels.foldl (fun size level => size + level.qty.value) 0

/-- Put one imbalance into the ring. -/
def record (strategy : ImbalanceStrategy) (imbalance : ℚ) : ImbalanceStrategy :=
  { strategy with
    rolling := strategy.rolling.setIfInBounds strategy.rollingHead imbalance
    rollingHead := (strategy.rollingHead + 1) % strategy.params.smoothingWindow
    rollingCount := if strategy.rollingCount < strategy.params.smoothingWindow
      then strategy.rollingCount + 1 else strategy.rollingCount }

/-- The mean of the filled part of the ring. -/
def smoothed (strategy : ImbalanceStrategy) : ℚ :=
  (List.range strategy.rollingCount).foldl (fun sum slot => sum + strategy.rolling.getD slot 0) 0 /
    strategy.rollingCount

/-- Whether the move since entry reaches the take-profit or the stop-loss. The move is the gain
over the average entry, in basis points. After an entry at zero the quotient is infinite, upwards
or downwards, and so out of all bounds, unless there is no gain to divide: that is no number, and
within every bound. -/
def exits (params : StrategyParams) (gain avgEntry : ℚ) : Bool :=
  if avgEntry = 0 then gain ≠ 0
  else
    let moveBps := gain / avgEntry * 10 ^ 4
    params.takeProfitBps ≤ moveBps ∨ moveBps ≤ -params.stopLossBps

/-- The trading decision, once the sample is recorded: exits while holding, entries when
flat. Around a mid of zero the spread is infinite and nothing is entered; here the order that
would be sized by the mid has size zero, and is none. -/
def decision [DoubleDivision] {capacity : Nat} (strategy : ImbalanceStrategy)
    (book : BoundedBook capacity) (now : Timestamp) (bestBid bestAsk : ℚ) :
    Signal × ImbalanceStrategy :=
  let mid := (bestBid + bestAsk) * (1 / 2)
  let spreadBps := (bestAsk - bestBid) / mid * 10 ^ 4
  let pnl := strategy.state
  if 0 < pnl.position then
    if exits strategy.params (bestBid - pnl.avgEntry) pnl.avgEntry then
      strategy.emit (OrderSizer.computeOrder book strategy.tickSize .ask pnl.position) now
    else (Signal.none, strategy)
  else if pnl.position < 0 then
    if exits strategy.params (pnl.avgEntry - bestAsk) pnl.avgEntry then
      strategy.emit (OrderSizer.computeOrder book strategy.tickSize .bid (-pnl.position)) now
    else (Signal.none, strategy)
  else
    let secsSinceTrade : ℚ := (now - strategy.lastTradeNs : Int) / 10 ^ 9
    if secsSinceTrade < strategy.params.cooldownS then (Signal.none, strategy)
    else if strategy.params.maxSpreadBps < spreadBps then (Signal.none, strategy)
    else if pnl.cash ≤ 0 then (Signal.none, strategy)
    else
      let targetQty := strategy.params.tradeFraction * pnl.cash / mid
      if strategy.params.entryImbalance < strategy.smoothed then
        strategy.emit (OrderSizer.computeOrder book strategy.tickSize .bid targetQty) now
      else if strategy.params.allowShort ∧
          strategy.smoothed < -strategy.params.entryImbalance then
        strategy.emit (OrderSizer.computeOrder book strategy.tickSize .ask targetQty) now
      else (Signal.none, strategy)

/-- One market update: record the imbalance of the book, then decide. -/
def onMarketUpdate [DoubleDivision] {capacity : Nat} (strategy : ImbalanceStrategy)
    (book : BoundedBook capacity) (now : Timestamp) : Signal × ImbalanceStrategy :=
  match book.depth .bid strategy.params.depthLevels,
      book.depth .ask strategy.params.depthLevels with
  | bid :: bids, ask :: asks =>
    let bestBid := bid.price.toDouble strategy.tickSize
    let bestAsk := ask.price.toDouble strategy.tickSize
    if bestAsk ≤ bestBid then (Signal.none, strategy)
    else
      let bidSz := totalSize (bid :: bids)
      let askSz := totalSize (ask :: asks)
      let denom := bidSz + askSz
      if denom ≤ 0 then (Signal.none, strategy)
      else
        let recorded := strategy.record ((bidSz - askSz) / denom)
        if recorded.skipNextSignal then
          (Signal.none, { recorded with skipNextSignal := false })
        else recorded.decision book now bestBid bestAsk
  | _, _ => (Signal.none, strategy)

end ImbalanceStrategy

end Trading
