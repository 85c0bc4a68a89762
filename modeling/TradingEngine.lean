import TradingEngine.Lib.BitScan
import TradingEngine.Lib.Fairness
import TradingEngine.Lib.JsonLibrary
import TradingEngine.Lib.JsonTree
import TradingEngine.Lib.LogBuckets
import TradingEngine.Lib.MovingWindow
import TradingEngine.Lib.Publication
import TradingEngine.Lib.Ranks
import TradingEngine.Lib.RelativeError
import TradingEngine.Lib.RingBuffer
import TradingEngine.Lib.Rounding
import TradingEngine.Lib.Slices
import TradingEngine.Lib.Slots
import TradingEngine.Lib.Spacing
import TradingEngine.Lib.Strtod
import TradingEngine.Lib.Transition
import TradingEngine.Types
import TradingEngine.BoundedBook
import TradingEngine.BookIndex
import TradingEngine.BookLevels
import TradingEngine.BookTouch
import TradingEngine.BookDepth
import TradingEngine.ReferenceBook
import TradingEngine.BookHistory
import TradingEngine.Orders
import TradingEngine.OrderSizer
import TradingEngine.ExecutionEngine
import TradingEngine.RiskManager
import TradingEngine.CircuitBreaker
import TradingEngine.PnlTracker
import TradingEngine.ImbalanceStrategy
import TradingEngine.Metrics
import TradingEngine.Histogram
import TradingEngine.Percentiles
import TradingEngine.HistogramReads
import TradingEngine.Runtime
import TradingEngine.RuntimeBook
import TradingEngine.Desk
import TradingEngine.RiskLimits
import TradingEngine.SizedOrders
import TradingEngine.SizerLimit
import TradingEngine.SimulatedFills
import TradingEngine.Smoothing
import TradingEngine.StrategyOrders
import TradingEngine.OrderPath
import TradingEngine.Ledgers
import TradingEngine.Positions
import TradingEngine.OrderCounters
import TradingEngine.BreakerRuns
import TradingEngine.BreakerTrace
import TradingEngine.EntryCash
import TradingEngine.PnlIdentity
import TradingEngine.AverageEntry
import TradingEngine.FillLaws
import TradingEngine.Divisors
import TradingEngine.SymbolIsolation
import TradingEngine.BookWrites
import TradingEngine.BidScan
import TradingEngine.SnapshotTouch
import TradingEngine.Feed
import TradingEngine.CoinbaseParser
import TradingEngine.ParserGrammar
import TradingEngine.Threads
import TradingEngine.OneConnection
import TradingEngine.Pipeline
import TradingEngine.FeedOrder
import TradingEngine.Fidelity
import TradingEngine.Chunking
import TradingEngine.WireFeed
import TradingEngine.TickRange
import TradingEngine.Stretches
import TradingEngine.Reconnect
import TradingEngine.Shutdown
import TradingEngine.StopReturns
import TradingEngine.FeedCounters
import TradingEngine.TradingSteps
import TradingEngine.Reports
import TradingEngine.Progress
import TradingEngine.StrategyUpdates
import TradingEngine.OrderHistory
import TradingEngine.ExitOrders
import TradingEngine.WsClient
import TradingEngine.WsTimers
import TradingEngine.LoadConfig
import TradingEngine.SpscQueue
import TradingEngine.QueueOrder
import TradingEngine.QueueSize
import TradingEngine.RingedSystem
import TradingEngine.Logger
import TradingEngine.LoggerDrops
import TradingEngine.LoggerRecords
import TradingEngine.LoggerStop
