import TradingSystem.Catalog.Declarations
import TradingSystem.Catalog.Reconciliation
import TradingSystem.Collector.Backfill
import TradingSystem.Collector.GapDetection
import TradingSystem.Costs.CostModel
import TradingSystem.Costs.Funding
import TradingSystem.Costs.FundingWalk
import TradingSystem.Costs.Liquidation
import TradingSystem.Data.FirstLeast
import TradingSystem.Data.Json
import TradingSystem.Data.KeysetPages
import TradingSystem.Data.LongestRun
import TradingSystem.Data.PlainNumber
import TradingSystem.Data.Runs
import TradingSystem.Data.Separated
import TradingSystem.Data.SortedUnique
import TradingSystem.Engine.CarriedExit
import TradingSystem.Engine.CloseContinuity
import TradingSystem.Engine.CloseEffects
import TradingSystem.Engine.Coherence
import TradingSystem.Engine.Effects
import TradingSystem.Engine.EntryAcceptance
import TradingSystem.Engine.EntryOrder
import TradingSystem.Engine.EquityCurve
import TradingSystem.Engine.ExitRoundTrip
import TradingSystem.Engine.FillAtomicity
import TradingSystem.Engine.FundingLedger
import TradingSystem.Engine.FundingRun
import TradingSystem.Engine.FundingSteps
import TradingSystem.Engine.Indicators
import TradingSystem.Engine.Journal
import TradingSystem.Engine.JournalAnswer
import TradingSystem.Engine.JournalClose
import TradingSystem.Engine.JournalFills
import TradingSystem.Engine.JournalOpen
import TradingSystem.Engine.JournalRun
import TradingSystem.Engine.Ledger
import TradingSystem.Engine.Lookahead
import TradingSystem.Engine.Moves
import TradingSystem.Engine.Numbering
import TradingSystem.Engine.PhaseSteps
import TradingSystem.Engine.Preservation
import TradingSystem.Engine.QueueEffects
import TradingSystem.Engine.RiskCap
import TradingSystem.Engine.Run
import TradingSystem.Engine.RunCoherence
import TradingSystem.Engine.RunInvariant
import TradingSystem.Engine.Simulation
import TradingSystem.Engine.State
import TradingSystem.Engine.Step
import TradingSystem.Engine.StepEffects
import TradingSystem.Engine.Strategy
import TradingSystem.Engine.TimeOrder
import TradingSystem.Engine.Timeline
import TradingSystem.Evidence.Acceptance
import TradingSystem.Evidence.CanonicalJson
import TradingSystem.Evidence.Episodes
import TradingSystem.Evidence.FundingAudit
import TradingSystem.Evidence.GapContract
import TradingSystem.Evidence.GapExactness
import TradingSystem.Evidence.GapStats
import TradingSystem.Evidence.GridAudit
import TradingSystem.Evidence.HashTables
import TradingSystem.Evidence.IndicatorAudit
import TradingSystem.Evidence.NormalizedBytes
import TradingSystem.Evidence.PositionGrid
import TradingSystem.Evidence.RunEpisodes
import TradingSystem.Evidence.Schema
import TradingSystem.Evidence.SlippageAudit
import TradingSystem.Evidence.SourceAudit
import TradingSystem.Evidence.TableSink
import TradingSystem.Evidence.TradeCosts
import TradingSystem.Evidence.TradeFeatures
import TradingSystem.Execution.Accounting
import TradingSystem.Execution.Affordability
import TradingSystem.Execution.AffordableSearch
import TradingSystem.Execution.Broker
import TradingSystem.Execution.CachedProfit
import TradingSystem.Execution.Fills
import TradingSystem.Execution.FreeEntry
import TradingSystem.Execution.FundedLevel
import TradingSystem.Execution.Increase
import TradingSystem.Execution.MarginConservation
import TradingSystem.Execution.Matcher
import TradingSystem.Execution.Matching
import TradingSystem.Execution.PositionBook
import TradingSystem.Execution.SpotLiquidation
import TradingSystem.Execution.TriggerOrder
import TradingSystem.Execution.Truncation
import TradingSystem.Harness.Segments
import TradingSystem.Indicators.Averages
import TradingSystem.Indicators.Bounds
import TradingSystem.Indicators.Choppiness
import TradingSystem.Indicators.Composed
import TradingSystem.Indicators.Coppock
import TradingSystem.Indicators.Filters
import TradingSystem.Indicators.Histories
import TradingSystem.Indicators.Klinger
import TradingSystem.Indicators.Momentum
import TradingSystem.Indicators.OscillatorHistory
import TradingSystem.Indicators.Oscillators
import TradingSystem.Indicators.ParabolicSar
import TradingSystem.Indicators.Primitives
import TradingSystem.Indicators.RollingWindow
import TradingSystem.Indicators.Strength
import TradingSystem.Indicators.SuperTrend
import TradingSystem.Indicators.SystemHistory
import TradingSystem.Indicators.Systems
import TradingSystem.Indicators.Trend
import TradingSystem.Indicators.TrendHistory
import TradingSystem.Indicators.WarmUp
import TradingSystem.Indicators.Welford
import TradingSystem.Logic.Frame
import TradingSystem.Logic.Journal
import TradingSystem.Logic.MapM
import TradingSystem.Logic.Preserve
import TradingSystem.Logic.Program
import TradingSystem.Logic.Transition
import TradingSystem.Logic.Watermark
import TradingSystem.MoneyManagement.Policies
import TradingSystem.MoneyManagement.StopFirst
import TradingSystem.Numeric.Binary64
import TradingSystem.Numeric.BinaryFloat
import TradingSystem.Numeric.BinarySearch
import TradingSystem.Numeric.DecimalDigits
import TradingSystem.Numeric.EvenSplit
import TradingSystem.Numeric.HalfEven
import TradingSystem.Numeric.ShortestDecimal
import TradingSystem.Patterns.AverageState
import TradingSystem.Patterns.CandleAverage
import TradingSystem.Patterns.Hikkake
import TradingSystem.Patterns.HikkakeHistory
import TradingSystem.Patterns.HikkakeTotals
import TradingSystem.Resampling.CandleReads
import TradingSystem.Resampling.Exactness
import TradingSystem.Resampling.FlooredRead
import TradingSystem.Resampling.Resample
import TradingSystem.Series.Board
import TradingSystem.Series.BoundedRead
import TradingSystem.Series.CandleFeed
import TradingSystem.Series.History
import TradingSystem.Series.Keys
import TradingSystem.Series.Resolution
import TradingSystem.Series.Sources
import TradingSystem.Series.WarmUp
import TradingSystem.SignalService.Feed
import TradingSystem.SignalService.GapAccounting
import TradingSystem.SignalService.Lookahead
import TradingSystem.SignalService.Market
import TradingSystem.SignalService.Recovery
import TradingSystem.SignalService.Service
import TradingSystem.SignalService.TwoRuns
import TradingSystem.Sizing.Sizing
import TradingSystem.Sizing.TurtleN
import TradingSystem.Streaming.Smoothing
import TradingSystem.Streaming.Transducer
import TradingSystem.Streaming.Window
import TradingSystem.Types.Candle
import TradingSystem.Types.Clock
import TradingSystem.Types.DecimalContext
import TradingSystem.Types.Enums
import TradingSystem.Types.Money
import TradingSystem.Types.Order
import TradingSystem.Types.OrderLifecycle
import TradingSystem.Types.Position
import TradingSystem.Types.PositionContext
import TradingSystem.Types.Signal
import TradingSystem.Types.Trade
import TradingSystem.Wallet.Agreement
import TradingSystem.Wallet.Ledger
import TradingSystem.Wallet.Ordering
import TradingSystem.Wallet.Persistence
import TradingSystem.Wallet.Resample
import TradingSystem.Wallet.Restart
import TradingSystem.Wallet.Service
import TradingSystem.Wallet.SignalQueue
import TradingSystem.WebApi.DataJobs
import TradingSystem.WebApi.EvidenceEndpoints
import TradingSystem.WebApi.EvidencePages
import TradingSystem.WebApi.Registry
import TradingSystem.WebApi.Shutdown
import TradingSystem.WebApi.Subscribers
