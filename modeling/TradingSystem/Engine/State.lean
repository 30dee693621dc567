import TradingSystem.Execution.Broker
import TradingSystem.Execution.PositionBook
import TradingSystem.Execution.Accounting
import TradingSystem.Costs.FundingWalk
import TradingSystem.Series.Board
import TradingSystem.Sizing.Sizing
import TradingSystem.Types.Clock
import TradingSystem.Types.Trade

/-!
# Runs: configuration, inputs, evidence rows and engine state

A `RunInput` is everything a run of the engine reads: its validated
configuration, cost model, candle history, funding feed, series and the
strategy's answer to each bar. The strategy and the money-management policy are
plugins, so their answers are inputs: a statement about every `RunInput` is a
statement about every strategy. The evidence sink is an input too: it may raise on a
row, and a statement about every `RunInput` is one about every sink.

`EngineState` is the mutable state of the candle loop. Evidence is a list of
typed rows; the rules of the sink's tables are modelled separately.
-/

namespace TradingSystem

open Numeric Logic

/-! ### Configuration -/

/-- How an entry is sized. -/
inductive SizingMethod
  | riskBased (riskPerTrade : Binary64)
  | pct (positionSizePct : Binary64)
deriving DecidableEq

/-- Whether a run risks a bounded fraction per trade. -/
def SizingMethod.isRiskBased : SizingMethod → Bool
  | riskBased _ => true
  | pct _ => false

/-- The range checks of the configuration. -/
def SizingMethod.Valid : SizingMethod → Prop
  | riskBased risk => Binary64.zero < risk ∧ risk ≤ onePercent
  | pct fraction => Binary64.zero < fraction ∧ fraction ≤ Binary64.ofRat 1

instance : (sizing : SizingMethod) → Decidable sizing.Valid
  | .riskBased risk => inferInstanceAs (Decidable (Binary64.zero < risk ∧ risk ≤ onePercent))
  | .pct fraction =>
    inferInstanceAs (Decidable (Binary64.zero < fraction ∧ fraction ≤ Binary64.ofRat 1))

/-- A validated run configuration. -/
structure RunConfig where
  symbol : String
  timeframe : Timeframe
  marketType : MarketType
  start : ℤ
  stop : ℤ
  initialCapital : Decimal
  sizing : SizingMethod
  symbol_ne : symbol ≠ ""
  start_lt_stop : start < stop
  initialCapital_pos : 0 < initialCapital
  sizing_valid : sizing.Valid

/-- `risk_per_trade or 0.0`. -/
def RunConfig.riskFraction (config : RunConfig) : Binary64 :=
  match config.sizing with
  | .riskBased risk => risk
  | .pct _ => Binary64.zero

/-! ### Evidence rows -/

/-- What a signal asks for, given the open position. -/
inductive Intent
  | enter | reverse | exit
deriving DecidableEq, Repr

inductive DecisionKind
  | enter | reverse | exit | skip
deriving DecidableEq, Repr

/-- A SIGNAL row. -/
structure SignalRow where
  signalId : ℕ
  decisionTs : ℤ
  candleOpenTime : ℤ
  candleCloseTime : ℤ
  signal : TradingSignal
  derivedIntent : Intent
  derivedSide : Option PositionSide
deriving DecidableEq

/-- A DECISION row. -/
structure DecisionRow where
  decisionId : ℕ
  signalId : Option ℕ
  decisionTs : ℤ
  action : DecisionKind
  skipReason : Option String
  intendedSide : Option PositionSide
  intendedQty : Option Binary64
  stopPrice : Option Binary64
  takeProfitPrice : Option Binary64
  riskAmount : Option Binary64
  stopDistance : Option Binary64
  frameworkCompliant : Bool
  plannedExecutionTs : Option ℤ
deriving DecidableEq

/-- An EXECUTION row. -/
structure ExecutionRow where
  executionId : ℕ
  decisionId : Option ℕ
  orderId : OrderId
  executionTs : ℤ
  symbol : String
  side : OrderSide
  positionSide : PositionSide
  referencePrice : Decimal
  price : Decimal
  quantity : Decimal
  notional : Decimal
  fee : Decimal
  slippage : Decimal
  reduceOnly : Bool
  exitReason : Option ExitReason
  gapFilled : Bool
  qtyTruncated : Bool
deriving DecidableEq

/-- A TRADE row: the trade and the executions that bound it. -/
structure TradeRow where
  tradeId : ℕ
  side : PositionSide
  entryExecutionId : ℕ
  exitExecutionId : ℕ
  trade : Trade
  rMultiple : Option Binary64
deriving DecidableEq

/-- A POSITION row; `held` is the marked position, if there is one. -/
structure PositionRow where
  positionSeq : ℕ
  tradeId : Option ℕ
  ts : ℤ
  symbol : String
  mark : Decimal
  held : Option Position
deriving DecidableEq

/-- A PORTFOLIO_PNL row. -/
structure PortfolioRow where
  equitySeq : ℕ
  ts : ℤ
  cashBalance : Decimal
  positionValue : Decimal
  totalEquity : Decimal
  unrealizedPnl : Decimal
  feeCum : Decimal
  slippageCum : Decimal
  fundingCum : Decimal
  peakEquity : Decimal
  drawdownPct : Binary64
  openPositions : ℕ
deriving DecidableEq

inductive FundingRateSource
  | measured | fallback
deriving DecidableEq, Repr

inductive SettlePriceSource
  | boundaryOpen | prevClose
deriving DecidableEq, Repr

/-- A FUNDING_SETTLEMENT row. -/
structure FundingRow where
  settlementId : ℕ
  tradeId : ℕ
  settledAt : ℤ
  symbol : String
  positionSide : PositionSide
  fundingRate : Binary64
  rateSource : FundingRateSource
  settlePrice : Decimal
  settlePriceSource : SettlePriceSource
  positionNotional : Decimal
  paymentAmount : Decimal
  theoreticalPaymentAmount : Decimal
deriving DecidableEq

/-- A CANDIDATE_EVENT row. -/
structure CandidateRow where
  candidateId : ℕ
  ts : ℤ
  symbol : String
  triggerRule : String
  passedFilters : List String
  blockedBy : Option String
  wouldBeSide : PositionSide
  wouldBeQty : Option Decimal
  realized : Bool
  linkedTradeId : Option ℕ
deriving DecidableEq

inductive FeaturePhase
  | entry | exit | mae | mfe
deriving DecidableEq, Repr

/-- The indicator values recorded with a trade phase. -/
abbrev Features := List (SeriesKey × SeriesValue)

/-- A TRADE_FEATURE_SNAPSHOT row. -/
structure FeatureRow where
  tfsId : ℕ
  tradeId : ℕ
  phase : FeaturePhase
  ts : ℤ
  features : Features
  excursionR : Option Binary64
deriving DecidableEq

/-- An INDICATOR_DEFINITION row: the series key it defines. -/
structure IndicatorDefinitionRow where
  indicatorKey : SeriesKey
  minHistory : ℕ
deriving DecidableEq

/-- An INDICATOR_SNAPSHOT row. -/
structure IndicatorSnapshotRow where
  snapshotSeq : ℕ
  indicatorKey : SeriesKey
  candleOpenTime : ℤ
  candleCloseTime : ℤ
  value : SeriesValue
deriving DecidableEq

/-- One recorded row. -/
inductive EvidenceRecord
  | signal (row : SignalRow)
  | decision (row : DecisionRow)
  | execution (row : ExecutionRow)
  | trade (row : TradeRow)
  | position (row : PositionRow)
  | portfolio (row : PortfolioRow)
  | funding (row : FundingRow)
  | candidate (row : CandidateRow)
  | feature (row : FeatureRow)
  | indicatorDefinition (row : IndicatorDefinitionRow)
  | indicatorSnapshot (row : IndicatorSnapshotRow)
deriving DecidableEq

/-- What an evidence sink does with a row, given those before it: take it or raise. The constraints
of the tables and the encoding of the columns are its own. -/
abbrev EvidenceSink := List EvidenceRecord → EvidenceRecord → Except Fault PUnit

/-- A sink that takes every row. -/
def openSink : EvidenceSink := fun _ _ => .ok ⟨⟩

/-! ### Inputs -/

/-- Everything a run reads. The history is the feed's reading of the run's own
symbol and timeframe, which the engine accepts only in strictly increasing order
and only for that symbol and timeframe; the feed cuts its buckets at whole seconds. -/
structure RunInput where
  config : RunConfig
  costModel : BacktestCostModel
  history : List Candle
  minuteHistory : List Candle
  funding : ℤ → Option Decimal
  series : SeriesSetup
  hasPolicy : Bool
  answers : ℕ → StrategyAnswer
  sink : EvidenceSink := openSink
  history_increasing : Increasing history
  history_symbol : ∀ candle ∈ history,
    candle.symbol = config.symbol ∧ candle.timeframe = config.timeframe
  history_milliseconds : ∀ candle ∈ history, WholeMillisecond candle.openTime
  costModel_marketType : costModel.marketType = config.marketType

/-- The candles of the evaluation period. -/
def RunInput.evaluation (input : RunInput) : List Candle :=
  input.history.filter fun candle =>
    input.config.start ≤ candle.openTime ∧ candle.closeTime ≤ input.config.stop

/-! ### Engine state -/

/-- An order carried to the next bar. -/
structure PendingOrder where
  request : OrderRequest
  decisionId : ℕ
  decisionCandle : Candle
  featureTs : ℤ
  decisionTs : ℤ
  exitReason : Option ExitReason
  signal : Option TradingSignal
  candidateId : Option ℕ
deriving DecidableEq

/-- An extreme of an open trade: profit, time, indicator values and R multiple. -/
structure Excursion where
  pnl : Decimal
  ts : ℤ
  features : Features
  r : Option Decimal
deriving DecidableEq

/-- The trade that is open. -/
structure ActiveTrade where
  tradeId : ℕ
  entryExecutionId : ℕ
  entryFill : Fill
  signal : TradingSignal
  r0 : Option Decimal
  candidateId : Option ℕ
  totalFee : Decimal
  slippage : Decimal
  funding : Decimal
  positionRecords : List PositionRow
  fundingRecords : List FundingRow
  settledBoundaries : List ℤ
  entryFeatures : Features
  mae : Option Excursion
  mfe : Option Excursion
deriving DecidableEq

/-- The evidence counters. -/
inductive Counter
  | signal | decision | execution | trade | position | equity | candidate | tfs | settlement
  | indicatorSnapshot | brokerOrder
deriving DecidableEq

/-- The mutable state of the candle loop. -/
structure EngineState where
  pending : List PendingOrder
  book : PositionBook
  cash : Decimal
  equityCurve : List (ℤ × Decimal)
  trades : List Trade
  activeTrade : Option ActiveTrade
  protection : Matcher.Protection
  sequence : Counter → ℕ
  records : List EvidenceRecord
  board : SeriesBoard
  dataGapExitCount : ℕ

end TradingSystem
