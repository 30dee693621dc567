import TradingSystem.Engine.State

/-!
# Fills, trades and funding of a run

The operations that move money: applying a fill to cash, book and active trade,
completing a trade, tracking its extremes and settling funding. All of them are
programs over `EngineState`; the position book runs on its component through
`onBook`.

`applyFill` is split into its entry branch (`applyEntry`, `openTrade`) and its exit
branch (`applyExit`, `completeTrade`), as the source is by its early return.
-/

namespace TradingSystem

open Numeric Logic

/-- A program of the candle loop. -/
abbrev EngineProgram (α : Type) := Program Fault EngineState α

namespace Engine

variable (input : RunInput)

/-! ### Counters, rows and lookups -/

/-- `_next`: advance a counter and return it. -/
def next (counter : Counter) : EngineProgram ℕ := do
  modify fun state => { state with
    sequence := Function.update state.sequence counter (state.sequence counter + 1) }
  let state ← get
  return state.sequence counter

/-- `evidence.record`: the sink takes the row or raises. -/
def record (row : EvidenceRecord) : EngineProgram PUnit := do
  let state ← get
  runPure (input.sink state.records row)
  modify fun state => { state with records := state.records ++ [row] }

/-- Run a book operation on the state's book. -/
def onBook {α : Type} (operation : Program Fault PositionBook α) : EngineProgram α :=
  zoom EngineState.book (fun book state => { state with book := book }) operation

/-- `_current_position` of a book. -/
def positionOf (book : PositionBook) : Except Fault (Option Position) :=
  match book (input.config.symbol, .long), book (input.config.symbol, .short) with
  | some _, some _ => .error (.valueError "Engine supports one directional position at a time")
  | some position, none => .ok (some position)
  | none, held => .ok held

def currentPosition : EngineProgram (Option Position) := do
  let state ← get
  runPure (positionOf input state.book)

/-- `_leverage`: a missing leverage is one. -/
def leverageOf (signal : Option TradingSignal) : ℕ :=
  match signal with
  | none => 1
  | some signal => signal.leverage.getD 1

/-- `_checked_cash`: normalize a cash value and reject a negative one. -/
def checkedCash (value : Decimal) (context : String) : Except Fault Decimal := do
  let normalized := quantizeAmount value
  require (0 ≤ normalized) (.valueError (context ++ " would make cash negative"))
  return normalized

def maintenanceMarginRate : Except Fault Decimal := do
  let value := input.costModel.maintenanceMarginRate
  require (0 ≤ value ∧ value < 1) (.valueError "maintenance_margin_rate must be in [0, 1)")
  return value

def currentEquity : EngineProgram Decimal := do
  let position ← currentPosition input
  let state ← get
  return recompute state.cash position

/-! ### Entries -/

/-- The cash an entry leaves: margin (notional for spot) and fee are taken. -/
def projectedEntryCash (cash : Decimal) (fill : Fill) (leverage : ℕ) : Decimal :=
  let notional := quantizeAmount (fill.price * fill.quantity)
  let addedMargin :=
    match input.config.marketType with
    | .futures => quantizeAmount (notional / leverage)
    | .spot => notional
  quantizeAmount (cash - addedMargin - fill.fee)

/-- The EXECUTION row of a fill. -/
def executionRow (executionId : ℕ) (decisionId : Option ℕ) (fill : Fill) : ExecutionRow where
  executionId := executionId
  decisionId := decisionId
  orderId := fill.orderId
  executionTs := fill.timestamp
  symbol := fill.symbol
  side := fill.side
  positionSide := fill.positionSide
  referencePrice := fill.referencePrice
  price := fill.price
  quantity := fill.quantity
  notional := quantizeAmount (fill.price * fill.quantity)
  fee := fill.fee
  slippage := fill.slippage
  reduceOnly := fill.reduceOnly
  exitReason := fill.exitReason
  gapFilled := fill.gapFilled
  qtyTruncated := fill.qtyTruncated

/-- The initial risk of a trade: distance from the reference price to the signal's
stop, times the quantity. -/
def initialRisk (fill : Fill) (signal : TradingSignal) : Option Decimal :=
  signal.stopLoss.map fun stopLoss =>
    quantizeAmount (|fill.referencePrice - toDecimal stopLoss| * fill.quantity)

/-- The active trade a first entry fill starts. -/
def startedTrade (tradeId executionId : ℕ) (fill : Fill) (signal : TradingSignal)
    (candidateId : Option ℕ) (features : Features) : ActiveTrade where
  tradeId := tradeId
  entryExecutionId := executionId
  entryFill := fill
  signal := signal
  r0 := initialRisk fill signal
  candidateId := candidateId
  totalFee := fill.fee
  slippage := fill.slippage
  funding := quantizeAmount 0
  positionRecords := []
  fundingRecords := []
  settledBoundaries := []
  entryFeatures := features
  mae := none
  mfe := none

/-- The protection levels of a signal. -/
def protectionOf (signal : TradingSignal) : Matcher.Protection where
  stopPrice := signal.stopLoss.map toDecimal
  takeProfitPrice := signal.takeProfit.map toDecimal

/-- Start the trade of a first entry fill and its protection. -/
def openTrade (fill : Fill) (executionId : ℕ) (signal : TradingSignal) (candidateId : Option ℕ) :
    EngineProgram PUnit := do
  let tradeId ← next .trade
  modify fun state => { state with
    activeTrade := some (startedTrade tradeId executionId fill signal candidateId
      (state.board.features input.series.specs))
    protection := protectionOf signal }

/-- Book the costs of a further fill on the active trade. -/
def ActiveTrade.addCosts (active : ActiveTrade) (fill : Fill) : ActiveTrade :=
  { active with
    totalFee := quantizeAmount (active.totalFee + fill.fee)
    slippage := quantizeAmount (active.slippage + fill.slippage) }

/-- The liquidation price of a fresh position; zero for spot. -/
def entryLiquidationPrice (fill : Fill) (leverage : ℕ) : Except Fault Decimal :=
  match input.config.marketType with
  | .futures => do
    let mmr ← maintenanceMarginRate input
    liquidationPrice fill.price leverage mmr fill.positionSide
  | .spot => .ok 0

/-- The active trade after an entry fill. -/
def recordEntry (fill : Fill) (executionId : ℕ) (signal : Option TradingSignal)
    (candidateId : Option ℕ) : EngineProgram PUnit := do
  let state ← get
  match state.activeTrade with
  | some active => set { state with activeTrade := some (ActiveTrade.addCosts active fill) }
  | none =>
    match signal with
    | none => throw (.valueError "entry fills require their originating signal")
    | some signal => openTrade input fill executionId signal candidateId

/-- The entry branch of `_apply_fill`. -/
def applyEntry (fill : Fill) (positionBefore : Option Position) (projected : Decimal)
    (executionId : ℕ) (signal : Option TradingSignal) (candidateId : Option ℕ) :
    EngineProgram PUnit := do
  let leverage := leverageOf signal
  let liquidation ← runPure (entryLiquidationPrice input fill leverage)
  onBook (PositionBook.apply fill (some leverage) (some .isolated) input.config.marketType
    liquidation)
  let positionAfter ← currentPosition input
  match positionAfter with
  | none => throw .assertionError
  | some positionAfter => do
    let beforeMargin := (positionBefore.map (·.margin)).getD 0
    let addedMargin := quantizeAmount (positionAfter.margin - beforeMargin)
    let state ← get
    let actualCash := quantizeAmount (state.cash - addedMargin - fill.fee)
    raiseUnless (actualCash = projected)
      (.runtimeError "entry cash projection diverged from position accounting")
    let nextCash ← runPure (checkedCash actualCash "entry fill")
    modify fun state => { state with cash := nextCash }
    recordEntry input fill executionId signal candidateId

/-! ### Completed trades -/

/-- `value / 0` raises. -/
def divide (value divisor : Decimal) : Except Fault Decimal :=
  if divisor = 0 then .error .zeroDivision else .ok (value / divisor)

/-- `_complete_trade`, the trade itself. -/
def completedTrade (active : ActiveTrade) (exitFill : Fill) : Except Fault Trade := do
  let referenceDelta :=
    if active.entryFill.positionSide = .long then
      exitFill.referencePrice - active.entryFill.referencePrice
    else active.entryFill.referencePrice - exitFill.referencePrice
  let gross := quantizeAmount (referenceDelta * exitFill.quantity)
  let penalty := quantizeAmount 0
  let net := quantizeAmount (gross - active.totalFee - active.slippage - active.funding - penalty)
  let basis := quantizeAmount (active.entryFill.referencePrice * active.entryFill.quantity)
  let ratio ← divide net basis
  let exitReason := exitFill.exitReason.getD .signalExit
  Trade.postInit {
    symbol := exitFill.symbol
    side := active.entryFill.side
    marketType := input.config.marketType
    entryPrice := active.entryFill.referencePrice
    entryQuantity := active.entryFill.quantity
    entryTime := active.entryFill.timestamp
    exitPrice := exitFill.referencePrice
    exitQuantity := exitFill.quantity
    exitTime := exitFill.timestamp
    exitReason := exitReason
    grossPnl := gross
    totalFee := active.totalFee
    slippage := active.slippage
    fundingCost := active.funding
    liquidationPenalty := penalty
    netPnl := net
    returnPct := quantizePercent (ratio * 100)
    r0 := active.r0
    leverage := leverageOf (some active.signal)
    liquidated := decide (exitReason = .liquidation)
    holdDurationSeconds := (exitFill.timestamp - active.entryFill.timestamp).tdiv Instant.second
    signalConfidence := active.signal.confidence
    reason := active.signal.reason }

/-- `None if r0 in {None, ZERO}`, else the ratio. -/
def perRisk (value : Decimal) (r0 : Option Decimal) : Option Decimal :=
  match r0 with
  | none => none
  | some risk => if risk = 0 then none else some (value / risk)

/-- The CANDIDATE_EVENT row of a realized candidate. -/
def realizedCandidate (active : ActiveTrade) (candidateId : ℕ) : CandidateRow where
  candidateId := candidateId
  ts := active.signal.timestamp
  symbol := active.signal.symbol
  triggerRule := active.signal.reason
  passedFilters := ["exposure_limit"]
  blockedBy := none
  wouldBeSide := active.entryFill.positionSide
  wouldBeQty := some active.entryFill.quantity
  realized := true
  linkedTradeId := some active.tradeId

/-- `features or entry_features`: an empty mapping counts as absent. -/
def featuresOr (features fallback : Features) : Features :=
  if features = [] then fallback else features

/-- The phase, time, features and excursion of one feature row of a trade. -/
def featureRows (active : ActiveTrade) (exitFill : Fill) (exitFeatures : Features) :
    List (FeaturePhase × ℤ × Features × Option Decimal) :=
  [ (.entry, active.entryFill.timestamp, active.entryFeatures, none),
    (.exit, exitFill.timestamp, exitFeatures, none),
    (.mae, (active.mae.map (·.ts)).getD active.entryFill.timestamp,
      featuresOr ((active.mae.map (·.features)).getD []) active.entryFeatures,
      active.mae.bind (·.r)),
    (.mfe, (active.mfe.map (·.ts)).getD active.entryFill.timestamp,
      featuresOr ((active.mfe.map (·.features)).getD []) active.entryFeatures,
      active.mfe.bind (·.r)) ]

/-- Record one feature row of a trade. -/
def recordFeature (tradeId : ℕ) (row : FeaturePhase × ℤ × Features × Option Decimal) :
    EngineProgram PUnit := do
  let tfsId ← next .tfs
  record input (.feature {
    tfsId := tfsId
    tradeId := tradeId
    phase := row.1
    ts := row.2.1
    features := row.2.2.1
    excursionR := row.2.2.2.map toFloat })

def completeTrade (active : ActiveTrade) (exitFill : Fill) (exitExecutionId : ℕ) :
    EngineProgram PUnit := do
  let trade ← runPure (completedTrade input active exitFill)
  modify fun state => { state with trades := state.trades ++ [trade] }
  record input (.trade {
    tradeId := active.tradeId
    side := active.entryFill.positionSide
    entryExecutionId := active.entryExecutionId
    exitExecutionId := exitExecutionId
    trade := trade
    rMultiple := (perRisk trade.netPnl trade.r0).map toFloat })
  forEach active.positionRecords fun row => record input (.position row)
  forEach active.fundingRecords fun row => record input (.funding row)
  forEach active.candidateId.toList fun candidateId =>
    record input (.candidate (realizedCandidate active candidateId))
  let state ← get
  forEach (featureRows active exitFill (state.board.features input.series.specs))
    (recordFeature input active.tradeId)

/-! ### Exits -/

/-- The realized profit of closing `fill.quantity` of a position at a fill's price. -/
def realizedPnl (position : Position) (fill : Fill) : Decimal :=
  let delta :=
    if position.side = .long then fill.price - position.entryPrice
    else position.entryPrice - fill.price
  quantizeAmount (delta * fill.quantity)

/-- The margin an exit releases. -/
def releasedMargin (position : Position) (fill : Fill) : Decimal :=
  quantizeAmount (position.margin * fill.quantity / position.quantity)

/-- The cash an exit leads to, before normalization. -/
def exitCash (cash : Decimal) (position : Position) (fill : Fill) : Decimal :=
  cash + releasedMargin position fill + realizedPnl position fill - fill.fee

/-- Complete the trade if the exit emptied the book. -/
def finishExit (active : ActiveTrade) (fill : Fill) (executionId : ℕ) : EngineProgram PUnit := do
  let remaining ← currentPosition input
  match remaining with
  | some _ => pure ()
  | none => do
    completeTrade input active fill executionId
    modify fun state => { state with
      activeTrade := none
      protection := { stopPrice := none, takeProfitPrice := none } }

/-- The exit branch of `_apply_fill`. -/
def applyExit (fill : Fill) (positionBefore : Option Position) (executionId : ℕ) :
    EngineProgram PUnit := do
  let state ← get
  match positionBefore, state.activeTrade with
  | some position, some active => do
    let nextCash ← runPure (checkedCash (exitCash state.cash position fill)
      (if fill.exitReason = some .liquidation then "liquidation exit" else "position exit"))
    onBook (PositionBook.apply fill none none .futures 0)
    let active := ActiveTrade.addCosts active fill
    modify fun state => { state with cash := nextCash, activeTrade := some active }
    finishExit input active fill executionId
  | _, _ => throw (.valueError "reduce-only fill requires an active position and trade")

def applyFill (fill : Fill) (decisionId : Option ℕ) (signal : Option TradingSignal)
    (candidateId : Option ℕ) : EngineProgram PUnit := do
  let positionBefore ← currentPosition input
  let state ← get
  let projected := projectedEntryCash input state.cash fill (leverageOf signal)
  raiseUnless (fill.reduceOnly = true ∨ 0 ≤ projected)
    (.valueError "entry margin plus fee exceeds available cash after truncation")
  let executionId ← next .execution
  record input (.execution (executionRow executionId decisionId fill))
  if fill.reduceOnly then applyExit input fill positionBefore executionId
  else applyEntry input fill positionBefore projected executionId signal candidateId

/-! ### Excursions -/

/-- Keep the more extreme of two excursions. -/
def extremum (better : Decimal → Decimal → Bool) (current : Option Excursion) (pnl : Decimal)
    (ts : ℤ) (features : Features) (r0 : Option Decimal) : Option Excursion :=
  match current with
  | some excursion =>
    if better pnl excursion.pnl then
      some { pnl := pnl, ts := ts, features := features,
             r := (perRisk pnl r0).map quantizeAmount }
    else some excursion
  | none =>
    some { pnl := pnl, ts := ts, features := features, r := (perRisk pnl r0).map quantizeAmount }

/-- The active trade with its extremes updated by a bar that opens after its entry. -/
def tracked (candle : Candle) (position : Position) (features : Features)
    (active : ActiveTrade) : ActiveTrade :=
  if candle.openTime ≤ active.entryFill.timestamp then active
  else
    let entry := active.entryFill.referencePrice
    let high := toDecimal candle.high
    let low := toDecimal candle.low
    let adverse :=
      if position.side = .long then quantizeAmount ((low - entry) * position.quantity)
      else quantizeAmount ((entry - high) * position.quantity)
    let favorable :=
      if position.side = .long then quantizeAmount ((high - entry) * position.quantity)
      else quantizeAmount ((entry - low) * position.quantity)
    { active with
      mae := extremum (fun new old => decide (new < old)) active.mae adverse candle.closeTime
        features active.r0
      mfe := extremum (fun new old => decide (old < new)) active.mfe favorable candle.closeTime
        features active.r0 }

def trackExcursions (candle : Candle) (position : Position) : EngineProgram PUnit :=
  modify fun state => { state with
    activeTrade := state.activeTrade.map
      (tracked candle position (state.board.features input.series.specs)) }

/-! ### Funding -/

/-- The last candle of a list closed at or before an instant. -/
def lastClosed (candles : List Candle) (boundary : ℤ) : Option Candle :=
  (candles.filter fun candle => candle.closeTime ≤ boundary).getLast?

/-- `_funding_price`: the open at the boundary, else the previous close. -/
def fundingPrice (boundary : ℤ) : Except Fault (Decimal × SettlePriceSource) :=
  let source := if input.minuteHistory = [] then input.history else input.minuteHistory
  match source.find? fun candle => candle.openTime = boundary with
  | some exact => .ok (toDecimal exact.open, .boundaryOpen)
  | none =>
    let earlier := (input.history.filter fun candle => candle.openTime < boundary).getLast?
    match (lastClosed source boundary).or earlier with
    | some previous => .ok (toDecimal previous.close, .prevClose)
    | none => .error (.lookupError "no settlement price at or before the boundary")

/-- The rate of a boundary and where it comes from. Rates are read once and kept;
the feed is a function of the instant, so the cache is not part of the state. -/
def fundingRateAt (boundary : ℤ) : Decimal × FundingRateSource :=
  match input.funding boundary with
  | some rate => (rate, .measured)
  | none => (input.costModel.fundingRate, .fallback)

/-- The forced exit of a position whose margin funding has exhausted. -/
def liquidateExhausted (position : Position) (boundary : ℤ) (price : Decimal) :
    EngineProgram PUnit := do
  let decisionId ← next .decision
  let executionTime := boundary + Instant.millisecond
  record input (.decision {
    decisionId := decisionId
    signalId := none
    decisionTs := boundary
    action := .exit
    skipReason := none
    intendedSide := some position.side
    intendedQty := some (toFloat position.quantity)
    stopPrice := none
    takeProfitPrice := none
    riskAmount := none
    stopDistance := none
    frameworkCompliant := input.config.sizing.isRiskBased
    plannedExecutionTs := some executionTime })
  let fill ← runPure (Matcher.liquidationFill position price executionTime input.costModel)
  applyFill input fill (some decisionId) none none

/-- The FUNDING_SETTLEMENT row of one settlement. -/
def fundingRow (settlementId : ℕ) (active : ActiveTrade) (position : Position) (boundary : ℤ)
    (rate : Decimal × FundingRateSource) (price : Decimal × SettlePriceSource)
    (funding : FundingMarginResult) : FundingRow where
  settlementId := settlementId
  tradeId := active.tradeId
  settledAt := boundary
  symbol := position.symbol
  positionSide := position.side
  fundingRate := toFloat rate.1
  rateSource := rate.2
  settlePrice := price.1
  settlePriceSource := price.2
  positionNotional := quantizeAmount (position.quantity * price.1)
  paymentAmount := quantizeAmount (-funding.appliedCost)
  theoreticalPaymentAmount := quantizeAmount (-funding.theoreticalCost)

/-- The active trade after a settlement. -/
def ActiveTrade.addFunding (active : ActiveTrade) (boundary : ℤ) (row : FundingRow)
    (funding : FundingMarginResult) : ActiveTrade :=
  { active with
    funding := quantizeAmount (active.funding + funding.appliedCost)
    settledBoundaries := active.settledBoundaries ++ [boundary]
    fundingRecords := active.fundingRecords ++ [row] }

/-- Book one funding settlement on the active trade. -/
def bookFunding (active : ActiveTrade) (position : Position) (boundary : ℤ)
    (rate : Decimal × FundingRateSource) (price : Decimal × SettlePriceSource)
    (funding : FundingMarginResult) : EngineProgram PUnit := do
  let settlementId ← next .settlement
  modify fun state => { state with
    activeTrade := some (ActiveTrade.addFunding active boundary
      (fundingRow settlementId active position boundary rate price funding) funding) }

/-- The settlement of one boundary for an open position. -/
def settle (position : Position) (active : ActiveTrade) (boundary : ℤ) : EngineProgram PUnit := do
  let rate := fundingRateAt input boundary
  let price ← runPure (fundingPrice input boundary)
  let theoreticalCost ← runPure (settleFunding position rate.1 price.1)
  let mmr ← runPure (maintenanceMarginRate input)
  let funding ← onBook (PositionBook.applyFunding (position.symbol, position.side)
    theoreticalCost mmr)
  bookFunding active position boundary rate price funding
  if funding.exhausted then do
    let position ← currentPosition input
    match position with
    | some position => liquidateExhausted input position boundary price.1
    | none => throw .assertionError
  else pure ()

def settleAtBoundary (boundary : ℤ) : EngineProgram PUnit :=
  if input.config.marketType ≠ .futures ∨ isBoundary boundary = false then pure ()
  else do
    let position ← currentPosition input
    let state ← get
    match position, state.activeTrade with
    | some position, some active =>
      if boundary ≤ active.entryFill.timestamp ∨ boundary ∈ active.settledBoundaries then pure ()
      else settle input position active boundary
    | _, _ => pure ()

end Engine
end TradingSystem
