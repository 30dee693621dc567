import TradingSystem.Engine.Strategy

/-!
# The candle loop

One bar is `stepOpen` then `stepClose`. Between two bars of the evaluation that
are not contiguous, `closeAtDataGap` closes the position at the last confirmed
price; after the last bar `finalize` does the same.

`runFrom` is the loop over the evaluation and `run` the whole run, from the
empty book to the terminal equity row.
-/

namespace TradingSystem

open Numeric Logic

namespace Engine

variable (input : RunInput)

/-! ### The open of a bar -/

/-- `_risk_budget`: the risk fraction of the current equity, for a risk-based
entry. -/
def riskBudget (request : OrderRequest) : EngineProgram (Option Decimal) :=
  match input.config.sizing, request.reduceOnly with
  | .riskBased risk, false => do
    let equity ← currentEquity input
    return some (quantizeAmount (equity * toDecimal risk))
  | _, _ => return none

/-- `submit`: number the request and match it. -/
def submit (context : ExecutionContext) (request : OrderRequest) : EngineProgram Fill := do
  let sequence ← next .brokerOrder
  runPure (submitOrder input.costModel context request sequence)

/-- `replace(fill, exit_reason=...)`. -/
def withExitReason (fill : Fill) (reason : Option ExitReason) : Fill :=
  { fill with exitReason := reason.or fill.exitReason }

/-- Match one carried order in the history. -/
def matchPending (pending : PendingOrder) : EngineProgram Fill := do
  let budget ← riskBudget input pending.request
  let state ← get
  let fill ← submit input {
    decisionCandle := pending.decisionCandle
    history := input.history
    limits := {
      riskBudget := budget
      availableMargin := some state.cash
      leverage := leverageOf pending.signal } } pending.request
  return withExitReason fill pending.exitReason

/-- Execute one carried order. -/
def executePending (candle : Candle) (pending : PendingOrder) : EngineProgram PUnit := do
  raiseUnless (pending.decisionCandle.closeTime = candle.openTime)
    (.valueError "pending order crossed a missing candle boundary")
  let fill ← matchPending input pending
  raiseUnless (pending.featureTs ≤ pending.decisionTs ∧
      pending.decisionTs < epochMilliseconds fill.timestamp)
    (.valueError "feature_ts <= decision_ts < execution_ts was violated")
  applyFill input fill (some pending.decisionId) pending.signal pending.candidateId

/-- Take the pending queue. -/
def takePending : EngineProgram (List PendingOrder) := do
  let state ← get
  set { state with pending := [] }
  return state.pending

/-- `walk_triggers` over one candle. -/
def walkTriggers (candle : Candle) (position : Position) : EngineProgram (Option Fill) := do
  let state ← get
  runPure (Matcher.resolveTriggers position [candle] input.costModel state.protection
    (state.activeTrade.map (·.entryFill.timestamp)))

/-- Record the decision row of an exit the engine itself decides. -/
def recordForcedExit (decisionTs : ℤ) (position : Position) (planned : ℤ) :
    EngineProgram ℕ := do
  let decisionId ← next .decision
  record input (.decision {
    decisionId := decisionId
    signalId := none
    decisionTs := decisionTs
    action := .exit
    skipReason := none
    intendedSide := some position.side
    intendedQty := some (toFloat position.quantity)
    stopPrice := none
    takeProfitPrice := none
    riskAmount := none
    stopDistance := none
    frameworkCompliant := input.config.sizing.isRiskBased
    plannedExecutionTs := some planned })
  return decisionId

/-- Apply the exit a bar triggers. -/
def applyTrigger (candle : Candle) (position : Position) : EngineProgram PUnit := do
  let trigger ← walkTriggers input candle position
  match trigger with
  | none => pure ⟨⟩
  | some fill => do
    trackExcursions input candle position
    let decisionId ← recordForcedExit input candle.openTime position candle.closeTime
    applyFill input fill (some decisionId) none none

/-- The end of `step_open`: the position may hit its protection inside the bar. -/
def protect (candle : Candle) : EngineProgram PUnit := do
  let position ← currentPosition input
  match position with
  | none => pure ⟨⟩
  | some position => applyTrigger input candle position

/-- `step_open`: settle the open boundary, execute the carried orders, settle the
boundaries inside the bar, then resolve triggers. -/
def stepOpen (candle : Candle) : EngineProgram PUnit := do
  settleAtBoundary input candle.openTime
  let carried ← takePending
  forEach carried (executePending input candle)
  let boundaries ← runPure (FundingWalk.boundariesBetween candle.openTime candle.closeTime)
  forEach boundaries (settleAtBoundary input)
  protect input candle

/-! ### The close of a bar -/

/-- Record the published value of one series. -/
def recordSnapshot (spec : ResolvedSeriesSpec) : EngineProgram PUnit := do
  let published ← zoom EngineState.board (fun board state => { state with board := board })
    (SeriesBoard.published spec)
  let snapshotSeq ← next .indicatorSnapshot
  record input (.indicatorSnapshot {
    snapshotSeq := snapshotSeq
    indicatorKey := spec.key
    candleOpenTime := published.2.openTime
    candleCloseTime := published.2.closeTime
    value := published.1 })

def updateIndicators (candle : Candle) : EngineProgram PUnit := do
  zoom EngineState.board (fun board state => { state with board := board })
    (SeriesBoard.advance input.series candle)
  forEach input.series.specs (recordSnapshot input)

/-- The running peak of an equity curve, or the given equity if it is empty. -/
def curvePeak (curve : List (ℤ × Decimal)) (equity : Decimal) : Decimal :=
  ((curve.map Prod.snd).max?).getD equity

/-- `equity / peak - 1` as a float, or zero. -/
def drawdown (equity peak : Decimal) : Binary64 :=
  if 0 < peak then toFloat (equity / peak - 1) else Binary64.zero

/-- The sum of one cost over the completed trades and the active one. -/
def cumulative (trades : List Trade) (active : Option ActiveTrade) (ofTrade : Trade → Decimal)
    (ofActive : ActiveTrade → Decimal) : Decimal :=
  (trades.map ofTrade).sum + (active.map ofActive).getD 0

/-- The PORTFOLIO_PNL row of a state at an instant. -/
def portfolioRow (state : EngineState) (equitySeq : ℕ) (ts : ℤ) (position : Option Position)
    (equity peak : Decimal) (active : Option ActiveTrade) : PortfolioRow where
  equitySeq := equitySeq
  ts := ts
  cashBalance := state.cash
  positionValue := positionValue position
  totalEquity := equity
  unrealizedPnl := (position.map (·.unrealizedPnl)).getD 0
  feeCum := cumulative state.trades active (·.totalFee) (·.totalFee)
  slippageCum := cumulative state.trades active (·.slippage) (·.slippage)
  fundingCum := cumulative state.trades active (·.fundingCost) (·.funding)
  peakEquity := peak
  drawdownPct := drawdown equity peak
  openPositions := if position.isSome then 1 else 0

/-- Mark the open position, if there is one, and track its extremes. -/
def markPosition (candle : Candle) (mark : Decimal) : EngineProgram PUnit := do
  let position ← currentPosition input
  match position with
  | none => pure ⟨⟩
  | some position => do
    onBook (PositionBook.onPosition (position.symbol, position.side) .assertionError
      (Position.updatePrice mark))
    let marked ← currentPosition input
    forEach marked.toList (trackExcursions input candle)

/-- `_position_record`. -/
def positionRow (positionSeq : ℕ) (candle : Candle) (mark : Decimal) (held : Option Position)
    (active : Option ActiveTrade) : PositionRow where
  positionSeq := positionSeq
  tradeId := if held.isSome then active.map (·.tradeId) else none
  ts := candle.closeTime
  symbol := (held.map (·.symbol)).getD candle.symbol
  mark := mark
  held := held

/-- The active trade with one more POSITION row. -/
def ActiveTrade.addPosition (active : ActiveTrade) (row : PositionRow) : ActiveTrade :=
  { active with positionRecords := active.positionRecords ++ [row] }

/-- Record the POSITION row, with the active trade while there is one. -/
def recordPosition (candle : Candle) (mark : Decimal) : EngineProgram PUnit := do
  let position ← currentPosition input
  let positionSeq ← next .position
  let state ← get
  let row := positionRow positionSeq candle mark position state.activeTrade
  match position, state.activeTrade with
  | some _, some active =>
    set { state with activeTrade := some (ActiveTrade.addPosition active row) }
  | _, _ => record input (.position row)

/-- Record the PORTFOLIO_PNL row of a bar and extend the equity curve. -/
def recordPortfolio (candle : Candle) : EngineProgram PUnit := do
  let position ← currentPosition input
  let equitySeq ← next .equity
  let state ← get
  let equity := recompute state.cash position
  let peak := max (curvePeak state.equityCurve equity) equity
  record input (.portfolio (portfolioRow state equitySeq candle.closeTime position equity peak
    state.activeTrade))
  modify fun state => { state with
    equityCurve := state.equityCurve ++ [(candle.closeTime, equity)] }

def markGrid (candle : Candle) : EngineProgram PUnit := do
  let mark := toDecimal candle.close
  markPosition input candle mark
  recordPosition input candle mark
  recordPortfolio input candle

/-- `step_close`: update the series, mark the bar, queue what the strategy asks. -/
def stepClose (candle : Candle) (answer : StrategyAnswer) : EngineProgram PUnit := do
  updateIndicators input candle
  markGrid input candle
  handleAnswer input candle answer

/-! ### Gaps and the end of the data -/

/-- The candle of the last confirmed price, one millisecond after it closed. -/
def terminalCandle (last : Candle) : Candle :=
  Candle.flat last.symbol last.timeframe (last.closeTime + Instant.millisecond) last.close
    last.close_pos

/-- Close a position completely at the terminal candle after `last`. -/
def closeAtTerminal (last : Candle) (position : Position) (reason : ExitReason)
    (decisionId : Option ℕ) : EngineProgram PUnit := do
  let request ← runPure (exitRequest position)
  let state ← get
  let fill ← submit input {
    decisionCandle := last
    history := [last, terminalCandle last]
    limits := {
      riskBudget := none
      availableMargin := some state.cash
      leverage := position.leverage } } request
  applyFill input (withExitReason fill (some reason)) decisionId none none

def closeAtDataGap (candle : Candle) : EngineProgram PUnit := do
  let state ← get
  raiseUnless (state.pending = [])
    (.runtimeError "orders must not remain pending across a data gap")
  let position ← currentPosition input
  match position with
  | none => pure ⟨⟩
  | some position => do
    let decisionId ← recordForcedExit input candle.closeTime position
      (candle.closeTime + Instant.millisecond)
    closeAtTerminal input candle position .dataGap (some decisionId)
    modify fun state => { state with dataGapExitCount := state.dataGapExitCount + 1 }

def recordTerminalEquity (last : Candle) : EngineProgram PUnit := do
  let position ← currentPosition input
  let state ← get
  let equity := recompute state.cash position
  let ts := last.closeTime + Instant.millisecond
  set { state with equityCurve := state.equityCurve ++ [(ts, equity)] }
  let equitySeq ← next .equity
  let state ← get
  record input (.portfolio (portfolioRow state equitySeq ts position equity
    (curvePeak state.equityCurve equity) none))

/-- `finalize`, up to the terminal equity row. -/
def finalize (last : Candle) : EngineProgram PUnit := do
  let position ← currentPosition input
  forEach position.toList fun position => closeAtTerminal input last position .endOfData none
  recordTerminalEquity input last

/-! ### Whole runs -/

/-- Record the definition row of each series. -/
def recordDefinitions : EngineProgram PUnit :=
  forEach input.series.specs fun spec =>
    record input (.indicatorDefinition { indicatorKey := spec.key, minHistory := spec.minHistory })

/-- The state before the run. -/
def initialState (cash : Decimal) : EngineState where
  pending := []
  book := PositionBook.empty
  cash := cash
  equityCurve := []
  trades := []
  activeTrade := none
  protection := { stopPrice := none, takeProfitPrice := none }
  sequence _ := 0
  records := []
  board := SeriesBoard.initial input.series
  dataGapExitCount := 0

/-- The run before its first bar: definitions and warm-up. -/
def prepare : EngineProgram PUnit := do
  recordDefinitions input
  zoom EngineState.board (fun board state => { state with board := board })
    (SeriesBoard.preload input.series)

/-- What happens between a bar and the next one of the evaluation. -/
def betweenBars (candle next : Candle) : EngineProgram PUnit :=
  if next.openTime ≠ candle.closeTime then closeAtDataGap input candle else pure ⟨⟩

/-- The loop over the remaining bars; `index` counts the bars before them. -/
def runFrom : ℕ → List Candle → EngineProgram PUnit
  | _, [] => throw (.runtimeError "cannot finalize before the candle loop")
  | index, [candle] => do
    stepOpen input candle
    stepClose input candle (input.answers index)
    finalize input candle
  | index, candle :: next :: rest => do
    stepOpen input candle
    stepClose input candle (input.answers index)
    betweenBars input candle next
    runFrom (index + 1) (next :: rest)

/-- `run`: the initial cash must be nonnegative and the evaluation nonempty. -/
def run : Except Fault EngineState := do
  let cash ← checkedCash input.config.initialCapital "run initialization"
  require (input.evaluation ≠ [])
    (.valueError "evaluation period contains no confirmed candles")
  match (do prepare input; runFrom input 0 input.evaluation : EngineProgram PUnit)
      (initialState input cash) with
  | .ok _ state => return state
  | .error fault _ => throw fault

end Engine
end TradingSystem
