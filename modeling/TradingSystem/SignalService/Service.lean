import TradingSystem.SignalService.Feed
import TradingSystem.Types.Signal
import TradingSystem.Types.Position

/-!
# The signal generation service

A live session keeps one incremental state per declared series and judges exactly one new
confirmed candle per cycle. `start` warms the states from history and judges the latest
confirmed candle, `poll` judges the next one, `rewarm` discards the session and starts
again.

Everything outside the service is an `Environment`: the feed, the plugins the manager
creates and the strategy's answer, the sink and the queue. As for the engine, the state of
a series is what it has consumed. Every method is a program that keeps its state when it
raises.

* `observe` — the first half of `_process`: consume a candle and collect what the strategy
  is shown.
* `judge` — the second half: ask the strategy and emit its signal.
* `startContext`, `pollContext` — `start` and `poll` up to the strategy's turn.
-/

namespace TradingSystem
namespace SignalService

open Numeric Logic

/-! ### Configuration and plugins -/

inductive SignalMode
  | paper | live
deriving DecidableEq, Repr

/-- A validated session configuration. -/
structure SignalGenerationConfig where
  strategyId : String
  symbol : String
  timeframe : Timeframe
  marketType : MarketType
  referenceSymbol : Option String
  mode : SignalMode
  strategyId_ne : strategyId ≠ ""
  symbol_ne : symbol ≠ ""
  referenceSymbol_ne : ∀ reference ∈ referenceSymbol, reference ≠ "" ∧ reference ≠ symbol
deriving DecidableEq

/-- The decision stream. -/
def SignalGenerationConfig.stream (config : SignalGenerationConfig) : CandleStream :=
  (config.symbol, config.timeframe)

/-- The market facts a policy plans an entry from. -/
structure MarketSnapshot where
  referencePrice : Binary64
  volatility : ℚ
  volatilityName : SeriesKey
  volatilityTimestamp : ℤ
deriving DecidableEq

/-- An indicator a policy requires; no timeframe stands for `"strategy"`. -/
structure PolicyRequirement where
  name : String
  params : List (String × String)
  timeframe : Option Timeframe
  minHistory : ℕ
deriving DecidableEq

/-- A money-management policy. -/
structure MoneyManagement where
  id : String
  version : String
  requirements : List PolicyRequirement
  ignoresAccountState : Bool
  planEntry : DecisionIntent → MarketSnapshot → Except Fault EntryPlan

/-- What the manager creates for a configuration: the strategy's metadata, the resolution
of its series at an execution timeframe, its resolved parameters and its policy. -/
structure Runtime where
  supportedTimeframes : List Timeframe
  minHistory : ℕ
  decisionIntentOnly : Bool
  resolveSeriesSpecs : Timeframe → Except Fault (List ResolvedSeriesSpec)
  resolvedParams : List (String × String)
  policy : Option MoneyManagement

/-! ### What the strategy sees and answers -/

/-- The market data given to `analyze`. -/
structure AnalysisContext where
  candles : List Candle
  candle : Candle
  symbol : String
  timeframe : Timeframe
  marketType : MarketType
  indicators : SeriesKey → Option SeriesValue

/-- What `analyze` returns besides nothing. -/
inductive StrategyResult
  | signal (signal : TradingSignal)
  | decision (decision : DecisionIntent)

inductive SignalIntent
  | enter | reverse | exit
deriving DecidableEq, Repr

inductive SignalType
  | buy | sell | hold
deriving DecidableEq, Repr

/-- A signal with its operational context, as the sink stores it. -/
structure PersistedSignal where
  strategyId : String
  params : List (String × String)
  mode : SignalMode
  timeframe : Timeframe
  candle : Candle
  signal : TradingSignal
  signalType : SignalType
  intent : SignalIntent
  side : Option PositionSide
deriving DecidableEq

/-- Missing finalized candles. -/
structure DataGap where
  symbol : String
  timeframe : Timeframe
  previousClose : ℤ
  nextOpen : Option ℤ
  detectedAt : ℤ
  missingCandles : ℤ
deriving DecidableEq

/-- One cycle's signal and gap reports. -/
structure SignalCycleResult where
  signal : Option PersistedSignal
  gaps : List DataGap
deriving DecidableEq

/-- **The outside of the service** during one call. -/
structure Environment where
  feed : SignalDataFeed
  createRuntime : SignalGenerationConfig → Except Fault Runtime
  analyze : AnalysisContext → Option Position → Except Fault (Option StrategyResult)
  store : PersistedSignal → Except Fault Bool
  publish : Option (PersistedSignal → Except Fault Unit)

/-! ### State -/

/-- A started session. -/
structure Session where
  config : SignalGenerationConfig
  runtime : Runtime
  specs : List ResolvedSeriesSpec

/-- The mutable state of the service. `seriesLastClose` is a dictionary in insertion
order. -/
structure ServiceState where
  session : Option Session
  consumed : SeriesKey → List SeriesInput
  seriesValues : SeriesKey → Option SeriesValue
  seriesLastClose : List (CandleStream × ℤ)
  pairedLastClose : SeriesKey → Option ℤ
  confirmed : List Candle
  lastClose : Option ℤ
  reportedMissingUntil : Option ℤ

/-- The state of a service that was never started. -/
def ServiceState.fresh : ServiceState where
  session := none
  consumed _ := []
  seriesValues _ := none
  seriesLastClose := []
  pairedLastClose _ := none
  confirmed := []
  lastClose := none
  reportedMissingUntil := none

abbrev ServiceProgram := Program Fault ServiceState

/-- `dictionary[stream] = close`. -/
def setLastClose (entries : List (CandleStream × ℤ)) (stream : CandleStream) (close : ℤ) :
    List (CandleStream × ℤ) :=
  if stream ∈ entries.map Prod.fst then
    entries.map fun entry => if entry.1 = stream then (stream, close) else entry
  else entries ++ [(stream, close)]

/-! ### Series -/

/-- `_assert_finite_indicator`: every output must be finite. -/
def assertFinite (spec : ResolvedSeriesSpec) (value : SeriesValue) : Except Fault Unit :=
  match value with
  | .scalar number =>
    require number.isSome
      (.valueError ("indicator " ++ spec.name ++ " emitted a non-finite value"))
  | .named outputs =>
    require (∀ output ∈ outputs, output.2.isSome)
      (.valueError ("indicator " ++ spec.name ++ " emitted a non-finite value"))

def seed (spec : ResolvedSeriesSpec) (inputs : List SeriesInput) : ServiceProgram PUnit :=
  modify fun s => { s with consumed := Function.update s.consumed spec.key inputs }

/-- `state.update`: consume an input and compute the value. -/
def update (spec : ResolvedSeriesSpec) (input : SeriesInput) : ServiceProgram SeriesValue := do
  modify fun s => { s with
    consumed := Function.update s.consumed spec.key (s.consumed spec.key ++ [input]) }
  let s ← get
  return spec.compute (s.consumed spec.key)

/-- Accept a value and publish it. -/
def publishValue (spec : ResolvedSeriesSpec) (value : SeriesValue) : ServiceProgram PUnit := do
  runPure (assertFinite spec value)
  modify fun s => { s with
    seriesValues := Function.update s.seriesValues spec.key (some value) }

def setPairedLastClose (spec : ResolvedSeriesSpec) (close : ℤ) : ServiceProgram PUnit :=
  modify fun s => { s with
    pairedLastClose := Function.update s.pairedLastClose spec.key (some close) }

/-- The single series of another timeframe, fed one candle. -/
def feedSingle (timeframe : Timeframe) (source : Candle) (spec : ResolvedSeriesSpec) :
    ServiceProgram PUnit :=
  if spec.needsReferenceSeries ∨ spec.timeframe ≠ timeframe then pure ⟨⟩ else do
    let value ← update spec (source, none)
    publishValue spec value

/-- The candles of another timeframe that became final. -/
def advanceStream (env : Environment) (specs : List ResolvedSeriesSpec) (boundary : ℤ)
    (entry : CandleStream × ℤ) : ServiceProgram PUnit := do
  let fresh ← runPure (readStreamAfter env.feed entry.1 entry.2 boundary outsideRequested)
  forEach fresh fun source => do
    forEach specs (feedSingle entry.1.2 source)
    modify fun s => { s with
      seriesLastClose := setLastClose s.seriesLastClose entry.1 source.closeTime }

/-- A paired series of another timeframe, fed the pairs that became final. -/
def advancePaired (env : Environment) (config : SignalGenerationConfig) (reference : String)
    (boundary : ℤ) (spec : ResolvedSeriesSpec) : ServiceProgram PUnit :=
  if spec.needsReferenceSeries = false ∨ spec.timeframe = config.timeframe then pure ⟨⟩ else do
    let primary ← runPure
      (readStream env.feed (config.symbol, spec.timeframe) boundary outsideRequested)
    let referenceHistory ← runPure
      (readStream env.feed (reference, spec.timeframe) boundary outsideRequested)
    let s ← get
    match s.pairedLastClose spec.key with
    | none => throw (.keyError spec.name)
    | some after =>
      forEach ((SeriesSetup.matchCandles primary referenceHistory).filter fun pair =>
          after < pair.1.closeTime) fun pair => do
        let value ← update spec (pair.1, some pair.2)
        publishValue spec value
        setPairedLastClose spec pair.1.closeTime

def advanceNonExecutionSeries (env : Environment) (session : Session) (boundary : ℤ) :
    ServiceProgram PUnit := do
  let s ← get
  forEach s.seriesLastClose (advanceStream env session.specs boundary)
  match session.config.referenceSymbol with
  | none => pure ⟨⟩
  | some reference =>
    forEach session.specs (advancePaired env session.config reference boundary)

/-- A series of the execution timeframe, fed the decision candle. -/
def observeSeries (env : Environment) (config : SignalGenerationConfig) (candle : Candle)
    (spec : ResolvedSeriesSpec) : ServiceProgram PUnit :=
  if spec.timeframe ≠ config.timeframe then pure ⟨⟩
  else if spec.needsReferenceSeries then
    match config.referenceSymbol with
    | none => throw (.valueError "reference_symbol is required by a paired series")
    | some reference => do
      let history ← runPure
        (readStream env.feed (reference, spec.timeframe) candle.closeTime outsideRequested)
      match history.find? fun item => item.closeTime = candle.closeTime with
      | none => pure ⟨⟩
      | some item => do
        let s ← get
        match s.pairedLastClose spec.key with
        | none => throw (.keyError spec.name)
        | some after =>
          if candle.closeTime ≤ after then pure ⟨⟩ else do
            let value ← update spec (candle, some item)
            setPairedLastClose spec candle.closeTime
            publishValue spec value
  else do
    let value ← update spec (candle, none)
    publishValue spec value

/-- **Observing a candle**, the first half of `_process`. The published values are what
`indicator_values` holds in the source: every assignment to it is also made to
`_series_values`, of which it starts as a copy. -/
def observe (env : Environment) (session : Session) (candle : Candle) (boundary : ℤ) :
    ServiceProgram AnalysisContext := do
  runPure (assertFinalized candle boundary)
  modify fun s => { s with confirmed := s.confirmed ++ [candle] }
  advanceNonExecutionSeries env session candle.closeTime
  forEach session.specs (observeSeries env session.config candle)
  let s ← get
  return {
    candles := s.confirmed
    candle := candle
    symbol := session.config.symbol
    timeframe := session.config.timeframe
    marketType := session.config.marketType
    indicators := s.seriesValues }

/-! ### Signals -/

def deriveIntent (signal : TradingSignal) (position : Option Position) :
    Except Fault (SignalIntent × Option PositionSide) :=
  match signal.stopLoss, signal.takeProfit with
  | none, none => .ok (.exit, none)
  | some protection, _ =>
    finish protection (if protection < signal.price then .long else .short)
  | none, some protection =>
    finish protection (if signal.price < protection then .long else .short)
where
  finish (protection : Binary64) (side : PositionSide) :
      Except Fault (SignalIntent × Option PositionSide) := do
    require (protection ≠ signal.price)
      (.valueError "protection level cannot equal signal price")
    let reverses := position.any fun held => decide (held.side ≠ side)
    return (if reverses then .reverse else .enter, some side)

def signalType (intent : SignalIntent) (side : Option PositionSide)
    (position : Option Position) : Except Fault SignalType :=
  match side with
  | some .long => .ok .buy
  | some .short => .ok .sell
  | _ => do
    require (intent = .exit) (.runtimeError "non-exit signals require a derived side")
    match position with
    | none => .ok .hold
    | some held =>
      match held.side with
      | .long => .ok .sell
      | .short => .ok .buy
      | .both => .error (.valueError "cannot derive an exit direction for a BOTH position")

/-- The volatility a policy plans from. -/
def policyVolatility (session : Session) (policy : MoneyManagement)
    (indicators : SeriesKey → Option SeriesValue) : Except Fault (SeriesKey × ℚ) :=
  match policy.requirements with
  | [⟨name, params, none, _⟩] =>
    let key : SeriesKey := ⟨name, params, session.config.timeframe⟩
    match indicators key with
    | some (.scalar (some volatility)) => .ok (key, volatility)
    | _ => .error (.valueError ("money management requires current " ++ name))
  | _ => .error (.valueError "signal generation requires one strategy-timeframe policy input")

def materializeDecision (session : Session) (decision : DecisionIntent) (candle : Candle)
    (indicators : SeriesKey → Option SeriesValue) : Except Fault TradingSignal :=
  if decision.action = .exit then
    .ok {
      symbol := decision.symbol
      timestamp := decision.timestamp
      confidence := decision.confidence
      price := decision.referencePrice
      stopLoss := none
      takeProfit := none
      marketType := session.config.marketType
      leverage := some 1
      reason := decision.reason
      requestedQuantity := none
      confidence_nonneg := decision.confidence_nonneg
      confidence_le_one := decision.confidence_le_one
      price_pos := decision.referencePrice_pos
      stopLoss_pos := by simp
      takeProfit_pos := by simp
      leverage_pos := by simp }
  else
    match session.runtime.policy with
    | none => .error accountIndependent
    | some policy => do
      require (policy.ignoresAccountState = true) accountIndependent
      let (key, volatility) ← policyVolatility session policy indicators
      let plan ← policy.planEntry decision {
        referencePrice := decision.referencePrice
        volatility := volatility
        volatilityName := key
        volatilityTimestamp := candle.closeTime }
      return {
        symbol := decision.symbol
        timestamp := decision.timestamp
        confidence := decision.confidence
        price := decision.referencePrice
        stopLoss := plan.stopLoss
        takeProfit := plan.takeProfit
        marketType := session.config.marketType
        leverage := some plan.requestedLeverage
        reason := decision.reason
        requestedQuantity := none
        confidence_nonneg := decision.confidence_nonneg
        confidence_le_one := decision.confidence_le_one
        price_pos := decision.referencePrice_pos
        stopLoss_pos := plan.stopLoss_pos
        takeProfit_pos := plan.takeProfit_pos
        leverage_pos := fun value hvalue => by
          cases hvalue
          exact plan.requestedLeverage_pos }
where
  accountIndependent : Fault :=
    .valueError ("signal generation requires a money-management policy declaring " ++
      "account-independent protection prices and leverage")

/-- `_persisted_signal` with the checks of `PersistedSignal`. -/
def persistedSignal (session : Session) (signal : TradingSignal) (candle : Candle)
    (position : Option Position) : Except Fault PersistedSignal := do
  require (signal.timestamp ≤ candle.closeTime)
    (.valueError "strategy signal cannot be later than the confirmed candle")
  let (intent, side) ← deriveIntent signal position
  let kind ← signalType intent side position
  require (candle.timeframe = session.config.timeframe)
    (.valueError "persisted timeframe must match the decision candle")
  require (signal.symbol = candle.symbol)
    (.valueError "signal symbol must match the decision candle")
  return {
    strategyId := session.config.strategyId
    params := session.runtime.resolvedParams
    mode := session.config.mode
    timeframe := session.config.timeframe
    candle := candle
    signal := signal
    signalType := kind
    intent := intent
    side := side }

/-- The answer of a strategy as the signal to persist, if there is one. -/
def finalizeResult (session : Session) (context : AnalysisContext) (position : Option Position)
    (result : StrategyResult) : Except Fault (Option PersistedSignal) :=
  match result with
  | .signal signal => do
    require (session.runtime.decisionIntentOnly = false)
      (.typeError "strategy declared DecisionIntent but returned TradingSignal")
    let persisted ← persistedSignal session signal context.candle position
    return some persisted
  | .decision decision =>
    if decision.action = .hold then .ok none else do
      let signal ← materializeDecision session decision context.candle context.indicators
      let persisted ← persistedSignal session signal context.candle position
      return some persisted

/-- Store a signal, and publish it when it is new. -/
def emit (env : Environment) (persisted : PersistedSignal) : Except Fault Unit := do
  let isNew ← env.store persisted
  match isNew, env.publish with
  | true, some publish => publish persisted
  | _, _ => .ok ()

/-- **Judging a candle**, the second half of `_process`. The cursor moves as soon as the
strategy has answered. -/
def judge (env : Environment) (session : Session) (context : AnalysisContext)
    (position : Option Position) : ServiceProgram (Option PersistedSignal) := do
  let answer ← runPure (env.analyze context position)
  modify fun s => { s with
    lastClose := some context.candle.closeTime
    reportedMissingUntil := some (max context.candle.closeTime
      (s.reportedMissingUntil.getD context.candle.closeTime)) }
  match answer with
  | none => return none
  | some result => do
    let persisted ← runPure (finalizeResult session context position result)
    match persisted with
    | none => return none
    | some signal => do
      runPure (emit env signal)
      return some signal

/-! ### Gaps -/

/-- `_record_gap`, with the number of missing candles rounded up. -/
def gapBetween (stream : CandleStream) (previousClose nextOpen detectedAt duration : ℤ) :
    DataGap where
  symbol := stream.1
  timeframe := stream.2
  previousClose := previousClose
  nextOpen := some nextOpen
  detectedAt := detectedAt
  missingCandles := (nextOpen - previousClose) / duration +
    if 0 < (nextOpen - previousClose) % duration then 1 else 0

def reportSeriesGaps (candles : List Candle) (detectedAt : ℤ) : List DataGap :=
  (candles.zip candles.tail).filterMap fun pair =>
    if pair.1.closeTime < pair.2.openTime then
      some (gapBetween (pair.1.symbol, pair.1.timeframe) pair.1.closeTime pair.2.openTime
        detectedAt (pair.1.closeTime - pair.1.openTime))
    else none

/-- `_report_poll_gaps` when candles arrived. -/
def reportFreshGaps (config : SignalGenerationConfig) (lastClose : ℤ) (fresh : List Candle)
    (detectedAt : ℤ) : List DataGap :=
  (fresh.head?.toList.filterMap fun first =>
    if lastClose < first.openTime then
      some (gapBetween config.stream lastClose first.openTime detectedAt
        config.timeframe.duration)
    else none) ++ reportSeriesGaps fresh detectedAt

/-- `_report_poll_gaps` when no candle arrived: whole candles missing since the last
report. -/
def reportMissing (config : SignalGenerationConfig) (lastClose detectedAt : ℤ) :
    ServiceProgram (List DataGap) := do
  let s ← get
  let missingStart := max lastClose (s.reportedMissingUntil.getD lastClose)
  let completeMissing := (detectedAt - missingStart) / config.timeframe.duration
  if 0 < completeMissing then do
    modify fun s => { s with
      reportedMissingUntil :=
        some (missingStart + completeMissing * config.timeframe.duration) }
    return [{
      symbol := config.symbol
      timeframe := config.timeframe
      previousClose := missingStart
      nextOpen := none
      detectedAt := detectedAt
      missingCandles := completeMissing }]
  else return []

/-! ### Start -/

/-- The candles each stream must hold before the session starts. -/
def requiredWarmups (config : SignalGenerationConfig) (runtime : Runtime)
    (specs : List ResolvedSeriesSpec) : List (CandleStream × ℕ) :=
  (config.stream, runtime.minHistory) ::
    (specs.flatMap fun spec =>
      ((config.symbol, spec.timeframe), spec.minHistory) ::
        if spec.needsReferenceSeries then
          config.referenceSymbol.toList.map fun reference =>
            ((reference, spec.timeframe), spec.minHistory)
        else []) ++
    (runtime.policy.toList.flatMap fun policy => policy.requirements.map fun requirement =>
      ((config.symbol, requirement.timeframe.getD config.timeframe), requirement.minHistory))

/-- `required_warmups[stream]`: the largest requirement on the stream. -/
def requiredWarmup (config : SignalGenerationConfig) (runtime : Runtime)
    (specs : List ResolvedSeriesSpec) (stream : CandleStream) : ℕ :=
  (((requiredWarmups config runtime specs).filter fun entry => entry.1 = stream).map
    Prod.snd).foldr max 0

/-- A reference symbol is configured exactly when a series needs one. -/
def checkReference (config : SignalGenerationConfig) (specs : List ResolvedSeriesSpec) :
    Except Fault Unit :=
  if specs.any (·.needsReferenceSeries) then
    require config.referenceSymbol.isSome
      (.valueError "reference_symbol is required by a paired series")
  else
    require config.referenceSymbol.isNone
      (.valueError "reference_symbol was supplied but no paired series requires it")

/-- Warm a state whose last input is fed rather than seeded. -/
def warmWithValue (spec : ResolvedSeriesSpec) (inputs : List SeriesInput)
    (finish : Candle → ServiceProgram PUnit) : ServiceProgram PUnit :=
  match inputs.getLast? with
  | none => throw (.lookupError "list index out of range")
  | some last => do
    seed spec inputs.dropLast
    let value ← update spec last
    publishValue spec value
    finish last.1

/-- The warm-up of a paired series. The last candle of `history` is the decision candle. -/
def warmPaired (env : Environment) (config : SignalGenerationConfig) (history : List Candle)
    (decisionClose boundary : ℤ) (spec : ResolvedSeriesSpec) : ServiceProgram PUnit := do
  let primary ← runPure (if spec.timeframe = config.timeframe then .ok history
    else readStream env.feed (config.symbol, spec.timeframe) boundary outsideRequested)
  match config.referenceSymbol with
  | none => throw .assertionError
  | some reference => do
    let referenceHistory ← runPure
      (readStream env.feed (reference, spec.timeframe) boundary outsideRequested)
    let matched := SeriesSetup.matchCandles primary referenceHistory
    let pairs := if spec.timeframe = config.timeframe then
      matched.filter fun pair => pair.1.closeTime < decisionClose else matched
    raiseUnless (spec.minHistory ≤ pairs.length)
      (.valueError ("insufficient finalized history: " ++ config.symbol ++ "/" ++ reference ++
        " " ++ spec.timeframe.text ++ " requires " ++ toString spec.minHistory ++
        " matched pairs, got " ++ toString pairs.length))
    warmWithValue spec
      ((SeriesSetup.lastOf spec.minHistory pairs).map fun pair => (pair.1, some pair.2))
      fun last => setPairedLastClose spec last.closeTime

/-- The warm-up of a single series of another timeframe. -/
def warmSingle (env : Environment) (config : SignalGenerationConfig) (required : ℕ)
    (boundary : ℤ) (spec : ResolvedSeriesSpec) : ServiceProgram PUnit := do
  let history ← runPure
    (readStream env.feed (config.symbol, spec.timeframe) boundary outsideRequested)
  raiseUnless (required ≤ history.length)
    (.valueError ("insufficient finalized history: " ++ config.symbol ++ " " ++
      spec.timeframe.text ++ " requires " ++ toString required ++ ", got " ++
      toString history.length))
  warmWithValue spec (history.map fun candle => (candle, none)) fun last =>
    modify fun s => { s with
      seriesLastClose :=
        setLastClose s.seriesLastClose (config.symbol, spec.timeframe) last.closeTime }

/-- The three kinds of warm-up. -/
def warmState (env : Environment) (session : Session) (history : List Candle)
    (decisionClose boundary : ℤ) (spec : ResolvedSeriesSpec) : ServiceProgram PUnit :=
  if spec.needsReferenceSeries then
    warmPaired env session.config history decisionClose boundary spec
  else if spec.timeframe = session.config.timeframe then do
    let s ← get
    seed spec (s.confirmed.map fun candle => (candle, none))
  else
    warmSingle env session.config
      (requiredWarmup session.config session.runtime session.specs
        (session.config.symbol, spec.timeframe)) boundary spec

/-- The warm-up of one series. -/
def warmSeries (env : Environment) (session : Session) (history : List Candle)
    (decisionClose boundary : ℤ) (spec : ResolvedSeriesSpec) : ServiceProgram PUnit := do
  warmState env session history decisionClose boundary spec
  let s ← get
  raiseUnless (spec.warmedUp (s.consumed spec.key))
    (.valueError "indicator state did not warm up after required preload")

/-- The checks of `start` before it reads: the session it would install. -/
def createSession (env : Environment) (config : SignalGenerationConfig) :
    Except Fault Session := do
  let runtime ← env.createRuntime config
  require (config.timeframe ∈ runtime.supportedTimeframes)
    (.valueError "strategy does not support the configured timeframe")
  let specs ← runtime.resolveSeriesSpecs config.timeframe
  checkReference config specs
  return ⟨config, runtime, specs⟩

/-- `self._config = config` and the assignments around it. -/
def installed (session : Session) (s : ServiceState) : ServiceState where
  session := some session
  consumed _ := []
  seriesValues _ := none
  seriesLastClose := []
  pairedLastClose _ := none
  confirmed := s.confirmed
  lastClose := s.lastClose
  reportedMissingUntil := s.reportedMissingUntil

/-- Warm every series and observe the last candle of the decision window. -/
def warmUp (env : Environment) (session : Session) (history window : List Candle)
    (boundary : ℤ) : ServiceProgram AnalysisContext :=
  match window.getLast? with
  | none => throw (.lookupError "list index out of range")
  | some decision => do
    modify fun s => { s with confirmed := window.dropLast }
    forEach session.specs
      (warmSeries env session history decision.closeTime boundary)
    observe env session decision boundary

/-- **`start` up to the strategy's turn.** -/
def startContext (env : Environment) (config : SignalGenerationConfig) (boundary : ℤ) :
    ServiceProgram (Session × AnalysisContext × List DataGap) := do
  let s ← get
  raiseUnless (s.session.isNone) (.runtimeError "signal generation session is already started")
  let session ← runPure (createSession env config)
  let history ← runPure (readStream env.feed config.stream boundary outsideConfigured)
  let required := requiredWarmup config session.runtime session.specs config.stream
  raiseUnless (required + 1 ≤ history.length)
    (.valueError ("insufficient finalized history: requires " ++ toString (required + 1) ++
      ", got " ++ toString history.length))
  modify (installed session)
  let window := SeriesSetup.lastOf (required + 1) history
  let context ← warmUp env session history window boundary
  return (session, context, reportSeriesGaps window boundary)

def start (env : Environment) (config : SignalGenerationConfig) (boundary : ℤ)
    (position : Option Position) : ServiceProgram SignalCycleResult := do
  let (session, context, gaps) ← startContext env config boundary
  let signal ← judge env session context position
  return ⟨signal, gaps⟩

/-! ### Poll and rewarm -/

/-- `_require_config`. -/
def requireSession : ServiceProgram Session := do
  let s ← get
  match s.session with
  | none => throw (.runtimeError "signal generation session is not started")
  | some session => return session

/-- The texts of `SignalStateRecoveryRequired`, a subclass of `RuntimeError`. -/
def recoveryRequired (reason : String) : Fault :=
  .runtimeError (reason ++ " indicator state recovery")

/-- The candles a poll finds past its cursor. -/
def confirmedIncrement (env : Environment) (config : SignalGenerationConfig)
    (after boundary : ℤ) : Except Fault (List Candle) := do
  let fresh ← readStreamAfter env.feed config.stream after boundary outsideConfigured
  require (∀ candle ∈ fresh, after ≤ candle.openTime)
    (.valueError "incremental DataFeed returned a candle before the cursor")
  return fresh

/-- What a poll does with the candles it found. -/
inductive Arrival
  | nothing (gaps : List DataGap)
  | candle (candle : Candle)

/-- The first half of `poll`: read past the cursor and report gaps. A gap, or more than one
new candle, needs a fresh seed. -/
def arrival (env : Environment) (session : Session) (boundary : ℤ) : ServiceProgram Arrival := do
  let s ← get
  match s.lastClose with
  | none => throw (.runtimeError "signal generation session has no processed candle")
  | some lastClose => do
    let fresh ← runPure (confirmedIncrement env session.config lastClose boundary)
    match fresh with
    | [] => do
      let gaps ← reportMissing session.config lastClose boundary
      return .nothing gaps
    | candle :: rest => do
      raiseUnless (reportFreshGaps session.config lastClose (candle :: rest) boundary = [])
        (recoveryRequired "finalized candle gap requires")
      raiseUnless (rest = []) (recoveryRequired "multiple unprocessed candles require")
      return .candle candle

/-- **`poll` up to the strategy's turn.** -/
def pollContext (env : Environment) (boundary : ℤ) :
    ServiceProgram (Session × (AnalysisContext ⊕ List DataGap)) := do
  let session ← requireSession
  let arrived ← arrival env session boundary
  match arrived with
  | .nothing gaps => return (session, .inr gaps)
  | .candle candle => do
    let context ← observe env session candle boundary
    return (session, .inl context)

def poll (env : Environment) (boundary : ℤ) (position : Option Position) :
    ServiceProgram SignalCycleResult := do
  let (session, arrived) ← pollContext env boundary
  match arrived with
  | .inr gaps => return ⟨none, gaps⟩
  | .inl context => do
    let signal ← judge env session context position
    return ⟨signal, []⟩

/-- What `rewarm` clears. -/
def discard : ServiceProgram SignalGenerationConfig := do
  let session ← requireSession
  set ServiceState.fresh
  return session.config

/-- **`rewarm` up to the strategy's turn.** -/
def rewarmContext (env : Environment) (boundary : ℤ) :
    ServiceProgram (Session × AnalysisContext × List DataGap) := do
  let config ← discard
  startContext env config boundary

def rewarm (env : Environment) (boundary : ℤ) (position : Option Position) :
    ServiceProgram SignalCycleResult := do
  let config ← discard
  start env config boundary position

end SignalService
end TradingSystem
