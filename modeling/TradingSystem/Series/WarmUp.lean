import TradingSystem.Series.CandleFeed
import TradingSystem.Series.History
import TradingSystem.SignalService.Feed
import TradingSystem.Sizing.TurtleN

/-!
# Reading the history a run starts from

Before the first bar a run reads every stream its series and its money-management policy
need. The reads share a floor, a multiple of the longest warm-up before the start; when the
bounded reads cannot supply a warm-up the floor is released and every stream is read again.

* `loadHistories` — the reads, with or without the floor.
* `moneyManagementSources` — the daily volatility of the turtle policy.
* `prepare` — the histories, the warm-ups and the daily volatility of a run.
-/

namespace TradingSystem
namespace WarmUp

open Logic Numeric Wallet SeriesSetup SignalService TurtleN

/-- One value a money-management policy needs, and the timeframe on which it is finalized:
`none` is the timeframe of the strategy. A `period` of `none` is not an integer. -/
structure PolicyIndicatorRequirement where
  name : String
  period : Option ℤ
  timeframe : Option Timeframe
  minHistory : ℕ
  minHistory_pos : 0 < minHistory

/-- What a run asks of its money-management policy before it starts. -/
structure DeclaredPolicy where
  id : String
  requiredIndicators : List PolicyIndicatorRequirement

/-- The part of a run's configuration that its history depends on. The declared bar counts
are positive, as their constructors check. -/
structure HistoryConfig where
  symbol : String
  referenceSymbol : Option String
  timeframe : Timeframe
  start : ℤ
  finish : ℤ
  minHistory : ℕ
  specs : List ResolvedSeriesSpec
  policy : Option DeclaredPolicy
  minHistory_pos : 0 < minHistory
  specs_pos : ∀ spec ∈ specs, 0 < spec.minHistory

/-- The daily timeframe. -/
def daily : Timeframe := ⟨1, .days, Nat.one_pos⟩

namespace HistoryConfig

variable (config : HistoryConfig)

/-- The streams one series reads, with its bar count. -/
def seriesDemands (spec : ResolvedSeriesSpec) : Except Fault (List (CandleStream × ℕ)) :=
  let primary := ((config.symbol, spec.timeframe), spec.minHistory)
  if spec.needsReferenceSeries then
    match config.referenceSymbol with
    | none => .error (.valueError "reference_symbol is required by a paired series")
    | some reference => .ok [primary, ((reference, spec.timeframe), spec.minHistory)]
  else .ok [primary]

/-- The streams the policy reads. -/
def policyDemands : List (CandleStream × ℕ) :=
  match config.policy with
  | none => []
  | some policy => policy.requiredIndicators.map fun requirement =>
    ((config.symbol, requirement.timeframe.getD config.timeframe), requirement.minHistory)

/-- The demands of all series. -/
def allSeriesDemands : List ResolvedSeriesSpec → Except Fault (List (CandleStream × ℕ))
  | [] => .ok []
  | spec :: rest => do
    let first ← config.seriesDemands spec
    let others ← allSeriesDemands rest
    return first ++ others

/-- The entries of `_warmups_by_stream`, one for each declaration. -/
def demands : Except Fault (List (CandleStream × ℕ)) := do
  let series ← config.allSeriesDemands config.specs
  return ((config.symbol, config.timeframe), config.minHistory) :: series ++ config.policyDemands

end HistoryConfig

/-- The streams of the declarations, each once. -/
def streamsOf (demands : List (CandleStream × ℕ)) : List CandleStream :=
  (demands.map (·.1)).eraseDups

/-- `_required_warmups[stream]`: the largest declared bar count of a stream. -/
def required (demands : List (CandleStream × ℕ)) (stream : CandleStream) : ℕ :=
  ((demands.filter fun demand => demand.1 = stream).map (·.2)).foldl max 0

def warmupSpan (demands : List (CandleStream × ℕ)) : ℤ :=
  ((streamsOf demands).map fun stream =>
    stream.2.duration * required demands stream).foldl max 0 * 4

/-- The histories of a run by stream; `none` for a stream that was not read. -/
abbrev Histories := CandleStream → Option (List Candle)

/-- One read of `_read_histories`. -/
def readHistory (store : MinuteStore) (floor : Option ℤ) (finish : ℤ) (stream : CandleStream) :
    Except Fault (List Candle) := do
  let candles ← CandleFeed.candles store floor stream.1 stream.2 finish
  let history := sortedByOpen candles
  require (∀ pair ∈ history.zip history.tail, pair.1.openTime < pair.2.openTime)
    (.valueError ("DataFeed " ++ stream.1 ++ " " ++ stream.2.text ++
      " candles must have strictly increasing open_time"))
  require (∀ candle ∈ history, candle.symbol = stream.1 ∧ candle.timeframe = stream.2)
    (.valueError ("DataFeed returned a candle outside " ++ stream.1 ++ " " ++ stream.2.text))
  return history

def readHistories (store : MinuteStore) (floor : Option ℤ) (finish : ℤ) :
    List CandleStream → Except Fault Histories
  | [] => .ok fun _ => none
  | stream :: rest => do
    let history ← readHistory store floor finish stream
    let others ← readHistories store floor finish rest
    return fun other => if other = stream then some history else others other

/-- The history of a stream. -/
def historyOf (histories : Histories) (stream : CandleStream) : List Candle :=
  (histories stream).getD []

/-- The series of a run over its histories. -/
def setupOf (config : HistoryConfig) (demands : List (CandleStream × ℕ)) (histories : Histories) :
    SeriesSetup where
  symbol := config.symbol
  timeframe := config.timeframe
  start := config.start
  specs := config.specs
  warmup timeframe := required demands (config.symbol, timeframe)
  histories timeframe := historyOf histories (config.symbol, timeframe)
  references timeframe :=
    match config.referenceSymbol with
    | none => []
    | some reference => historyOf histories (reference, timeframe)

/-- The bars of a stream that closed by the start. -/
def closedPreload (config : HistoryConfig) (histories : Histories) (stream : CandleStream) :
    List Candle :=
  (historyOf histories stream).filter fun candle => candle.closeTime ≤ config.start

/-- `_short_warmups`: label, required and available bars of every short warm-up. -/
def shortWarmups (config : HistoryConfig) (demands : List (CandleStream × ℕ))
    (histories : Histories) : List (String × ℕ × ℕ) :=
  let streams := (streamsOf demands).filterMap fun stream =>
    let available := (closedPreload config histories stream).length
    if available < required demands stream then
      some (stream.1 ++ " " ++ stream.2.text, required demands stream, available)
    else none
  match config.referenceSymbol with
  | none => streams
  | some reference =>
    streams ++ (config.specs.filter (·.needsReferenceSeries)).filterMap fun spec =>
      let available := (matchCandles
        (closedPreload config histories (config.symbol, spec.timeframe))
        (closedPreload config histories (reference, spec.timeframe))).length
      if available < spec.minHistory then
        some (config.symbol ++ "/" ++ reference ++ " " ++ spec.timeframe.text ++ " matched pairs",
          spec.minHistory, available)
      else none

/-- The error of a run whose warm-up is short. -/
def insufficient (short : List (String × ℕ × ℕ)) : Fault :=
  let details := (short.insertionSort fun left right => left.1 ≤ right.1).map fun item =>
    item.1 ++ " requires " ++ toString item.2.1 ++ ", got " ++ toString item.2.2
  .valueError ("insufficient warm-up history: " ++ ", ".intercalate details)

/-- The floor of the bounded read. -/
def floorOf (config : HistoryConfig) (demands : List (CandleStream × ℕ)) : ℤ :=
  config.start - warmupSpan demands

/-- `_load_histories`, with a feed that takes a floor (`limited`) or one that does not: the
histories, and the floor in force afterwards. -/
def loadHistories (store : MinuteStore) (config : HistoryConfig)
    (demands : List (CandleStream × ℕ)) (limited : Bool) :
    Except Fault (Histories × Option ℤ) := do
  let floor := if limited then some (floorOf config demands) else none
  let bounded ← readHistories store floor config.finish (streamsOf demands)
  -- a short bounded read is released and every stream is read again
  let loaded ← if limited ∧ shortWarmups config demands bounded ≠ [] then do
      let histories ← readHistories store none config.finish (streamsOf demands)
      pure (histories, none)
    else pure (bounded, floor)
  require (shortWarmups config demands loaded.1 = [])
    (insufficient (shortWarmups config demands loaded.1))
  return loaded

/-- `_turtle_n_from_daily`, under the floor in force when a new read is needed. -/
def turtleNFromDaily (store : MinuteStore) (floor : Option ℤ) (config : HistoryConfig)
    (histories : Histories) (period : ℤ) : Except Fault (List (ℤ × Binary64)) := do
  let days ← (match histories (config.symbol, daily) with
    | some history => .ok history
    | none => do
      let candles ← CandleFeed.candles store floor config.symbol daily config.finish
      pure (sortedByOpen candles) : Except Fault (List Candle))
  turtleNSeries days period

/-- `_prepare_money_management_sources`. -/
def moneyManagementSources (store : MinuteStore) (config : HistoryConfig) (floor : Option ℤ)
    (histories : Histories) (limited : Bool) : Except Fault (List (ℤ × Binary64)) :=
  match config.policy with
  | none => .ok []
  | some policy =>
    if policy.id ≠ "turtle" then .ok []
    else
      match policy.requiredIndicators.filter fun requirement =>
        requirement.name = "TURTLE_N" ∧ requirement.timeframe = some daily with
      | [requirement] =>
        match requirement.period with
        | none => .error (.typeError "turtle N period must be an integer")
        | some period => do
          let bounded ← turtleNFromDaily store floor config histories period
          let series ← if (∀ item ∈ bounded, ¬item.1 ≤ config.start) ∧ limited then
              turtleNFromDaily store none config histories period
            else .ok bounded
          require (∃ item ∈ series, item.1 ≤ config.start)
            (.valueError "insufficient finalized daily history for turtle N at run start")
          return series
      | _ => .error (.valueError "turtle policy must declare exactly one daily N requirement")

/-- `_prepare_paired_histories`: every paired series has its warm-up pairs. -/
def checkPaired (config : HistoryConfig) (setup : SeriesSetup) :
    List ResolvedSeriesSpec → Except Fault Unit
  | [] => .ok ()
  | spec :: rest => do
    let available :=
      ((setup.pairs spec).filter fun pair => pair.1.closeTime ≤ setup.start).length
    require (spec.minHistory ≤ available)
      (.valueError ("insufficient warm-up history: " ++ config.symbol ++ "/" ++
        config.referenceSymbol.getD "" ++ " " ++ spec.timeframe.text ++
        " matched pairs requires " ++ toString spec.minHistory ++ ", got " ++
        toString available))
    checkPaired config setup rest

/-- What a run derives from history before its first bar. -/
structure Prepared where
  histories : Histories
  preload : CandleStream → List Candle
  setup : SeriesSetup
  turtleN : List (ℤ × Binary64)

/-- The evaluated bars of a run. -/
def evaluation (config : HistoryConfig) (histories : Histories) : List Candle :=
  (historyOf histories (config.symbol, config.timeframe)).filter fun candle =>
    config.start ≤ candle.openTime ∧ candle.closeTime ≤ config.finish

/-- The preparation of `Engine.run`, from the reads to the daily volatility. -/
def prepare (store : MinuteStore) (config : HistoryConfig) (limited : Bool) :
    Except Fault Prepared := do
  let demands ← config.demands
  let (histories, floor) ← loadHistories store config demands limited
  let setup := setupOf config demands histories
  checkPaired config setup (config.specs.filter (·.needsReferenceSeries))
  require (evaluation config histories ≠ [])
    (.valueError "evaluation period contains no confirmed candles")
  let turtleN ← moneyManagementSources store config floor histories limited
  return {
    histories := histories
    preload := fun stream =>
      lastOf (required demands stream) (closedPreload config histories stream)
    setup := setup
    turtleN := turtleN }

end WarmUp
end TradingSystem
