import TradingSystem.Types.Candle

/-!
# The series board of a run

Every resolved series of a run keeps an incremental state that consumes candles
one by one. The board holds, for each series, what its state has consumed, its
current value and the candle that value was computed from, and the read positions
in the histories of the other timeframes and of the paired series.

A state is a deterministic function of what it has consumed, so a series is
modelled by `compute`, and its state by the consumed inputs. `advance` is one bar;
`preload` is the warm-up before the first bar.
-/

namespace TradingSystem

open Logic

/-- `series_key`: the identity a series is recorded under. -/
structure SeriesKey where
  name : String
  params : List (String × String)
  timeframe : Timeframe
deriving DecidableEq

/-- One output of a series; `none` is a non-finite float. -/
abbrev SeriesNumber := Option ℚ

/-- One bar's output: a number or named numbers. -/
inductive SeriesValue
  | scalar (value : SeriesNumber)
  | named (outputs : List (String × SeriesNumber))
deriving DecidableEq

/-- What a series consumes for one bar: a candle, and for a paired series the
reference candle with the same close. -/
abbrev SeriesInput := Candle × Option Candle

/-- A resolved series: its identity, how it is warmed and what it computes. -/
structure ResolvedSeriesSpec where
  name : String
  params : List (String × String)
  timeframe : Timeframe
  needsReferenceSeries : Bool
  minHistory : ℕ
  undefinedOutputs : List String
  warmedUp : List SeriesInput → Bool
  compute : List SeriesInput → SeriesValue

/-- The recorded key of a resolved series. -/
def ResolvedSeriesSpec.key (spec : ResolvedSeriesSpec) : SeriesKey :=
  ⟨spec.name, spec.params, spec.timeframe⟩

/-- `_assert_finite_indicator`: reject a non-finite output that the series does not
leave undefined. -/
def assertFiniteIndicator (spec : ResolvedSeriesSpec) (value : SeriesValue) : Except Fault Unit :=
  match value with
  | .scalar number =>
    require number.isSome
      (.valueError ("indicator " ++ spec.name ++ " emitted a non-finite value"))
  | .named outputs =>
    require (∀ output ∈ outputs, output.2.isSome ∨ output.1 ∈ spec.undefinedOutputs)
      (.valueError ("indicator " ++ spec.name ++ " emitted a non-finite value"))

/-- The resolved series of a run and the candles they read. Histories are those of
the run's own symbol by timeframe; pairs are matched by close time. -/
structure SeriesSetup where
  symbol : String
  timeframe : Timeframe
  start : ℤ
  specs : List ResolvedSeriesSpec
  warmup : Timeframe → ℕ
  histories : Timeframe → List Candle
  references : Timeframe → List Candle

namespace SeriesSetup

variable (setup : SeriesSetup)

/-- `_match_candles`: primary candles with the reference candle of the same close. -/
def matchCandles (primary reference : List Candle) : List (Candle × Candle) :=
  primary.filterMap fun candle =>
    (reference.find? fun other => other.closeTime = candle.closeTime).map fun other =>
      (candle, other)

/-- Matching the cuts is cutting the matched pairs, when both legs of a pair are cut alike. -/
theorem matchCandles_cut {p : Candle → Bool} {primary reference : List Candle}
    (h : ∀ candle ∈ primary, ∀ other ∈ reference, other.closeTime = candle.closeTime →
      p other = p candle) :
    matchCandles (primary.filter p) (reference.filter p) =
      (matchCandles primary reference).filter fun pair => p pair.1 := by
  -- a candle that is kept finds the same partner in the cut list
  have hfind : ∀ candle ∈ primary, p candle = true →
      (reference.filter p).find? (fun other => other.closeTime = candle.closeTime) =
        reference.find? fun other => other.closeTime = candle.closeTime := by
    intro candle hcandle hp
    rw [List.find?_filter]
    induction reference with
    | nil => rfl
    | cons other rest ih =>
      have hrest := ih fun candle hc o ho => h candle hc o (List.mem_cons_of_mem _ ho)
      by_cases heq : other.closeTime = candle.closeTime
      · have hother := h candle hcandle other (List.mem_cons_self ..) heq
        rw [hp] at hother
        rw [List.find?_cons_of_pos (by simp [hother, heq]),
          List.find?_cons_of_pos (by simpa using heq)]
      · rw [List.find?_cons_of_neg (by simp [heq]),
          List.find?_cons_of_neg (by simpa using heq), hrest]
  clear h
  unfold matchCandles
  induction primary with
  | nil => rfl
  | cons candle rest ih =>
    have hrest := ih fun c hc => hfind c (List.mem_cons_of_mem _ hc)
    cases hp : p candle with
    | true =>
      rw [List.filter_cons_of_pos hp, List.filterMap_cons, List.filterMap_cons,
        hfind candle (List.mem_cons_self ..) hp]
      cases reference.find? fun other => other.closeTime = candle.closeTime with
      | none => exact hrest
      | some other =>
        dsimp only [Option.map_some]
        rw [List.filter_cons_of_pos (by simpa using hp), hrest]
    | false =>
      rw [List.filter_cons_of_neg (by simp [hp]), List.filterMap_cons]
      cases reference.find? fun other => other.closeTime = candle.closeTime with
      | none => exact hrest
      | some other =>
        dsimp only [Option.map_some]
        rw [List.filter_cons_of_neg (by simpa using hp), hrest]

/-- `_paired_histories` of a series. -/
def pairs (spec : ResolvedSeriesSpec) : List (Candle × Candle) :=
  matchCandles (setup.histories spec.timeframe) (setup.references spec.timeframe)

/-- The bars closed by the start of the evaluation. -/
def closedBefore (candles : List Candle) : List Candle :=
  candles.filter fun candle => candle.closeTime ≤ setup.start

/-- A Python slice `values[-count:]`; a zero count keeps everything. -/
def lastOf {α : Type} (count : ℕ) (values : List α) : List α :=
  if count = 0 then values else values.drop (values.length - count)

/-- `_series_preloads` of the run's own symbol. -/
def preloadOf (timeframe : Timeframe) : List Candle :=
  lastOf (setup.warmup timeframe) (setup.closedBefore (setup.histories timeframe))

/-- The warm-up pairs of a paired series. -/
def pairedPreload (spec : ResolvedSeriesSpec) : List (Candle × Candle) :=
  lastOf spec.minHistory ((setup.pairs spec).filter fun pair => pair.1.closeTime ≤ setup.start)

/-- The timeframes of the streams that feed unpaired series, each once. -/
def streams : List Timeframe :=
  ((setup.specs.filter fun spec => !spec.needsReferenceSeries).map (·.timeframe)).eraseDups

end SeriesSetup

/-- The board. -/
structure SeriesBoard where
  consumed : SeriesKey → List SeriesInput
  values : SeriesKey → Option SeriesValue
  sources : SeriesKey → Option Candle
  positions : Timeframe → ℕ
  pairedPositions : SeriesKey → ℕ

namespace SeriesBoard

/-- The board before warm-up: read positions stand at the start. -/
def initial (setup : SeriesSetup) : SeriesBoard where
  consumed _ := []
  values _ := none
  sources _ := none
  positions timeframe := (setup.closedBefore (setup.histories timeframe)).length
  pairedPositions key :=
    match setup.specs.find? fun spec => spec.key = key with
    | none => 0
    | some spec => ((setup.pairs spec).filter fun pair => pair.1.closeTime ≤ setup.start).length

/-- `state.seed`: repopulate a state without producing a value. -/
def seed (spec : ResolvedSeriesSpec) (inputs : List SeriesInput) :
    Program Fault SeriesBoard PUnit :=
  modify fun board => { board with consumed := Function.update board.consumed spec.key inputs }

/-- `state.update` and the bookkeeping around it: consume one input, reject an
undefined output, publish the value and its source candle. -/
def feed (spec : ResolvedSeriesSpec) (input : SeriesInput) : Program Fault SeriesBoard PUnit := do
  modify fun board => { board with
    consumed := Function.update board.consumed spec.key (board.consumed spec.key ++ [input]) }
  let board ← get
  let value := spec.compute (board.consumed spec.key)
  runPure (assertFiniteIndicator spec value)
  modify fun board => { board with
    values := Function.update board.values spec.key (some value)
    sources := Function.update board.sources spec.key (some input.1) }

/-- Warm one series up: a series on the execution timeframe is only seeded, every
other one also gets its current value. -/
def preloadSeries (setup : SeriesSetup) (spec : ResolvedSeriesSpec) :
    Program Fault SeriesBoard PUnit := do
  let inputs : List SeriesInput :=
    if spec.needsReferenceSeries then
      (setup.pairedPreload spec).map fun pair => (pair.1, some pair.2)
    else (setup.preloadOf spec.timeframe).map fun candle => (candle, none)
  if spec.needsReferenceSeries = false ∧ spec.timeframe = setup.timeframe then
    seed spec inputs
  else
    match inputs.getLast? with
    | none => throw (.lookupError "list index out of range")
    | some last => do
      seed spec inputs.dropLast
      feed spec last
  let board ← get
  raiseUnless (spec.warmedUp (board.consumed spec.key))
    (.valueError "indicator state did not warm up after required preload")

/-- `preload`: warm every series up in order. -/
def preload (setup : SeriesSetup) : Program Fault SeriesBoard PUnit :=
  forEach setup.specs (preloadSeries setup)

/-- The candles of a stream that became final with this bar. -/
def freshCandles (setup : SeriesSetup) (candle : Candle) (timeframe : Timeframe) :
    Program Fault SeriesBoard (List Candle) :=
  if timeframe = setup.timeframe then pure [candle]
  else do
    let board ← get
    let fresh := ((setup.histories timeframe).drop (board.positions timeframe)).takeWhile
      fun source => source.closeTime ≤ candle.closeTime
    modify fun board => { board with
      positions := Function.update board.positions timeframe
        (board.positions timeframe + fresh.length) }
    return fresh

/-- Feed the unpaired series of one stream. -/
def advanceStream (setup : SeriesSetup) (candle : Candle) (timeframe : Timeframe) :
    Program Fault SeriesBoard PUnit := do
  let fresh ← freshCandles setup candle timeframe
  forEach fresh fun source =>
    forEach (setup.specs.filter fun spec =>
        !spec.needsReferenceSeries && decide (spec.timeframe = timeframe)) fun spec =>
      feed spec (source, none)

/-- Feed one paired series with the pairs that became final with this bar. -/
def advancePaired (setup : SeriesSetup) (candle : Candle) (spec : ResolvedSeriesSpec) :
    Program Fault SeriesBoard PUnit := do
  let board ← get
  let fresh := ((setup.pairs spec).drop (board.pairedPositions spec.key)).takeWhile
    fun pair => pair.1.closeTime ≤ candle.closeTime
  forEach fresh fun pair => feed spec (pair.1, some pair.2)
  modify fun board => { board with
    pairedPositions := Function.update board.pairedPositions spec.key
      (board.pairedPositions spec.key + fresh.length) }

/-- The state updates of `_update_indicators` for one bar. -/
def advance (setup : SeriesSetup) (candle : Candle) : Program Fault SeriesBoard PUnit := do
  forEach setup.streams (advanceStream setup candle)
  forEach (setup.specs.filter (·.needsReferenceSeries)) (advancePaired setup candle)

/-- The published value of a series and its source candle. -/
def published (spec : ResolvedSeriesSpec) : Program Fault SeriesBoard (SeriesValue × Candle) := do
  let board ← get
  match board.values spec.key, board.sources spec.key with
  | some value, some source => return (value, source)
  | _, _ => throw (.valueError ("series " ++ spec.name ++ " has no finalized value"))

/-- `_recordable_indicator_value`, the named outputs; a scalar is recorded as such. -/
def features (board : SeriesBoard) (specs : List ResolvedSeriesSpec) :
    List (SeriesKey × SeriesValue) :=
  specs.filterMap fun spec => (board.values spec.key).map fun value => (spec.key, value)

end SeriesBoard
end TradingSystem
