import TradingSystem.Patterns.AverageState
import TradingSystem.Types.Candle

/-!
# The Hikkake patterns

The two patterns with a memory. A pattern is remembered with the bar it was found at, and a later
bar may confirm it: within three bars, against the bar before the pattern.

* `double` — the arithmetic of the near average, rounded to a double at every step.
* `hikkake`, `hikkakeModified` — the two judges.
* `advance`, `updateInteger` — one bar, over the candles seen, the memory and the near average.
* `seed`, `run`, `computeIntegers` — a history replayed, later bars, and a whole sequence at once.
-/

namespace TradingSystem
namespace Patterns

open Streaming Numeric

def defaultCandleSettings : CandleSettings
  | .bodyLong => ⟨.realBody, 10, 1⟩
  | .bodyVeryLong => ⟨.realBody, 10, 3⟩
  | .bodyShort => ⟨.realBody, 10, 1⟩
  | .bodyDoji => ⟨.highLow, 10, 1 / 10⟩
  | .shadowLong => ⟨.realBody, 0, 1⟩
  | .shadowVeryLong => ⟨.realBody, 0, 2⟩
  | .shadowShort => ⟨.shadows, 10, 1⟩
  | .shadowVeryShort => ⟨.highLow, 10, 1 / 10⟩
  | .near => ⟨.highLow, 5, 1 / 5⟩
  | .far => ⟨.highLow, 5, 3 / 5⟩
  | .equal => ⟨.highLow, 5, 1 / 20⟩

def candleSettingsLookback (settingTypes : List CandleSettingType) (minimum extraBars : ℕ) : ℕ :=
  (settingTypes.map fun settingType => (defaultCandleSettings settingType).avgPeriod).foldl max
    minimum + extraBars

/-! ### The near average -/

section Double

variable (settings : CandleSettings) (settingType : CandleSettingType)

/-- `real_body`. -/
def doubleBody (candle : Candle) : Binary64 := (candle.close.sub candle.open).abs

/-- `upper_shadow`. -/
def doubleUpper (candle : Candle) : Binary64 :=
  candle.high.sub (if candle.open ≤ candle.close then candle.close else candle.open)

/-- `lower_shadow`. -/
def doubleLower (candle : Candle) : Binary64 :=
  Binary64.sub (if candle.open ≤ candle.close then candle.open else candle.close) candle.low

/-- `candle_range`. -/
def doubleRange (candle : Candle) : Binary64 :=
  match (settings settingType).rangeType with
  | .realBody => doubleBody candle
  | .highLow => candle.high.sub candle.low
  | .shadows => (doubleUpper candle).add (doubleLower candle)

/-- `candle_average`. -/
def doubleAverage (periodTotal : Binary64) (candle : Candle) : Binary64 :=
  let setting := settings settingType
  let average :=
    if setting.avgPeriod ≠ 0 then periodTotal.div (.ofRat setting.avgPeriod)
    else doubleRange settings settingType candle
  let divisor := Binary64.ofRat (if setting.rangeType = .shadows then 2 else 1)
  ((Binary64.ofRat setting.factor).mul average).div divisor

/-- The average as it is computed: ranges, totals and averages are doubles. -/
def double : Averaging Candle Binary64 where
  avgPeriod := (settings settingType).avgPeriod
  range := doubleRange settings settingType
  zero := .zero
  add := .add
  sub := .sub
  average := doubleAverage settings settingType

end Double

/-! ### The ports -/

def hikkakeLookback : ℕ := 5

def hikkakemodLookback : ℕ := candleSettingsLookback [.near] 1 5

def confirmationBars : ℕ := 3

def matchMagnitude : ℤ := 100

/-- A judge reads the candles seen, the index of the last one and the near average. -/
abbrev HikkakeJudge := List Candle → ℤ → Option Binary64 → Except Fault ℤ

def hikkake : HikkakeJudge := fun candles index _ => do
  let first ← item candles (index - 2)
  let second ← item candles (index - 1)
  let third ← item candles index
  if second.high < first.high ∧ first.low < second.low ∧
      (third.high < second.high ∧ third.low < second.low ∨
        second.high < third.high ∧ second.low < third.low) then
    return matchMagnitude * (if third.high < second.high then 1 else -1)
  else return 0

def hikkakeModified : HikkakeJudge := fun candles index nearAverage =>
  match nearAverage with
  | none => .error (.valueError "Near average is unavailable for CDLHIKKAKEMOD")
  | some nearAverage => do
    let first ← item candles (index - 3)
    let second ← item candles (index - 2)
    let third ← item candles (index - 1)
    let fourth ← item candles index
    if second.high < first.high ∧ first.low < second.low ∧
        third.high < second.high ∧ second.low < third.low ∧
        (fourth.high < third.high ∧ fourth.low < third.low ∧
            second.close ≤ second.low.add nearAverage ∨
          third.high < fourth.high ∧ third.low < fourth.low ∧
            second.high.sub nearAverage ≤ second.close) then
      return matchMagnitude * (if fourth.high < third.high then 1 else -1)
    else return 0

/-- A port: its lookback, the index from which bars are judged, and the judge. -/
structure HikkakePort where
  name : String
  talibFunction : String
  lookback : ℕ
  transitionStart : ℕ
  judge : HikkakeJudge
  usesNearAverage : Bool
  start_le : transitionStart ≤ lookback

def patHikkake : HikkakePort where
  name := "pat_hikkake"
  talibFunction := "CDLHIKKAKE"
  lookback := hikkakeLookback
  transitionStart := hikkakeLookback - confirmationBars
  judge := hikkake
  usesNearAverage := false
  start_le := Nat.sub_le _ _

def patHikkakeModified : HikkakePort where
  name := "pat_hikkake_modified"
  talibFunction := "CDLHIKKAKEMOD"
  lookback := hikkakemodLookback
  transitionStart := hikkakemodLookback - confirmationBars
  judge := hikkakeModified
  usesNearAverage := true
  start_le := Nat.sub_le _ _

def talibHikkakePatterns : List HikkakePort := [patHikkake, patHikkakeModified]

namespace HikkakePort

/-- The declared history. -/
def minHistory (port : HikkakePort) : ℕ := port.lookback + 1

end HikkakePort

/-! ### The state -/

structure TalibHikkakeState where
  seen : ℕ
  candles : List Candle
  nearAverage : CandleAverageState Candle Binary64
  patternIdx : ℕ
  patternResult : ℤ
  currentInteger : Option ℤ

namespace TalibHikkakeState

/-- The near average that a pattern compares with. -/
def nearAveraging : Averaging Candle Binary64 := double defaultCandleSettings .near

/-- The offset of its target. -/
def nearOffset : ℕ := 2

/-- A state that has seen nothing. -/
def new : TalibHikkakeState := ⟨0, [], .new nearAveraging, 0, 0, none⟩

variable (port : HikkakePort)

/-- Whether a bar confirms the remembered pattern, against the bar before it. -/
def confirms (state : TalibHikkakeState) (index : ℕ) (current : Candle) : Except Fault Bool :=
  if index ≤ state.patternIdx + confirmationBars then
    if 0 < state.patternResult then do
      let before ← item state.candles ((state.patternIdx : ℤ) - 1)
      return decide (before.high < current.close)
    else if state.patternResult < 0 then do
      let before ← item state.candles ((state.patternIdx : ℤ) - 1)
      return decide (current.close < before.low)
    else return false
  else return false

def advance (state : TalibHikkakeState) (index : ℕ) (nearAverage : Option Binary64) :
    Except Fault (TalibHikkakeState × ℤ) := do
  let newResult ← port.judge state.candles index nearAverage
  if newResult ≠ 0 then
    return ({ state with patternResult := newResult, patternIdx := index }, newResult)
  else
    let current ← item state.candles index
    if ← state.confirms index current then
      return ({ state with patternIdx := 0 },
        state.patternResult + matchMagnitude * (if 0 < state.patternResult then 1 else -1))
    else return (state, 0)

/-- The update of the near average, for a port that uses it. -/
def updateNear (state : TalibHikkakeState) (candle : Candle) :
    Except Fault (CandleAverageState Candle Binary64 × Option Binary64) :=
  if port.usesNearAverage then
    CandleAverageState.update nearAveraging nearOffset state.nearAverage candle
  else .ok (state.nearAverage, none)

def updateInteger (state : TalibHikkakeState) (candle : Candle) :
    Except Fault (TalibHikkakeState × Option ℤ) := do
  let index := state.seen
  let (near, nearAverage) ← updateNear port state candle
  let state := { state with
    seen := state.seen + 1, candles := state.candles ++ [candle], nearAverage := near }
  let (state, integer) ←
    if port.transitionStart ≤ index then advance port state index nearAverage
    else pure (state, 0)
  let currentInteger := if port.lookback ≤ index then some integer else none
  return ({ state with currentInteger := currentInteger }, currentInteger)

/-- `seed`: replay candles from a fresh state. -/
def seed (candles : List Candle) : Except Fault TalibHikkakeState :=
  candles.foldlM (fun state candle => do
    let (state, _) ← updateInteger port state candle
    return state) new

/-- The integers of later bars. -/
def run (state : TalibHikkakeState) (candles : List Candle) : Except Fault (List (Option ℤ)) :=
  outputsM (updateInteger port) state candles

end TalibHikkakeState

def talibRawAllowedValues : List ℤ := [-200, -100, -80, 0, 80, 100, 200]

/-- The checks of `validate_talib_raw_integer_series` on the values from an index on. -/
def validateValues (port : HikkakePort) : ℕ → List ℤ → Except Fault Unit
  | _, [] => .ok ()
  | index, value :: values => do
    require (value ∈ talibRawAllowedValues) (.valueError (port.talibFunction ++
      " value at index " ++ toString index ++ " is not a TA-Lib v0.7.1 CDL raw integer: " ++
      toString value))
    require (port.lookback ≤ index ∨ value = 0) (.valueError (port.talibFunction ++
      " warm-up index " ++ toString index ++ " must be 0, got " ++ toString value))
    validateValues port (index + 1) values

def validateTalibRawIntegerSeries (port : HikkakePort) (values : List ℤ) (candleCount : ℕ) :
    Except Fault Unit := do
  require (values.length = candleCount) (.valueError (port.talibFunction ++ " produced " ++
    toString values.length ++ " values for " ++ toString candleCount ++ " candles"))
  validateValues port 0 values

def computeIntegers (port : HikkakePort) (candles : List Candle) : Except Fault (List ℤ) := do
  let integers ← TalibHikkakeState.new.run port candles
  let values := integers.map fun integer => integer.getD 0
  validateTalibRawIntegerSeries port values candles.length
  return values

end Patterns
end TradingSystem
