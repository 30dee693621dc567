import TradingSystem.Indicators.RollingWindow

/-!
# Ichimoku and Alligator

Both publish lines later than the candle that determines them. The batch functions republish a
series, the states hold each value in a delay line.

* `outputs_delayLine` — a delay line gives the republished series.
* `IchimokuState.outputs_ichimoku`, `AlligatorState.outputs_alligator` — fed candle by candle, the
  states give the batch series.
-/

namespace TradingSystem
namespace Indicators

open Streaming

/-! ### Delays -/

def publishAfter (values : List Value) (delay : ℕ) : List Value :=
  if delay = 0 then values else (List.replicate delay NAN ++ values).take values.length

/-- The queue of `_DelayLine`. -/
abbrev DelayLine := List Value

namespace DelayLine

/-- The held value that has come due, or NaN while none has. -/
def current (delay : ℕ) (queue : DelayLine) : Value :=
  if queue.length ≤ delay then NAN else queue.headD NAN

/-- Accept one value and return the one this candle may publish. -/
def update (delay : ℕ) (queue : DelayLine) (value : Value) : DelayLine × Value :=
  let queue := push (delay + 1) queue value
  (queue, current delay queue)

end DelayLine

@[simp] theorem length_publishAfter (values : List Value) (delay : ℕ) :
    (publishAfter values delay).length = values.length := by
  rw [publishAfter]
  split <;> simp

theorem getElem_publishAfter (values : List Value) (delay i : ℕ)
    (h : i < (publishAfter values delay).length) :
    (publishAfter values delay)[i] = if delay ≤ i then values.getD (i - delay) NAN else NAN := by
  have hlt : i < values.length := by simpa using h
  simp only [publishAfter]
  split
  · rename_i hzero
    simp [hzero, hlt]
  · rw [List.getElem_take]
    split
    · rename_i hle
      rw [List.getElem_append_right (by simpa using hle)]
      simp [List.getD_eq_getElem?_getD, show i - delay < values.length by omega]
    · rename_i hle
      rw [List.getElem_append_left (by simpa using hle), List.getElem_replicate]

/-- A delay line gives the series republished later. -/
theorem outputs_delayLine (delay : ℕ) (values : List Value) :
    outputs (DelayLine.update delay) [] values = publishAfter values delay := by
  have hprefixes : outputs (DelayLine.update delay) [] values =
      prefixes (fun values => DelayLine.current delay (values.rtake (delay + 1))) values := by
    apply outputs_eq_prefixes
    intro xs x
    have hfinal : final (DelayLine.update delay) [] xs = xs.rtake (delay + 1) :=
      foldl_push (delay + 1) xs
    rw [hfinal, DelayLine.update, push_rtake]
  rw [hprefixes]
  apply List.ext_getElem (by simp)
  intro i hi hi'
  have hlt : i < values.length := by simpa using hi
  have hlength : (values.take (i + 1)).length = i + 1 := by simp; omega
  rw [getElem_prefixes, getElem_publishAfter, DelayLine.current, length_rtake, hlength]
  by_cases hle : delay ≤ i
  · rw [if_neg (by omega), if_pos hle, List.rtake, hlength,
      show i + 1 - (delay + 1) = i - delay by omega, List.headD_eq_head?_getD, List.head?_drop,
      List.getElem?_take_of_lt (by omega), List.getD_eq_getElem?_getD]
  · rw [if_pos (by omega), if_neg hle]

/-! ### Ichimoku -/

def halfway (first second : Value) : Value := both (fun x y => (x + y) / 2) first second

def midpoint (first second : List Value) : List Value := List.zipWith halfway first second

/-- The parameters that `_validate_ichimoku` admits. -/
structure IchimokuParameters where
  conversionPeriod : ℕ
  basePeriod : ℕ
  spanBPeriod : ℕ
  displacement : ℕ
  conversion_pos : 0 < conversionPeriod
  base_pos : 0 < basePeriod
  spanB_pos : 0 < spanBPeriod

structure IchimokuValue where
  tenkan : Value
  kijun : Value
  senkouA : Value
  senkouB : Value
deriving DecidableEq

/-- The highs of candles. -/
def highs (candles : List Candle) : List Value := candles.map fun candle => some candle.high

/-- The lows of candles. -/
def lows (candles : List Candle) : List Value := candles.map fun candle => some candle.low

/-- The closes of candles. -/
def closes (candles : List Candle) : List Value := candles.map fun candle => some candle.close

@[simp] theorem highs_cons (candle : Candle) (candles : List Candle) :
    highs (candle :: candles) = some candle.high :: highs candles := rfl

@[simp] theorem lows_cons (candle : Candle) (candles : List Candle) :
    lows (candle :: candles) = some candle.low :: lows candles := rfl

@[simp] theorem closes_cons (candle : Candle) (candles : List Candle) :
    closes (candle :: candles) = some candle.close :: closes candles := rfl

@[simp] theorem length_closes (candles : List Candle) :
    (closes candles).length = candles.length := by simp [closes]

def ichimoku (p : IchimokuParameters) (candles : List Candle) : List IchimokuValue :=
  let conversion := midpoint (hh (highs candles) p.conversionPeriod)
    (ll (lows candles) p.conversionPeriod)
  let base := midpoint (hh (highs candles) p.basePeriod) (ll (lows candles) p.basePeriod)
  let leadingA := publishAfter (midpoint conversion base) p.displacement
  let leadingB := publishAfter (midpoint (hh (highs candles) p.spanBPeriod)
    (ll (lows candles) p.spanBPeriod)) p.displacement
  List.zipWith4 IchimokuValue.mk conversion base leadingA leadingB

structure IchimokuState where
  conversionHigh : RollingExtremeState
  conversionLow : RollingExtremeState
  baseHigh : RollingExtremeState
  baseLow : RollingExtremeState
  spanHigh : RollingExtremeState
  spanLow : RollingExtremeState
  leadingA : DelayLine
  leadingB : DelayLine
  value : IchimokuValue

namespace IchimokuState

/-- A state that has seen nothing. -/
def new : IchimokuState :=
  ⟨.new, .new, .new, .new, .new, .new, [], [], ⟨NAN, NAN, NAN, NAN⟩⟩

def update (p : IchimokuParameters) (state : IchimokuState) (candle : Candle) :
    IchimokuState × IchimokuValue :=
  let conversionHigh :=
    RollingExtremeState.update p.conversionPeriod true state.conversionHigh (some candle.high)
  let conversionLow :=
    RollingExtremeState.update p.conversionPeriod false state.conversionLow (some candle.low)
  let conversion := halfway conversionHigh.2 conversionLow.2
  let baseHigh := RollingExtremeState.update p.basePeriod true state.baseHigh (some candle.high)
  let baseLow := RollingExtremeState.update p.basePeriod false state.baseLow (some candle.low)
  let base := halfway baseHigh.2 baseLow.2
  let spanHigh := RollingExtremeState.update p.spanBPeriod true state.spanHigh (some candle.high)
  let spanLow := RollingExtremeState.update p.spanBPeriod false state.spanLow (some candle.low)
  let spanSource := halfway spanHigh.2 spanLow.2
  let leadingA := DelayLine.update p.displacement state.leadingA (halfway conversion base)
  let leadingB := DelayLine.update p.displacement state.leadingB spanSource
  let value := ⟨conversion, base, leadingA.2, leadingB.2⟩
  (⟨conversionHigh.1, conversionLow.1, baseHigh.1, baseLow.1, spanHigh.1, spanLow.1,
    leadingA.1, leadingB.1, value⟩, value)

/-- The lines of a state are those of its windows and delays. -/
theorem outputs_update (p : IchimokuParameters) (state : IchimokuState)
    (candles : List Candle) :
    outputs (update p) state candles =
      let conversion := midpoint
        (outputs (RollingExtremeState.update p.conversionPeriod true) state.conversionHigh
          (highs candles))
        (outputs (RollingExtremeState.update p.conversionPeriod false) state.conversionLow
          (lows candles))
      let base := midpoint
        (outputs (RollingExtremeState.update p.basePeriod true) state.baseHigh (highs candles))
        (outputs (RollingExtremeState.update p.basePeriod false) state.baseLow (lows candles))
      let spanSource := midpoint
        (outputs (RollingExtremeState.update p.spanBPeriod true) state.spanHigh (highs candles))
        (outputs (RollingExtremeState.update p.spanBPeriod false) state.spanLow (lows candles))
      List.zipWith4 IchimokuValue.mk conversion base
        (outputs (DelayLine.update p.displacement) state.leadingA (midpoint conversion base))
        (outputs (DelayLine.update p.displacement) state.leadingB spanSource) := by
  induction candles generalizing state with
  | nil => rfl
  | cons candle candles ih =>
    rw [outputs_cons, ih]
    rfl

/-- Fed candle by candle, the state gives the batch lines. -/
theorem outputs_ichimoku (p : IchimokuParameters) (candles : List Candle) :
    outputs (update p) new candles = ichimoku p candles := by
  rw [outputs_update]
  simp only [new, outputs_rollingExtreme p.conversion_pos, outputs_rollingExtreme p.base_pos,
    outputs_rollingExtreme p.spanB_pos, outputs_delayLine]
  rfl

end IchimokuState

/-! ### Alligator -/

/-- The parameters that `_validate_alligator` admits. -/
structure AlligatorParameters where
  jawPeriod : ℕ
  jawShift : ℕ
  teethPeriod : ℕ
  teethShift : ℕ
  lipsPeriod : ℕ
  lipsShift : ℕ
  jaw_pos : 0 < jawPeriod
  teeth_pos : 0 < teethPeriod
  lips_pos : 0 < lipsPeriod

structure AlligatorValue where
  jaw : Value
  teeth : Value
  lips : Value
deriving DecidableEq

/-- The median prices of candles. -/
def hl2 (candles : List Candle) : List Value := candles.map fun candle => some candle.median

def alligator (p : AlligatorParameters) (candles : List Candle) : List AlligatorValue :=
  let median := hl2 candles
  let jaw := publishAfter (rma median p.jawPeriod) p.jawShift
  let teeth := publishAfter (rma median p.teethPeriod) p.teethShift
  let lips := publishAfter (rma median p.lipsPeriod) p.lipsShift
  List.zipWith3 AlligatorValue.mk jaw teeth lips

structure AlligatorState where
  jaw : RecursiveAverageState
  teeth : RecursiveAverageState
  lips : RecursiveAverageState
  jawDelay : DelayLine
  teethDelay : DelayLine
  lipsDelay : DelayLine
  value : AlligatorValue

namespace AlligatorState

/-- A state that has seen nothing. -/
def new : AlligatorState := ⟨.new, .new, .new, [], [], [], ⟨NAN, NAN, NAN⟩⟩

def update (p : AlligatorParameters) (state : AlligatorState) (candle : Candle) :
    AlligatorState × AlligatorValue :=
  let median : Value := some candle.median
  let jaw := RmaState.update p.jawPeriod state.jaw median
  let jawDelay := DelayLine.update p.jawShift state.jawDelay jaw.2
  let teeth := RmaState.update p.teethPeriod state.teeth median
  let teethDelay := DelayLine.update p.teethShift state.teethDelay teeth.2
  let lips := RmaState.update p.lipsPeriod state.lips median
  let lipsDelay := DelayLine.update p.lipsShift state.lipsDelay lips.2
  let value := ⟨jawDelay.2, teethDelay.2, lipsDelay.2⟩
  (⟨jaw.1, teeth.1, lips.1, jawDelay.1, teethDelay.1, lipsDelay.1, value⟩, value)

/-- The lines of a state are those of its averages and delays. -/
theorem outputs_update (p : AlligatorParameters) (state : AlligatorState)
    (candles : List Candle) :
    outputs (update p) state candles =
      List.zipWith3 AlligatorValue.mk
        (outputs (DelayLine.update p.jawShift) state.jawDelay
          (outputs (RmaState.update p.jawPeriod) state.jaw (hl2 candles)))
        (outputs (DelayLine.update p.teethShift) state.teethDelay
          (outputs (RmaState.update p.teethPeriod) state.teeth (hl2 candles)))
        (outputs (DelayLine.update p.lipsShift) state.lipsDelay
          (outputs (RmaState.update p.lipsPeriod) state.lips (hl2 candles))) := by
  induction candles generalizing state with
  | nil => rfl
  | cons candle candles ih =>
    rw [outputs_cons, ih]
    rfl

/-- Fed candle by candle, the state gives the batch lines. -/
theorem outputs_alligator (p : AlligatorParameters) (candles : List Candle) :
    outputs (update p) new candles = alligator p candles := by
  rw [outputs_update]
  simp only [new, outputs_rma p.jaw_pos, outputs_rma p.teeth_pos, outputs_rma p.lips_pos,
    outputs_delayLine]
  rfl

end AlligatorState

end Indicators
end TradingSystem
