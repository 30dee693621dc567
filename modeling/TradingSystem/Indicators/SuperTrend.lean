import TradingSystem.Indicators.Averages
import TradingSystem.Types.Enums
import Mathlib.Tactic.NormNum

/-!
# SuperTrend

`_SuperTrendTracker` carries two bands, a trend and the last close. Each band is either the fresh
one or the one carried.

* `ordered_iff` — the upper band is below the lower one exactly when a fresh band passes the
  other, carried one.
* `superTrendStep` — with that, where the line is and how it moves, after every update.
-/

namespace TradingSystem
namespace Indicators

open Streaming

/-! ### Average True Range -/

def atr (candles : List Candle) (period : ℕ) : List Value := rma ((tr candles).map some) period

structure ATRState where
  previousClose : Option ℚ
  average : RecursiveAverageState

namespace ATRState

/-- A state that has seen nothing. -/
def new : ATRState := ⟨none, .new⟩

/-- Smooth the True Range of one more candle. -/
def update (period : ℕ) (state : ATRState) (candle : Candle) : ATRState × Value :=
  let (average, value) := RmaState.update period state.average
    (some (trueRange state.previousClose candle))
  (⟨some candle.close, average⟩, value)

theorem outputs_update (period : ℕ) (previous : Option Candle) (candles : List Candle)
    (state : ATRState) (h : state.previousClose = previous.map Candle.close) :
    outputs (update period) state candles = outputs (RmaState.update period) state.average
      ((withPrevious (fun previous candle => trueRange (previous.map Candle.close) candle)
        previous candles).map some) := by
  induction candles generalizing previous state with
  | nil => rfl
  | cons candle candles ih =>
    rw [outputs_cons, ih (some candle) _ rfl]
    simp [update, h]

end ATRState

/-- Fed one by one, `ATRState` gives the series of `atr`. -/
theorem outputs_atr {period : ℕ} (hperiod : 0 < period) (candles : List Candle) :
    outputs (ATRState.update period) .new candles = atr candles period := by
  rw [ATRState.outputs_update period none candles .new rfl, atr, ← outputs_rma hperiod]
  rfl

/-! ### The code -/

/-- The variables of `_SuperTrendTracker`, all NaN before the first defined range. -/
structure Bands where
  upper : ℚ
  lower : ℚ
  uptrend : Bool
  previousClose : ℚ

/-- The line reported. -/
def Bands.line (bands : Bands) : ℚ := if bands.uptrend then bands.lower else bands.upper

structure SuperTrendValue where
  supertrend : Value
  direction : Value
  upper : Value
  lower : Value
deriving DecidableEq

namespace SuperTrendTracker

def current : Option Bands → SuperTrendValue
  | none => ⟨NAN, NAN, NAN, NAN⟩
  | some bands =>
    ⟨bands.line, some (if bands.uptrend then 1 else -1), bands.upper, bands.lower⟩

/-- The upper band after a candle. -/
def finalUpper (before : Option Bands) (basicUpper : ℚ) : ℚ :=
  match before with
  | none => basicUpper
  | some bands =>
    if basicUpper < bands.upper ∨ bands.upper < bands.previousClose then basicUpper
    else bands.upper

/-- The lower band after a candle. -/
def finalLower (before : Option Bands) (basicLower : ℚ) : ℚ :=
  match before with
  | none => basicLower
  | some bands =>
    if bands.lower < basicLower ∨ bands.previousClose < bands.lower then basicLower
    else bands.lower

/-- The bands after a candle with a defined range. -/
def advance (multiplier : ℚ) (before : Option Bands) (candle : Candle)
    (median averageRange : ℚ) : Bands :=
  let upper := finalUpper before (median + multiplier * averageRange)
  let lower := finalLower before (median - multiplier * averageRange)
  let uptrend : Bool :=
    if before.any Bands.uptrend then ¬ candle.close < lower else upper < candle.close
  ⟨upper, lower, uptrend, candle.close⟩

def update (multiplier : ℚ) (before : Option Bands) (candle : Candle) (median : ℚ)
    (averageRange : Value) : Option Bands × SuperTrendValue :=
  match averageRange with
  | none => (before, current before)
  | some range =>
    let after := some (advance multiplier before candle median range)
    (after, current after)

end SuperTrendTracker

/-- The loop of `supertrend` over candles, medians and ranges. -/
def superTrendLoop (multiplier : ℚ) : Option Bands → List (Candle × ℚ × Value) →
    List SuperTrendValue
  | _, [] => []
  | tracker, (candle, median, range) :: rest =>
    let (tracker, value) := SuperTrendTracker.update multiplier tracker candle median range
    value :: superTrendLoop multiplier tracker rest

def supertrend (candles : List Candle) (period : ℕ) (multiplier : ℚ) :
    Except Fault (List SuperTrendValue) :=
  if period = 0 then .error (.valueError "period must be positive")
  else if multiplier ≤ 0 then .error (.valueError "multiplier must be positive")
  else .ok (superTrendLoop multiplier none
    (candles.zip ((candles.map Candle.median).zip (atr candles period))))

structure SuperTrendState where
  range : ATRState
  tracker : Option Bands

namespace SuperTrendState

/-- A state that has seen nothing. -/
def new : SuperTrendState := ⟨.new, none⟩

def update (period : ℕ) (multiplier : ℚ) (state : SuperTrendState) (candle : Candle) :
    SuperTrendState × SuperTrendValue :=
  let (range, averageRange) := state.range.update period candle
  let (tracker, value) := SuperTrendTracker.update multiplier state.tracker candle candle.median
    averageRange
  (⟨range, tracker⟩, value)

theorem outputs_update (period : ℕ) (multiplier : ℚ) (candles : List Candle)
    (state : SuperTrendState) :
    outputs (update period multiplier) state candles = superTrendLoop multiplier state.tracker
      (candles.zip ((candles.map Candle.median).zip
        (outputs (ATRState.update period) state.range candles))) := by
  induction candles generalizing state with
  | nil => rfl
  | cons candle candles ih =>
    rw [outputs_cons, ih]
    rfl

end SuperTrendState

/-- Fed one by one, `SuperTrendState` gives the series of `supertrend`. -/
theorem outputs_supertrend {period : ℕ} {multiplier : ℚ} (hperiod : 0 < period)
    (hmultiplier : 0 < multiplier) (candles : List Candle) :
    supertrend candles period multiplier =
      .ok (outputs (SuperTrendState.update period multiplier) .new candles) := by
  rw [supertrend, if_neg hperiod.ne', if_neg (not_le.2 hmultiplier),
    SuperTrendState.outputs_update, SuperTrendState.new, outputs_atr hperiod]

/-! ### One update -/

/-- The close is on the far side of the line: not below it in an uptrend, not above it in a
downtrend. -/
def Bands.Protective (bands : Bands) : Prop :=
  if bands.uptrend then bands.line ≤ bands.previousClose else bands.previousClose ≤ bands.line

/-- The upper band is not below the lower one. -/
def Bands.Ordered (bands : Bands) : Prop := bands.lower ≤ bands.upper

/-- The line did not move away from price. -/
def Bands.HeldBy (before after : Bands) : Prop :=
  if after.uptrend then before.line ≤ after.line else after.line ≤ before.line

/-- Whether the upper band takes the fresh value. -/
def Bands.FreshUpper (bands : Bands) (basicUpper : ℚ) : Prop :=
  basicUpper < bands.upper ∨ bands.upper < bands.previousClose

/-- Whether the lower band takes the fresh value. -/
def Bands.FreshLower (bands : Bands) (basicLower : ℚ) : Prop :=
  bands.lower < basicLower ∨ bands.previousClose < bands.lower

/-- A fresh band passes the other band, which is carried. -/
def Bands.Crossed (bands : Bands) (basicUpper basicLower : ℚ) : Prop :=
  (bands.FreshUpper basicUpper ∧ ¬ bands.FreshLower basicLower ∧ basicUpper < bands.lower) ∨
    (¬ bands.FreshUpper basicUpper ∧ bands.FreshLower basicLower ∧ bands.upper < basicLower)

section Update

variable {multiplier : ℚ} {candle : Candle} {median range : ℚ}

/-- The basic bands are in order. -/
theorem basic_ordered (median : ℚ) (hmultiplier : 0 < multiplier) (hrange : 0 ≤ range) :
    median - multiplier * range ≤ median + multiplier * range := by
  have := mul_nonneg hmultiplier.le hrange
  linarith

/-- Carried or fresh, the upper band. -/
theorem finalUpper_some (bands : Bands) (basicUpper : ℚ) :
    (bands.FreshUpper basicUpper ∧
      SuperTrendTracker.finalUpper (some bands) basicUpper = basicUpper) ∨
    (¬ bands.FreshUpper basicUpper ∧
      SuperTrendTracker.finalUpper (some bands) basicUpper = bands.upper) := by
  by_cases h : bands.FreshUpper basicUpper
  · exact .inl ⟨h, if_pos h⟩
  · exact .inr ⟨h, if_neg h⟩

/-- Carried or fresh, the lower band. -/
theorem finalLower_some (bands : Bands) (basicLower : ℚ) :
    (bands.FreshLower basicLower ∧
      SuperTrendTracker.finalLower (some bands) basicLower = basicLower) ∨
    (¬ bands.FreshLower basicLower ∧
      SuperTrendTracker.finalLower (some bands) basicLower = bands.lower) := by
  by_cases h : bands.FreshLower basicLower
  · exact .inl ⟨h, if_pos h⟩
  · exact .inr ⟨h, if_neg h⟩

/-- **When the bands are in order.** Two carried bands always are, since the close was between
them; so are two fresh ones. -/
theorem ordered_iff (hmultiplier : 0 < multiplier) (hrange : 0 ≤ range) (bands : Bands) :
    (SuperTrendTracker.advance multiplier (some bands) candle median range).Ordered ↔
      ¬ bands.Crossed (median + multiplier * range) (median - multiplier * range) := by
  have hbasic := basic_ordered median hmultiplier hrange
  simp only [Bands.Ordered, SuperTrendTracker.advance, Bands.Crossed]
  rcases finalUpper_some bands (median + multiplier * range) with ⟨hupper, heq⟩ | ⟨hupper, heq⟩ <;>
    rcases finalLower_some bands (median - multiplier * range) with
      ⟨hlower, heq'⟩ | ⟨hlower, heq'⟩ <;> rw [heq, heq']
  · simp [hupper, hlower, hbasic]
  · simp [hupper, hlower]
  · simp [hupper, hlower]
  · have hlocked : bands.lower ≤ bands.upper := by
      simp only [Bands.FreshUpper, Bands.FreshLower, not_or, not_lt] at hupper hlower
      exact hlower.2.trans hupper.2
    simp [hupper, hlower, hlocked]

/-- The close is on the far side of the line when the trend is kept or the bands are in order. -/
theorem protective_of (before : Option Bands)
    (h : (∃ bands ∈ before, bands.uptrend =
        (SuperTrendTracker.advance multiplier before candle median range).uptrend) ∨
      (SuperTrendTracker.advance multiplier before candle median range).Ordered) :
    (SuperTrendTracker.advance multiplier before candle median range).Protective := by
  set after := SuperTrendTracker.advance multiplier before candle median range with hafter
  have hclose : after.previousClose = candle.close := rfl
  have htrend : after.uptrend = (if before.any Bands.uptrend then
      decide (¬ candle.close < after.lower) else decide (after.upper < candle.close)) := by
    rw [hafter, SuperTrendTracker.advance]
  -- the line is the lower band in an uptrend and the upper one else
  cases hup : after.uptrend with
  | true =>
    simp only [Bands.Protective, Bands.line, hup, if_true, hclose]
    by_cases hbefore : before.any Bands.uptrend
    · rw [hup, if_pos hbefore] at htrend
      simpa using htrend
    · -- the trend has just turned upward, on a close above the upper band
      rw [hup, if_neg hbefore] at htrend
      have habove : after.upper < candle.close := by simpa using htrend
      rcases h with ⟨bands, hmem, heq⟩ | hordered
      · rw [hup] at heq
        exact absurd ((Option.any_eq_true _ _).2 ⟨bands, hmem, heq⟩) hbefore
      · exact hordered.trans habove.le
  | false =>
    simp only [Bands.Protective, Bands.line, hup, Bool.false_eq_true, if_false, hclose]
    by_cases hbefore : before.any Bands.uptrend
    · rw [hup, if_pos hbefore] at htrend
      have hbelow : candle.close < after.lower := by simpa using htrend
      rcases h with ⟨bands, hmem, heq⟩ | hordered
      · -- the trend has just turned downward, so it was not kept
        obtain ⟨bands', hmem', htrue⟩ := (Option.any_eq_true _ _).1 hbefore
        rw [hup] at heq
        obtain rfl := Option.mem_unique hmem hmem'
        exact absurd (heq.symm.trans htrue) (by decide)
      · exact hbelow.le.trans hordered
    · rw [hup, if_neg hbefore] at htrend
      simpa using htrend

/-- While the trend is kept a line whose close was on its far side does not move away. -/
theorem heldBy_of (bands : Bands)
    (htrend : bands.uptrend =
      (SuperTrendTracker.advance multiplier (some bands) candle median range).uptrend)
    (hprotective : bands.Protective) :
    bands.HeldBy (SuperTrendTracker.advance multiplier (some bands) candle median range) := by
  set after := SuperTrendTracker.advance multiplier (some bands) candle median range with hafter
  cases hup : after.uptrend with
  | true =>
    rw [hup] at htrend
    simp only [Bands.Protective, Bands.line, htrend, if_true] at hprotective
    simp only [Bands.HeldBy, Bands.line, hup, htrend, if_true]
    change bands.lower ≤ SuperTrendTracker.finalLower (some bands) _
    -- a fresh lower band is higher, since the close before did not fall through the old one
    rcases finalLower_some bands (median - multiplier * range) with ⟨hfresh, heq⟩ | ⟨-, heq⟩
    · rw [heq]
      exact (hfresh.resolve_right (not_lt.2 hprotective)).le
    · exact heq.ge
  | false =>
    rw [hup] at htrend
    simp only [Bands.Protective, Bands.line, htrend, Bool.false_eq_true, if_false] at hprotective
    simp only [Bands.HeldBy, Bands.line, hup, htrend, Bool.false_eq_true, if_false]
    change SuperTrendTracker.finalUpper (some bands) _ ≤ bands.upper
    -- a fresh upper band is lower, for the same reason
    rcases finalUpper_some bands (median + multiplier * range) with ⟨hfresh, heq⟩ | ⟨-, heq⟩
    · rw [heq]
      exact (hfresh.resolve_right (not_lt.2 hprotective)).le
    · exact heq.le

end Update

/-! ### Runs -/

/-- The bands a candle meets. -/
def bandsBefore (period : ℕ) (multiplier : ℚ) (seen : List Candle) : Option Bands :=
  (final (SuperTrendState.update period multiplier) .new seen).tracker

/-- The average range at a candle. -/
def rangeAt (period : ℕ) (seen : List Candle) (candle : Candle) : Value :=
  (ATRState.update period (final (ATRState.update period) .new seen) candle).2

/-- The bands after a candle with a defined range. -/
def bandsAfter (period : ℕ) (multiplier : ℚ) (seen : List Candle) (candle : Candle) (range : ℚ) :
    Bands :=
  SuperTrendTracker.advance multiplier (bandsBefore period multiplier seen) candle candle.median
    range

section Runs

variable {period : ℕ} {multiplier : ℚ}

theorem final_range (multiplier : ℚ) (seen : List Candle) :
    (final (SuperTrendState.update period multiplier) .new seen).range =
      final (ATRState.update period) .new seen := by
  induction seen using List.reverseRecOn with
  | nil => rfl
  | append_singleton seen candle ih => rw [final_concat, final_concat, ← ih]; rfl

theorem tr_nonneg (candles : List Candle) : ValuesIn (Set.Ici 0) ((tr candles).map some) := by
  intro value hvalue x hx
  obtain ⟨y, hy, rfl⟩ := List.mem_map.1 hvalue
  obtain rfl := Option.some.inj hx
  obtain ⟨before, -, candle, -, rfl⟩ := mem_withPrevious _ hy
  exact trueRange_nonneg _ candle

/-- No average range is negative. -/
theorem rangeAt_nonneg (hperiod : 0 < period) {seen : List Candle} {candle : Candle} {range : ℚ}
    (h : rangeAt period seen candle = some range) : 0 ≤ range := by
  have hatr := (tr_nonneg (seen ++ [candle])).rma (convex_Ici 0) hperiod
  rw [← atr, ← outputs_atr hperiod, outputs_concat] at hatr
  exact hatr _ (List.mem_append_right _ (List.mem_singleton.2 rfl)) range h

/-- **What an update with a defined range does.** -/
structure SuperTrendStep (period : ℕ) (multiplier : ℚ) (seen : List Candle) (candle : Candle)
    (range : ℚ) : Prop where
  reported : ∃ series, supertrend (seen ++ [candle]) period multiplier = .ok series ∧
    series.getLast? = some (SuperTrendTracker.current
      (some (bandsAfter period multiplier seen candle range)))
  first : bandsBefore period multiplier seen = none →
    (bandsAfter period multiplier seen candle range).Ordered
  ordered : ∀ bands ∈ bandsBefore period multiplier seen,
    ((bandsAfter period multiplier seen candle range).Ordered ↔
      ¬ bands.Crossed (candle.median + multiplier * range) (candle.median - multiplier * range))
  protective : ((∃ bands ∈ bandsBefore period multiplier seen, bands.uptrend =
      (bandsAfter period multiplier seen candle range).uptrend) ∨
      (bandsAfter period multiplier seen candle range).Ordered) →
    (bandsAfter period multiplier seen candle range).Protective
  held : ∀ bands ∈ bandsBefore period multiplier seen,
    bands.uptrend = (bandsAfter period multiplier seen candle range).uptrend →
    bands.Protective → bands.HeldBy (bandsAfter period multiplier seen candle range)

/-- **SuperTrend, update by update.** For every period, every positive multiplier and every series
of candles, after each update with a defined range: the reported line is that of the bands, they
are in order unless they have crossed, and the line does not retreat while the trend goes on. -/
theorem superTrendStep (hperiod : 0 < period) (hmultiplier : 0 < multiplier) (seen : List Candle)
    (candle : Candle) {range : ℚ} (hrange : rangeAt period seen candle = some range) :
    SuperTrendStep period multiplier seen candle range := by
  have hnonneg := rangeAt_nonneg hperiod hrange
  refine ⟨⟨_, outputs_supertrend hperiod hmultiplier _, ?_⟩, ?_, ?_, protective_of _, ?_⟩
  · have hupdate : (SuperTrendState.update period multiplier
        (final (SuperTrendState.update period multiplier) .new seen) candle).2 =
        (SuperTrendTracker.update multiplier (bandsBefore period multiplier seen) candle
          candle.median (rangeAt period seen candle)).2 := by
      rw [rangeAt, ← final_range multiplier]
      rfl
    rw [outputs_concat, List.getLast?_concat, hupdate, hrange]
    rfl
  · intro hnone
    rw [bandsAfter, hnone]
    exact basic_ordered _ hmultiplier hnonneg
  · intro bands hbands
    rw [bandsAfter, Option.mem_def.1 hbands]
    exact ordered_iff hmultiplier hnonneg bands
  · intro bands hbands
    rw [bandsAfter, Option.mem_def.1 hbands]
    exact heldBy_of bands

/-- One price, then a lower one. -/
theorem superTrendStep_of_fall :
    (0 < 1) ∧ (0 : ℚ) < 3 ∧
      rangeAt 1 [.flat 10 (by decide)] (.flat 9 (by decide)) = some 1 ∧
      SuperTrendStep 1 3 [.flat 10 (by decide)] (.flat 9 (by decide)) 1 :=
  have hrange : rangeAt 1 [.flat 10 (by decide)] (.flat 9 (by decide)) = some 1 := by
    decide +kernel
  ⟨by decide, by norm_num, hrange, superTrendStep (by decide) (by norm_num) _ _ hrange⟩

/-- At the default parameters, ten candles at 100 and a fall to 10: the upper band comes down to
37 and the lower one is still at 100. -/
theorem not_ordered_of_fall :
    (bandsAfter 10 3 (List.replicate 10 (.flat 100 (by decide))) (.flat 10 (by decide)) 9).upper
      = 37 ∧
    rangeAt 10 (List.replicate 10 (.flat 100 (by decide))) (.flat 10 (by decide)) = some 9 ∧
    ¬ (bandsAfter 10 3 (List.replicate 10 (.flat 100 (by decide))) (.flat 10 (by decide))
      9).Ordered := by
  unfold Bands.Ordered
  decide +kernel

end Runs

end Indicators
end TradingSystem
