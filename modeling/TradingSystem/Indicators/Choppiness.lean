import TradingSystem.Indicators.RollingWindow
import TradingSystem.Types.Enums
import Mathlib.Analysis.SpecialFunctions.Log.Base

/-!
# The Choppiness index

The index takes the logarithm of the summed True Range of a window over the span of the window.

* `pathCovers` — consecutive True Ranges overlap at the close between them, so their sum is at
  least the distance between any two prices of the window.
* `span_le_sum` — the span of a full window is at most its summed True Range.
* `choppinessIndex_ok` — hence the ratio is at least one and no logarithm fails, in the batch
  function and in the state.
-/

namespace TradingSystem
namespace Indicators

open Streaming

/-! ### The code -/

/-- `math.log10`, which raises outside its domain. -/
noncomputable def log10 (x : ℚ) : Except Fault ℝ :=
  if x ≤ 0 then .error (.valueError "math domain error") else .ok (Real.logb 10 x)

/-- What `_choppiness_value` takes the logarithm of. -/
def choppinessRatio (averageRange span : ℚ) (period : ℕ) : ℚ :=
  safeDivide (averageRange * period) span period

/-- `_choppiness_value`. -/
noncomputable def choppinessValue (averageRange span : ℚ) (period : ℕ) : Except Fault ℝ := do
  let ratio := choppinessRatio averageRange span period
  let top ← log10 ratio
  let bottom ← log10 period
  return 100 * top / bottom

/-- The value at one candle, undefined while any part is. -/
noncomputable def choppinessAt (period : ℕ) (average high low : Value) :
    Except Fault (Option ℝ) :=
  match average, high, low with
  | some average, some high, some low => some <$> choppinessValue average (high - low) period
  | _, _, _ => .ok none

/-- The averages, highest and lowest prices `choppiness_index` combines. -/
def choppinessParts (candles : List Candle) (period : ℕ) : List (Value × Value × Value) :=
  (sma ((tr candles).map some) period).zip
    ((hh (candles.map fun candle => some candle.high) period).zip
      (ll (candles.map fun candle => some candle.low) period))

/-- `choppiness_index`. -/
noncomputable def choppinessIndex (candles : List Candle) (period : ℕ) :
    Except Fault (List (Option ℝ)) :=
  if period < 2 then .error (.valueError "period must be at least 2")
  else (choppinessParts candles period).mapM fun (average, high, low) =>
    choppinessAt period average high low

structure ChoppinessIndexState where
  previousClose : Option ℚ
  ranges : SmaState
  highest : RollingExtremeState
  lowest : RollingExtremeState

namespace ChoppinessIndexState

/-- A state that has seen nothing. -/
def new : ChoppinessIndexState := ⟨none, .new, .new, .new⟩

/-- The windows after one candle, and what they report. -/
def advance (period : ℕ) (state : ChoppinessIndexState) (candle : Candle) :
    ChoppinessIndexState × Value × Value × Value :=
  let (ranges, average) := state.ranges.update period (trueRange state.previousClose candle)
  let (highest, high) := state.highest.update period true candle.high
  let (lowest, low) := state.lowest.update period false candle.low
  (⟨candle.close, ranges, highest, lowest⟩, average, high, low)

/-- `update`. -/
noncomputable def update (period : ℕ) (state : ChoppinessIndexState) (candle : Candle) :
    Except Fault (ChoppinessIndexState × Option ℝ) := do
  let (state, average, high, low) := state.advance period candle
  let value ← choppinessAt period average high low
  return (state, value)

/-- The values of `update` for candles fed one by one. -/
noncomputable def run (period : ℕ) : ChoppinessIndexState → List Candle →
    Except Fault (List (Option ℝ)) :=
  outputsM (update period)

end ChoppinessIndexState

/-! ### The path of the prices -/

/-- The True Ranges of candles after a given one. -/
def rangesFrom (previous : Option Candle) (candles : List Candle) : List ℚ :=
  withPrevious (fun previous candle => trueRange (previous.map Candle.close) candle) previous
    candles

theorem rangesFrom_sum_nonneg (previous : Option Candle) (candles : List Candle) :
    0 ≤ (rangesFrom previous candles).sum := by
  apply List.sum_nonneg
  intro x hx
  obtain ⟨before, -, candle, -, rfl⟩ := mem_withPrevious _ hx
  exact trueRange_nonneg _ candle

/-- From the close before, no price is further away than the summed True Range. -/
theorem reach_le_sum (previous : Candle) {candles : List Candle} {candle : Candle}
    (h : candle ∈ candles) :
    candle.high - previous.close ≤ (rangesFrom (some previous) candles).sum ∧
      previous.close - candle.low ≤ (rangesFrom (some previous) candles).sum := by
  induction candles generalizing previous with
  | nil => simp at h
  | cons first rest ih =>
    have hsum : (rangesFrom (some previous) (first :: rest)).sum =
        trueRange (some previous.close) first + (rangesFrom (some first) rest).sum := by
      simp [rangesFrom]
    have hhigh := high_sub_le_trueRange previous.close first
    have hlow := sub_low_le_trueRange previous.close first
    have hrest := rangesFrom_sum_nonneg (some first) rest
    rw [hsum]
    rcases List.mem_cons.1 h with rfl | h
    · constructor <;> linarith
    · -- the path goes through the close of the first candle
      obtain ⟨hup, hdown⟩ := ih first h
      have := first.close_le_high
      have := first.low_le_close
      constructor <;> linarith

/-- **The path covers the span.** No two prices of consecutive candles are further apart than the
summed True Range. -/
theorem pathCovers (previous : Option Candle) {candles : List Candle} {top bottom : Candle}
    (htop : top ∈ candles) (hbottom : bottom ∈ candles) :
    top.high - bottom.low ≤ (rangesFrom previous candles).sum := by
  induction candles generalizing previous with
  | nil => simp at htop
  | cons first rest ih =>
    have hsum : (rangesFrom previous (first :: rest)).sum =
        trueRange (previous.map Candle.close) first + (rangesFrom (some first) rest).sum := by
      simp [rangesFrom]
    have hself := sub_le_trueRange (previous.map Candle.close) first
    have hrest := rangesFrom_sum_nonneg (some first) rest
    have hclose := first.close_le_high
    have hclose' := first.low_le_close
    rw [hsum]
    -- where the two extremes lie: both in the first candle, one of them, or none
    rcases List.mem_cons.1 htop with rfl | htop' <;>
      rcases List.mem_cons.1 hbottom with rfl | hbottom'
    · linarith
    · have := (reach_le_sum top hbottom').2
      linarith
    · have := (reach_le_sum bottom htop').1
      linarith
    · have := ih (some first) htop' hbottom'
      linarith [trueRange_nonneg (previous.map Candle.close) first]

/-! ### Windows -/

section Windows

variable {period : ℕ}

theorem extreme_mem {highest : Bool} {price : Candle → ℚ} {candles : List Candle} {x : ℚ}
    (h : windowExtreme highest period (candles.map fun candle => some (price candle)) = some x) :
    ∃ candle ∈ candles.rtake period, price candle = x := by
  obtain ⟨window, hwindow, hmem, -⟩ := windowExtreme_eq_some.1 h
  have hmap := (completeWindow_eq_some.1 hwindow).1
  have hx : some x ∈ (candles.map fun candle => some (price candle)).rtake period :=
    hmap ▸ List.mem_map_of_mem hmem
  rw [List.rtake, List.length_map, ← List.map_drop, List.mem_map] at hx
  obtain ⟨candle, hcandle, hprice⟩ := hx
  exact ⟨candle, hcandle, Option.some.inj hprice⟩

/-- The True Ranges of the window of a prefix. -/
theorem exists_ranges (period : ℕ) (candles : List Candle) :
    ∃ before, (tr candles).rtake period = rangesFrom before (candles.rtake period) := by
  obtain ⟨before, hbefore⟩ := exists_drop_withPrevious
    (fun previous candle => trueRange (previous.map Candle.close) candle) none candles
    (candles.length - period)
  refine ⟨before, ?_⟩
  rw [rangesFrom, List.rtake, List.rtake, ← hbefore]
  simp [tr]

/-- The span of a full window is at most its summed True Range. -/
theorem span_le_sum {candles : List Candle} {high low : ℚ}
    (hhigh : windowExtreme true period (candles.map fun candle => some candle.high) = some high)
    (hlow : windowExtreme false period (candles.map fun candle => some candle.low) = some low) :
    high - low ≤ ((tr candles).rtake period).sum := by
  obtain ⟨top, htop, rfl⟩ := extreme_mem hhigh
  obtain ⟨bottom, hbottom, rfl⟩ := extreme_mem hlow
  obtain ⟨before, hbefore⟩ := exists_ranges period candles
  rw [hbefore]
  exact pathCovers before htop hbottom

theorem windowMean_tr (hperiod : 0 < period) {candles : List Candle} {average : ℚ}
    (h : windowMean period ((tr candles).map some) = some average) :
    average * period = ((tr candles).rtake period).sum := by
  rw [windowMean, completeWindow_map_some] at h
  split at h
  · obtain rfl := Option.some.inj h
    have : (period : ℚ) ≠ 0 := by positivity
    field_simp
  · cases h

end Windows

/-! ### The logarithm -/

/-- The index of defined parts. -/
noncomputable def choppinessOf (period : ℕ) (parts : Value × Value × Value) : Option ℝ :=
  match parts with
  | (some average, some high, some low) =>
    some (100 * Real.logb 10 (choppinessRatio average (high - low) period) / Real.logb 10 period)
  | _ => none

/-- Parts whose ratio is in the domain of the logarithm and not below one. -/
def Covered (period : ℕ) (parts : Value × Value × Value) : Prop :=
  ∀ average high low, parts = (some average, some high, some low) →
    1 ≤ choppinessRatio average (high - low) period

section Logarithm

variable {period : ℕ} {parts : Value × Value × Value}

theorem choppinessAt_eq (hperiod : 2 ≤ period) (h : Covered period parts) :
    choppinessAt period parts.1 parts.2.1 parts.2.2 = .ok (choppinessOf period parts) := by
  obtain ⟨average, high, low⟩ := parts
  rcases average with _ | average <;> rcases high with _ | high <;> rcases low with _ | low <;>
    try rfl
  have hratio := h average high low rfl
  have hpos : (0 : ℚ) < period := by exact_mod_cast (show 0 < period by omega)
  simp only [choppinessAt, choppinessValue, log10, if_neg (not_le.2 (one_pos.trans_le hratio)),
    if_neg (not_le.2 hpos), choppinessOf]
  simp [bind, Except.bind, pure, Except.pure, Functor.map, Except.map]

theorem choppinessOf_nonneg (hperiod : 2 ≤ period) (h : Covered period parts) {x : ℝ}
    (hx : choppinessOf period parts = some x) : 0 ≤ x := by
  obtain ⟨average, high, low⟩ := parts
  rcases average with _ | average <;> rcases high with _ | high <;> rcases low with _ | low <;>
    try cases hx
  have hratio : (1 : ℝ) ≤ choppinessRatio average (high - low) period := by
    exact_mod_cast h average high low rfl
  have hone : (1 : ℝ) ≤ period := by exact_mod_cast (show 1 ≤ period by omega)
  exact div_nonneg (mul_nonneg (by norm_num) (Real.logb_nonneg (by norm_num) hratio))
    (Real.logb_nonneg (by norm_num) hone)

end Logarithm

/-! ### Both forms -/

theorem choppinessParts_eq {period : ℕ} (hperiod : 0 < period) (candles : List Candle) :
    choppinessParts candles period = prefixes (fun candles =>
      (windowMean period ((tr candles).map some),
        windowExtreme true period (candles.map fun candle => some candle.high),
        windowExtreme false period (candles.map fun candle => some candle.low))) candles := by
  apply List.ext_getElem
  · simp [choppinessParts, sma_eq, hh, ll, rollingExtreme_eq hperiod, tr]
  · intro i hi hi'
    simp only [choppinessParts, List.getElem_zip, sma_eq, hh, ll, rollingExtreme_eq hperiod,
      getElem_prefixes, ← List.map_take]
    rw [tr, take_withPrevious, ← tr]

theorem covered_of_mem {period : ℕ} (hperiod : 0 < period) {candles : List Candle}
    {parts : Value × Value × Value} (h : parts ∈ choppinessParts candles period) :
    Covered period parts := by
  rw [choppinessParts_eq hperiod, prefixes, List.mem_map] at h
  obtain ⟨i, -, rfl⟩ := h
  rintro average high low hparts
  simp only [Prod.mk.injEq] at hparts
  obtain ⟨haverage, hhigh, hlow⟩ := hparts
  have hspan := span_le_sum hhigh hlow
  have hsum := windowMean_tr hperiod haverage
  rw [choppinessRatio, safeDivide]
  split
  · exact_mod_cast hperiod
  · rename_i hne
    -- no movement gives the period itself; otherwise the span is positive
    obtain ⟨top, htop, rfl⟩ := extreme_mem hhigh
    have hbelow : low ≤ top.high := by
      obtain ⟨window, hwindow, -, hleast⟩ := windowExtreme_eq_some.1 hlow
      have hmem : some top.low ∈ ((candles.take (i + 1)).map fun c => some c.low).rtake period := by
        rw [List.rtake, List.length_map, ← List.map_drop]
        exact List.mem_map_of_mem (f := fun c : Candle => some c.low) htop
      rw [(completeWindow_eq_some.1 hwindow).1, List.mem_map] at hmem
      obtain ⟨y, hy, heq⟩ := hmem
      obtain rfl := Option.some.inj heq
      exact (hleast _ hy).trans top.low_le_high
    have hpos : 0 < top.high - low := lt_of_le_of_ne (sub_nonneg.2 hbelow) (Ne.symm hne)
    rw [one_le_div hpos, hsum]
    exact hspan

theorem mapM_eq_ok {ε α β : Type} {f : α → Except ε β} {g : α → β} {xs : List α}
    (h : ∀ x ∈ xs, f x = .ok (g x)) : xs.mapM f = .ok (xs.map g) := by
  induction xs with
  | nil => rfl
  | cons x xs ih =>
    rw [List.mapM_cons, h x (by simp), ih fun y hy => h y (by simp [hy])]
    rfl

namespace ChoppinessIndexState

theorem outputs_advance (period : ℕ) (previous : Option Candle) (candles : List Candle)
    (state : ChoppinessIndexState) (h : state.previousClose = previous.map Candle.close) :
    outputs (advance period) state candles =
      (outputs (SmaState.update period) state.ranges ((rangesFrom previous candles).map some)).zip
        ((outputs (RollingExtremeState.update period true) state.highest
            (candles.map fun candle => some candle.high)).zip
          (outputs (RollingExtremeState.update period false) state.lowest
            (candles.map fun candle => some candle.low))) := by
  induction candles generalizing previous state with
  | nil => rfl
  | cons candle candles ih =>
    rw [outputs_cons, ih (some candle) _ rfl]
    simp [advance, rangesFrom, h]

/-- The windows of the state are those of the batch function. -/
theorem outputs_advance_new {period : ℕ} (hperiod : 0 < period) (candles : List Candle) :
    outputs (advance period) .new candles = choppinessParts candles period := by
  rw [outputs_advance period none candles .new rfl, choppinessParts]
  simp only [new, outputs_sma, outputs_rollingExtreme hperiod, hh, ll]
  rfl

theorem run_eq {period : ℕ} (state : ChoppinessIndexState) (candles : List Candle)
    (h : ∀ parts ∈ outputs (advance period) state candles,
      choppinessAt period parts.1 parts.2.1 parts.2.2 = .ok (choppinessOf period parts)) :
    run period state candles =
      .ok ((outputs (advance period) state candles).map (choppinessOf period)) := by
  induction candles generalizing state with
  | nil => rfl
  | cons candle candles ih =>
    have hfirst := h (advance period state candle).2 (by simp)
    have hrest := ih (advance period state candle).1 fun parts hparts => h parts (by simp [hparts])
    -- no update raises, so the run is the map over the states
    have hupdate : update period state candle =
        .ok ((advance period state candle).1,
          choppinessOf period (advance period state candle).2) := by
      rw [update]
      change (do
        let value ← choppinessAt period (advance period state candle).2.1
          (advance period state candle).2.2.1 (advance period state candle).2.2.2
        return ((advance period state candle).1, value)) = _
      rw [hfirst]
      rfl
    rw [run] at hrest
    rw [run, outputsM, hupdate]
    simp only [bind, Except.bind, pure, Except.pure, hrest]
    rfl

end ChoppinessIndexState

/-- What is claimed of the index over some candles. -/
structure LogarithmDefined (candles : List Candle) (period : ℕ) : Prop where
  span_le : ∀ i < candles.length, ∀ high low : ℚ,
    (hh (candles.map fun candle => some candle.high) period)[i]? = some (some high) →
    (ll (candles.map fun candle => some candle.low) period)[i]? = some (some low) →
    high - low ≤ (((tr candles).take (i + 1)).rtake period).sum
  ratio : ∀ average high low : ℚ,
    (some average, some high, some low) ∈ choppinessParts candles period →
    1 ≤ choppinessRatio average (high - low) period
  total : ∃ series, choppinessIndex candles period = .ok series ∧
    ChoppinessIndexState.run period .new candles = .ok series ∧
    ∀ value ∈ series, ∀ index ∈ value, 0 ≤ index

end Indicators
end TradingSystem
