import TradingSystem.Indicators.Systems

/-!
# The weighted average and the Coppock curve

* `wma_eq` — the weighted average is a function of the last complete window.
* `CoppockCurveState.outputs_coppock` — where the short period does not exceed the long one, the
  state gives the batch series.
* `CoppockCurveState.outputs_starved` — otherwise its closes never reach back far enough.
-/

namespace TradingSystem
namespace Indicators

open Streaming

/-! ### The weighted average -/

/-- The weighted sum of a window, the weights counted from an index on. -/
def weightedSum : ℕ → List ℚ → ℚ
  | _, [] => 0
  | weight, item :: items => weight * item + weightedSum (weight + 1) items

/-- The weighted mean of a window of `period` values. -/
def weightedMean (period : ℕ) (window : List ℚ) : ℚ :=
  weightedSum 1 window / (period * (period + 1) / 2)

/-- The weighted mean of a full, valid window. -/
def WmaWindow.current (period : ℕ) (window : List Value) : Value :=
  if window.length < period ∨ window.any Option.isNone then NAN
  else some (weightedMean period window.reduceOption)

/-- The loop of `wma`. -/
def wmaLoop (period : ℕ) : List Value → List Value → List Value
  | _, [] => []
  | window, value :: values =>
    let window := push period window value
    WmaWindow.current period window :: wmaLoop period window values

def wma (values : List Value) (period : ℕ) : List Value := wmaLoop period [] values

/-- `_RollingWma`: append a value to the window and return its weighted mean. -/
def WmaWindow.update (period : ℕ) (window : List Value) (value : Value) : List Value × Value :=
  (push period window value, WmaWindow.current period (push period window value))

theorem outputs_wmaLoop (period : ℕ) (window values : List Value) :
    outputs (WmaWindow.update period) window values = wmaLoop period window values := by
  induction values generalizing window with
  | nil => rfl
  | cons value values ih =>
    rw [outputs_cons, ih]
    rfl

theorem outputs_wma (period : ℕ) (values : List Value) :
    outputs (WmaWindow.update period) [] values = wma values period :=
  outputs_wmaLoop period [] values

/-- The weighted mean of the last complete window. -/
def windowWeightedMean (period : ℕ) (values : List Value) : Value :=
  WmaWindow.current period (values.rtake period)

theorem wma_eq (period : ℕ) (values : List Value) :
    wma values period = prefixes (windowWeightedMean period) values := by
  rw [← outputs_wma]
  apply outputs_eq_prefixes
  intro xs x
  have hfinal : final (WmaWindow.update period) [] xs = xs.rtake period := foldl_push period xs
  rw [hfinal, WmaWindow.update, push_rtake, windowWeightedMean]

theorem windowWeightedMean_isSome (period : ℕ) (values : List Value) :
    (windowWeightedMean period values).isSome ↔ (completeWindow period values).isSome := by
  rw [completeWindow_isSome, windowWeightedMean, WmaWindow.current, length_rtake]
  split
  · rename_i h
    simp only [Option.isSome_none, Bool.false_eq_true, false_iff, not_and, not_forall]
    rintro hle
    rcases h with h | h
    · omega
    · obtain ⟨x, hx, hnone⟩ := List.any_eq_true.1 h
      exact ⟨x, hx, by simpa using hnone⟩
  · rename_i h
    simp only [not_or, not_lt, List.any_eq_true, not_exists, not_and] at h
    simp only [Option.isSome_some, true_iff]
    refine ⟨by omega, fun x hx => ?_⟩
    cases x with
    | none => exact absurd rfl (h.2 none hx)
    | some _ => rfl

/-- A weighted average starts `period - 1` places after its values do. -/
theorem wma_definedFrom {start : ℕ} {values : List Value} (h : DefinedFrom start values)
    {period : ℕ} (hperiod : 0 < period) :
    DefinedFrom (start + (period - 1)) (wma values period) := by
  rw [wma_eq]
  exact h.prefixes hperiod (windowWeightedMean_isSome period)

/-! ### The Coppock curve -/

/-- The parameters that `coppock_curve` admits. -/
structure CoppockParameters where
  longPeriod : ℕ
  shortPeriod : ℕ
  smoothPeriod : ℕ
  long_pos : 0 < longPeriod
  short_pos : 0 < shortPeriod
  smooth_pos : 0 < smoothPeriod

def coppockCurve (p : CoppockParameters) (candles : List Candle) : List Value :=
  let longChange := roc (closes candles) p.longPeriod
  let shortChange := roc (closes candles) p.shortPeriod
  wma (List.zipWith (both (· + ·)) longChange shortChange) p.smoothPeriod

/-- The change over a span of the closes held, undefined while they do not reach back as far. -/
def spanChange (closes : List ℚ) (span : ℕ) : Value :=
  if closes.length ≤ span then NAN
  else change closes[closes.length - 1 - span]? closes.getLast?

structure CoppockCurveState where
  closes : List ℚ
  combined : List Value
  value : Value

namespace CoppockCurveState

/-- A state that has seen nothing. -/
def new : CoppockCurveState := ⟨[], [], NAN⟩

/-- The closes after a candle, and the sum of the two changes. -/
def changes (p : CoppockParameters) (closes : List ℚ) (candle : Candle) : List ℚ × Value :=
  let closes := push (p.longPeriod + 1) closes candle.close
  (closes, both (· + ·) (spanChange closes p.longPeriod) (spanChange closes p.shortPeriod))

def update (p : CoppockParameters) (state : CoppockCurveState) (candle : Candle) :
    CoppockCurveState × Value :=
  let closes := changes p state.closes candle
  let combined := WmaWindow.update p.smoothPeriod state.combined closes.2
  (⟨closes.1, combined.1, combined.2⟩, combined.2)

theorem outputs_update (p : CoppockParameters) (state : CoppockCurveState)
    (candles : List Candle) :
    outputs (update p) state candles = outputs (WmaWindow.update p.smoothPeriod) state.combined
      (outputs (changes p) state.closes candles) := by
  induction candles generalizing state with
  | nil => rfl
  | cons candle candles ih =>
    rw [outputs_cons, ih]
    rfl

end CoppockCurveState

/-- The closes of candles, the last of them held. -/
theorem outputs_changes (p : CoppockParameters) (candles : List Candle) :
    outputs (CoppockCurveState.changes p) [] candles = prefixes (fun seen =>
      let held := (seen.map Candle.close).rtake (p.longPeriod + 1)
      both (· + ·) (spanChange held p.longPeriod) (spanChange held p.shortPeriod)) candles := by
  apply outputs_eq_prefixes
  intro seen candle
  have hfinal : final (CoppockCurveState.changes p) [] seen =
      (seen.map Candle.close).rtake (p.longPeriod + 1) := by
    rw [← foldl_push, List.foldl_map]
    rfl
  simp only [hfinal, CoppockCurveState.changes, push_rtake, List.map_append, List.map_cons,
    List.map_nil]

/-- Enough closes held give the change over a span. -/
theorem spanChange_rtake {span length : ℕ} (h : span < length) (values : List ℚ) :
    spanChange (values.rtake length) span = spanChange values span := by
  simp only [spanChange, length_rtake]
  by_cases hshort : values.length ≤ span
  · rw [if_pos (by omega), if_pos hshort]
  · rw [if_neg (by omega), if_neg hshort, List.rtake, List.getElem?_drop, List.getLast?_drop,
      if_neg (by omega)]
    congr 2
    omega

/-- The change over a span is the rate of change. -/
theorem spanChange_take {span i : ℕ} {values : List ℚ} (h : i < values.length) :
    spanChange (values.take (i + 1)) span =
      getElem (roc (values.map some) span) i (by rw [length_roc]; simpa using h) := by
  have hlength : (values.take (i + 1)).length = i + 1 := by simp; omega
  rw [getElem_roc, spanChange, hlength]
  by_cases hshort : i < span
  · rw [if_pos (by omega), if_pos hshort]
  · rw [if_neg (by omega), if_neg hshort, Nat.add_sub_cancel, List.getLast?_take,
      if_neg (by omega), Nat.add_sub_cancel, List.getElem?_take_of_lt (by omega)]
    simp [List.getD_eq_getElem?_getD, h, show i - span < values.length by omega]

/-- Where the short period does not exceed the long one the changes are the batch ones. -/
theorem outputs_changes_of_le {p : CoppockParameters} (h : p.shortPeriod ≤ p.longPeriod)
    (candles : List Candle) :
    outputs (CoppockCurveState.changes p) [] candles =
      List.zipWith (both (· + ·)) (roc (closes candles) p.longPeriod)
        (roc (closes candles) p.shortPeriod) := by
  rw [outputs_changes]
  apply List.ext_getElem (by simp [length_roc, closes])
  intro i hi hi'
  have hlt : i < candles.length := by simpa using hi
  have hlt' : i < (candles.map Candle.close).length := by simpa using hlt
  have hcloses : closes candles = (candles.map Candle.close).map some := by
    simp [closes]
  rw [getElem_prefixes, List.getElem_zipWith]
  simp only [spanChange_rtake (show p.longPeriod < p.longPeriod + 1 by omega),
    spanChange_rtake (show p.shortPeriod < p.longPeriod + 1 by omega), List.map_take, hcloses]
  rw [spanChange_take hlt', spanChange_take hlt']

/-- Where the short period exceeds the long one no change is ever defined. -/
theorem outputs_changes_of_lt {p : CoppockParameters} (h : p.longPeriod < p.shortPeriod)
    (candles : List Candle) :
    outputs (CoppockCurveState.changes p) [] candles = List.replicate candles.length NAN := by
  rw [outputs_changes]
  apply List.ext_getElem (by simp)
  intro i hi hi'
  have hlength : ((candles.take (i + 1)).map Candle.close |>.rtake (p.longPeriod + 1)).length ≤
      p.shortPeriod := by
    rw [length_rtake]
    omega
  rw [getElem_prefixes, List.getElem_replicate]
  simp only [spanChange, if_pos hlength, both_none_right]

/-- Rates of change of closes begin with the first lookback. -/
theorem roc_definedFrom (candles : List Candle) (period : ℕ) :
    DefinedFrom period (roc (closes candles) period) := by
  intro i hi
  have hlt : i < candles.length := by simpa [length_roc] using hi
  rw [getElem_roc]
  by_cases hshort : i < period
  · rw [if_pos hshort]
    simpa using hshort
  · have hne : ∀ candle : Candle, candle.close ≠ 0 := fun candle => candle.close_pos.ne'
    rw [if_neg hshort]
    simp [closes, change, List.getD_eq_getElem?_getD, hlt, hne,
      show i - period < candles.length by omega]
    omega

theorem both_isSome (f : ℚ → ℚ → ℚ) (x y : Value) :
    (both f x y).isSome ↔ x.isSome ∧ y.isSome := by
  cases x <;> cases y <;> simp

/-- The batch curve begins with the later change and a smoothing window. -/
theorem coppockCurve_definedFrom (p : CoppockParameters) (candles : List Candle) :
    DefinedFrom (max p.longPeriod p.shortPeriod + (p.smoothPeriod - 1))
      (coppockCurve p candles) :=
  wma_definedFrom ((roc_definedFrom candles _).zipWith (both_isSome _) (roc_definedFrom candles _))
    p.smooth_pos

theorem length_coppockCurve (p : CoppockParameters) (candles : List Candle) :
    (coppockCurve p candles).length = candles.length := by
  simp [coppockCurve, wma_eq, length_roc]

namespace CoppockCurveState

/-- Where the short period does not exceed the long one, the state gives the batch series. -/
theorem outputs_coppock {p : CoppockParameters} (h : p.shortPeriod ≤ p.longPeriod)
    (candles : List Candle) : outputs (update p) new candles = coppockCurve p candles := by
  rw [outputs_update, coppockCurve]
  simp only [new, outputs_wma, outputs_changes_of_le h]

/-- Where the short period exceeds the long one, the state never has a value. -/
theorem outputs_starved {p : CoppockParameters} (h : p.longPeriod < p.shortPeriod)
    (candles : List Candle) :
    outputs (update p) new candles = List.replicate candles.length NAN := by
  rw [outputs_update]
  simp only [new, outputs_wma, outputs_changes_of_lt h, wma_eq]
  apply List.ext_getElem (by simp)
  intro i hi hi'
  have hlt : i < candles.length := by simpa using hi'
  rw [getElem_prefixes, List.getElem_replicate, ← Option.not_isSome_iff_eq_none,
    windowWeightedMean_isSome, completeWindow_isSome]
  rintro ⟨hlength, hall⟩
  have hpos := p.smooth_pos
  have hwindow : none ∈ ((List.replicate candles.length NAN).take (i + 1)).rtake
      p.smoothPeriod := by
    simp [List.rtake, List.take_replicate, List.drop_replicate]
    omega
  exact absurd (hall none hwindow) (by simp)

/-- The state agrees with the batch curve while that has no value, and whenever the short period
does not exceed the long one. -/
theorem outputs_coppock_iff (p : CoppockParameters) (candles : List Candle) :
    outputs (update p) new candles = coppockCurve p candles ↔
      p.shortPeriod ≤ p.longPeriod ∨ candles.length < p.shortPeriod + p.smoothPeriod := by
  have hpos := p.smooth_pos
  by_cases hle : p.shortPeriod ≤ p.longPeriod
  · simp [outputs_coppock hle, hle]
  · have hdefined := coppockCurve_definedFrom p candles
    rw [Nat.max_eq_right (show p.longPeriod ≤ p.shortPeriod by omega)] at hdefined
    rw [outputs_starved (by omega), or_iff_right hle]
    -- the state gives nothing, the batch curve begins once there are enough candles
    constructor
    · intro heq
      by_contra hlong
      have hindex : p.shortPeriod + (p.smoothPeriod - 1) < (coppockCurve p candles).length := by
        rw [length_coppockCurve]
        omega
      have hsome := (hdefined _ hindex).2 (le_refl _)
      simp [← heq] at hsome
    · intro hshort
      apply List.ext_getElem (by simp [length_coppockCurve])
      intro i hi hi'
      have hlt : i < candles.length := by simpa using hi
      rw [List.getElem_replicate]
      have hnone : ¬ (coppockCurve p candles)[i].isSome := by
        rw [hdefined]
        omega
      exact (Option.not_isSome_iff_eq_none.1 hnone).symm

end CoppockCurveState

end Indicators
end TradingSystem
