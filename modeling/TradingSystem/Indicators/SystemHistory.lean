import TradingSystem.Indicators.Filters

/-!
# The declared histories of strength, volatility and the published systems

The states of the vigor, directional, volume and volatility indicators and of the systems that
publish displaced lines, with their `min_history`. Only Ichimoku's is not exact for all parameters:
its formula leaves out the conversion line displaced.
-/

namespace TradingSystem
namespace Indicators

open Streaming Indicator

/-- A number read off every candle. -/
theorem definedFrom_read (read : Candle → ℚ) (candles : List Candle) :
    DefinedFrom 0 (candles.map fun candle => some (read candle)) :=
  fun i hi => by simp

/-! ### Vigor -/

namespace RelativeVigorIndexState

/-- The state with its declared history. -/
def indicator (period : ℕ) : Indicator :=
  kept (update period) new value (fun output => [output.rvi, output.signal])
    (fun state => state.value.signal.isSome) (period + 2 * (swmaLength - 1))

theorem definedFrom_line {period : ℕ} (h : 0 < period) (candles : List Candle) :
    DefinedFrom (period + 2) (line period new candles) := by
  have hlength : swmaLength - 1 = 3 := rfl
  have hbody := definedFrom_swma (definedFrom_read (fun candle => candle.close - candle.open)
    candles)
  have hrange := definedFrom_swma (definedFrom_read (fun candle => candle.high - candle.low)
    candles)
  exact ((definedFrom_sma h hbody).zipWith (both_isSome _) (definedFrom_sma h hrange)).place
    (by omega)

theorem exact {period : ℕ} (h : 0 < period) : (indicator period).Exact := by
  have hlength : swmaLength - 1 = 3 := rfl
  refine (kept_exact_iff (fun _ _ => rfl) (by simp) (fun state hstate => ?_)
    (rowsFrom_pair (fun _ _ => rfl) (outputs_update period new) (definedFrom_line h)
      fun candles => definedFrom_swma (definedFrom_line h candles))).2 (by omega)
  exact hstate _ (by simp)

end RelativeVigorIndexState

/-! ### Directional movement -/

theorem directionalIndicator_isSome (span plus minus move : Value) :
    (directionalIndicator span plus minus move).isSome ↔
      span.isSome ∧ plus.isSome ∧ minus.isSome ∧ move.isSome := by
  cases span <;> cases plus <;> cases minus <;> cases move <;> simp [directionalIndicator]

theorem directional_isSome (span plus minus : Value) :
    (directional span plus minus).isSome ↔ span.isSome ∧ plus.isSome ∧ minus.isSome := by
  rw [directional, both_isSome, directionalIndicator_isSome, directionalIndicator_isSome]
  tauto

namespace DMIState

/-- The state with its declared history. -/
def indicator (period : ℕ) : Indicator :=
  kept (update period) new value
    (fun output => [output.plusDi, output.minusDi, output.adx, output.adxr])
    (fun state => state.value.adxr.isSome) (3 * period)

/-- What a candle has with the one before it, smoothed. -/
theorem definedFrom_smoothed {period : ℕ} (h : 0 < period) (move : Candle → Candle → ℚ)
    (candles : List Candle) :
    DefinedFrom period (outputs (RmaState.update period) .new (withPrevious
      (fun previous candle => previous.map fun previous => move previous candle) none
      candles)) :=
  (definedFrom_rma h (definedFrom_withPrevious (fun _ => rfl) (fun _ _ => rfl) candles)).place
    (by omega)

theorem exact {period : ℕ} (h : 0 < period) : (indicator period).Exact := by
  have hrange := definedFrom_smoothed h fun previous candle =>
    trueRange (some previous.close) candle
  have hplus := definedFrom_smoothed h fun previous candle =>
    (directionalMovement previous candle).1
  have hminus := definedFrom_smoothed h fun previous candle =>
    (directionalMovement previous candle).2
  -- the lines need the sums, the index needs the lines, and its rating an older index
  have hplusDi (candles : List Candle) := definedFrom_zipWith3
    (f := fun span plus minus => directionalIndicator span plus minus plus)
    (fun x y z => by rw [directionalIndicator_isSome]; tauto)
    (hrange candles) (hplus candles) (hminus candles)
  have hminusDi (candles : List Candle) := definedFrom_zipWith3
    (f := fun span plus minus => directionalIndicator span plus minus minus)
    (fun x y z => by rw [directionalIndicator_isSome]; tauto)
    (hrange candles) (hplus candles) (hminus candles)
  have hadx (candles : List Candle) := definedFrom_rma h (definedFrom_zipWith3 directional_isSome
    (hrange candles) (hplus candles) (hminus candles))
  have hadxr (candles : List Candle) := (hadx candles).zipWith
    (both_isSome fun x y => (x + y) / 2) (definedFrom_history (hadx candles) period)
  refine (kept_exact_iff (fun _ _ => rfl) (by simp) (fun state hstate => ?_)
    (rowsFrom_quadruple (fun _ _ _ _ => rfl) (outputs_update period new) hplusDi hminusDi hadx
      hadxr)).2 (by omega)
  exact hstate _ (by simp)

end DMIState

/-! ### Klinger's oscillator -/

theorem klingerForcesLoop_isSome (previous : Candle) (trend : Option ℚ) (cumulative : ℚ)
    (candles : List Candle) :
    ∀ force ∈ klingerForcesLoop previous trend cumulative candles, force.isSome := by
  induction candles generalizing previous trend cumulative with
  | nil => exact List.forall_mem_nil _
  | cons candle candles ih => exact List.forall_mem_cons.2 ⟨rfl, ih _ _ _⟩

/-- The second candle has the first force. -/
theorem definedFrom_force (candles : List Candle) :
    DefinedFrom 1 (outputs KlingerForceState.update ⟨none, none, 0⟩ candles) := by
  rw [outputs_force]
  intro i hi
  cases candles with
  | nil => exact absurd hi (Nat.not_lt_zero i)
  | cons candle candles =>
    cases i with
    | zero => simp [klingerForces]
    | succ i =>
      refine iff_of_true (klingerForcesLoop_isSome candle none 0 candles _ ?_) (by omega)
      exact List.getElem_mem _

namespace KlingerVolumeOscillatorState

/-- The state with its declared history. -/
def indicator (p : KlingerParameters) : Indicator :=
  kept (update p) new value (fun output => [output.kvo, output.signal])
    (fun state => state.value.signal.isSome) (p.longPeriod + p.signalPeriod)

theorem definedFrom_oscillator (p : KlingerParameters) (candles : List Candle) :
    let forces := outputs KlingerForceState.update ⟨none, none, 0⟩ candles
    DefinedFrom p.longPeriod (List.zipWith difference
      (outputs (EmaState.update p.shortPeriod) .new forces)
      (outputs (EmaState.update p.longPeriod) .new forces)) := by
  have hshort := p.short_pos
  have hlt := p.short_lt_long
  have hfast := definedFrom_ema p.short_pos (definedFrom_force candles)
  have hslow := definedFrom_ema p.long_pos (definedFrom_force candles)
  exact (hfast.zipWith (both_isSome _) hslow).place (by omega)

theorem exact (p : KlingerParameters) : (indicator p).Exact := by
  have hlong := p.long_pos
  have hsignal := p.signal_pos
  refine (kept_exact_iff (fun _ _ => rfl) (by simp) (fun state hstate => ?_)
    (rowsFrom_pair (fun _ _ => rfl) (outputs_update p new) (definedFrom_oscillator p)
      fun candles => definedFrom_ema hsignal (definedFrom_oscillator p candles))).2 (by omega)
  exact hstate _ (by simp)

end KlingerVolumeOscillatorState

/-! ### Mass and Ulcer indices -/

namespace MassIndexState

/-- The state with its declared history. -/
def indicator (p : MassParameters) : Indicator :=
  scalar (update p) new value (fun state => state.value.isSome)
    (2 * p.period - 1 + p.sumPeriod - 1)

theorem definedFrom_outputs (p : MassParameters) (candles : List Candle) :
    DefinedFrom (2 * (p.period - 1) + (p.sumPeriod - 1)) (outputs (update p) new candles) := by
  have hsingle := definedFrom_ema p.period_pos
    (definedFrom_read (fun candle => candle.high - candle.low) candles)
  have hdouble := definedFrom_ema p.period_pos hsingle
  have hratio := hsingle.zipWith (both_isSome fun x y => safeDivide x y 1) hdouble
  rw [outputs_update]
  exact (definedFrom_map (fun _ => by rw [Option.isSome_map])
    (definedFrom_sma p.sum_pos hratio)).place (by omega)

theorem exact (p : MassParameters) : (indicator p).Exact := by
  have hperiod := p.period_pos
  have hsum := p.sum_pos
  exact (keptValue_exact_iff (fun _ _ => rfl) rfl (definedFrom_outputs p)).2 (by omega)

end MassIndexState

namespace UlcerIndexState

/-- The state with its declared history. -/
def indicator (sqrt : ℚ → ℚ) (period : ℕ) : Indicator :=
  scalar (update sqrt period) new value (fun state => state.value.isSome) (2 * period - 1)

theorem definedFrom_outputs (sqrt : ℚ → ℚ) {period : ℕ} (h : 0 < period)
    (candles : List Candle) :
    DefinedFrom (2 * (period - 1)) (outputs (update sqrt period) new candles) := by
  have hhighest := definedFrom_extreme h true (definedFrom_closes candles)
  have hdrawdown : DefinedFrom _ (List.zipWith squaredDrawdown _ _) :=
    (definedFrom_closes candles).zipWith (fun _ _ => both_isSome _ _ _) hhighest
  rw [outputs_update]
  exact (definedFrom_map (fun _ => by rw [Option.isSome_map])
    (definedFrom_sma h hdrawdown)).place (by omega)

theorem exact (sqrt : ℚ → ℚ) {period : ℕ} (h : 0 < period) : (indicator sqrt period).Exact :=
  (keptValue_exact_iff (fun _ _ => rfl) rfl (definedFrom_outputs sqrt h)).2 (by omega)

end UlcerIndexState

/-! ### Published lines -/

namespace IchimokuState

/-- The four lines. -/
def lines (output : IchimokuValue) : List Value :=
  [output.tenkan, output.kijun, output.senkouA, output.senkouB]

/-- The state with its declared history, `ichimoku_min_history`. -/
def indicator (p : IchimokuParameters) : Indicator :=
  kept (update p) new value lines
    (fun state => ¬ ∃ line ∈ lines state.value, line.isNone)
    (max (max p.conversionPeriod p.basePeriod)
      (max (p.basePeriod + p.displacement) (p.spanBPeriod + p.displacement)))

theorem definedFrom_midpoint {period : ℕ} (h : 0 < period) (candles : List Candle) :
    DefinedFrom (period - 1) (midpoint
      (outputs (RollingExtremeState.update period true) .new (highs candles))
      (outputs (RollingExtremeState.update period false) .new (lows candles))) :=
  ((definedFrom_extreme h true (definedFrom_highs candles)).zipWith (both_isSome _)
    (definedFrom_extreme h false (definedFrom_lows candles))).place (by omega)

/-- The formula is right unless the displaced conversion line is the last to appear. -/
theorem exact_iff (p : IchimokuParameters) :
    (indicator p).Exact ↔ p.displacement = 0 ∨ p.conversionPeriod ≤ p.basePeriod ∨
      p.conversionPeriod ≤ p.spanBPeriod := by
  have hconversion := p.conversion_pos
  have hbase := p.base_pos
  have hspan := p.spanB_pos
  have htenkan := definedFrom_midpoint p.conversion_pos
  have hkijun := definedFrom_midpoint p.base_pos
  have hsenkouA (candles : List Candle) := definedFrom_delay
    ((htenkan candles).zipWith (both_isSome fun x y => (x + y) / 2) (hkijun candles))
    p.displacement
  have hsenkouB (candles : List Candle) := definedFrom_delay
    (definedFrom_midpoint p.spanB_pos candles) p.displacement
  refine (kept_exact_iff (fun _ _ => rfl) (by simp [lines]) (fun _ => not_exists_isNone)
    (rowsFrom_quadruple (fun _ _ _ _ => rfl) (outputs_update p new) htenkan hkijun hsenkouA
      hsenkouB)).trans ?_
  omega

end IchimokuState

namespace AlligatorState

/-- The three lines. -/
def lines (output : AlligatorValue) : List Value := [output.jaw, output.teeth, output.lips]

/-- The state with its declared history, `alligator_min_history`. -/
def indicator (p : AlligatorParameters) : Indicator :=
  kept (update p) new value lines
    (fun state => ¬ ∃ line ∈ lines state.value, line.isNone)
    (max (p.jawPeriod + p.jawShift) (max (p.teethPeriod + p.teethShift)
      (p.lipsPeriod + p.lipsShift)))

theorem exact (p : AlligatorParameters) : (indicator p).Exact := by
  have hjaw := p.jaw_pos
  have hteeth := p.teeth_pos
  have hlips := p.lips_pos
  have hline {period : ℕ} (h : 0 < period) (shift : ℕ) (candles : List Candle) :=
    definedFrom_delay (definedFrom_rma h (definedFrom_hl2 candles)) shift
  refine (kept_exact_iff (fun _ _ => rfl) (by simp [lines]) (fun _ => not_exists_isNone)
    (rowsFrom_triple (fun _ _ _ => rfl) (outputs_update p new) (hline p.jaw_pos p.jawShift)
      (hline p.teeth_pos p.teethShift) (hline p.lips_pos p.lipsShift))).2 ?_
  omega

end AlligatorState

end Indicators
end TradingSystem
