import TradingSystem.Indicators.Filters

/-!
# The declared histories of oscillators and systems

The momentum, strength, volume, volatility and system states with their `min_history`. All are
exact for all parameters but two: the Coppock state with a short period above the long one never
has a value, and Ichimoku leaves the displaced conversion line out of its formula.
-/

namespace TradingSystem
namespace Indicators

open Streaming Indicator

/-! ### MACD and the impulse system -/

/-- The MACD line begins with the slow average. -/
theorem definedFrom_macdLine (p : MacdPeriods) {start : ℕ} {values : List Value}
    (h : DefinedFrom start values) :
    DefinedFrom (start + (p.slowPeriod - 1)) (outputs (MacdLineState.update p) .new values) := by
  have hlt := p.fast_lt_slow
  have hfast := definedFrom_ema p.fast_pos h
  have hslow := definedFrom_ema p.slow_pos h
  rw [MacdLineState.outputs_update]
  exact (hfast.zipWith (both_isSome _) hslow).place (by omega)

namespace MACDState

/-- The state with its declared history. -/
def indicator (p : MacdParameters) : Indicator :=
  kept (update p) new value (fun output => [output.macd, output.signal, output.histogram])
    (fun state => state.value.signal.isSome) (p.slowPeriod + p.signalPeriod - 1)

theorem definedFrom_signal (p : MacdParameters) (candles : List Candle) :
    DefinedFrom (p.slowPeriod + p.signalPeriod - 2)
      (outputs (EmaState.update p.signalPeriod) .new
        (outputs (MacdLineState.update p.toMacdPeriods) .new (closes candles))) := by
  have hslow := p.slow_pos
  have hsignal := p.signal_pos
  exact (definedFrom_ema hsignal (definedFrom_macdLine _ (definedFrom_closes candles))).place
    (by omega)

theorem definedFrom_histogram (p : MacdParameters) (candles : List Candle) :
    DefinedFrom (p.slowPeriod + p.signalPeriod - 2)
      (List.zipWith difference
        (outputs (MacdLineState.update p.toMacdPeriods) .new (closes candles))
        (outputs (EmaState.update p.signalPeriod) .new
          (outputs (MacdLineState.update p.toMacdPeriods) .new (closes candles)))) := by
  have hslow := p.slow_pos
  have hsignal := p.signal_pos
  exact ((definedFrom_macdLine _ (definedFrom_closes candles)).zipWith (both_isSome _)
    (definedFrom_signal p candles)).place (by omega)

theorem exact (p : MacdParameters) : (indicator p).Exact := by
  have hslow := p.slow_pos
  have hsignal := p.signal_pos
  refine (kept_exact_iff (fun _ _ => rfl) (by simp) (fun state hstate => ?_)
    (rowsFrom_triple (fun _ _ _ => rfl) (outputs_update p new)
      (fun candles => definedFrom_macdLine _ (definedFrom_closes candles))
      (definedFrom_signal p) (definedFrom_histogram p))).2 (by omega)
  exact hstate _ (by simp)

end MACDState

namespace ElderImpulseState

/-- The state with its declared history. -/
def indicator (p : ElderImpulseParameters) : Indicator :=
  scalar (update p) new value (fun state => state.value.isSome)
    (max (p.emaPeriod + 1) (p.slowPeriod + p.signalPeriod))

/-- The histogram of the MACD state of a run. -/
theorem histogram_eq (p : MacdParameters) (candles : List Candle) :
    (outputs (MACDState.update p) .new candles).map MacdValue.histogram =
      List.zipWith difference
        (outputs (MacdLineState.update p.toMacdPeriods) .new (closes candles))
        (outputs (EmaState.update p.signalPeriod) .new
          (outputs (MacdLineState.update p.toMacdPeriods) .new (closes candles))) := by
  rw [MACDState.outputs_update]
  apply List.ext_getElem
  · simp [length_zipWith3]
  · intro i hi hi'
    rw [List.getElem_map]
    obtain ⟨_, _, _, heq⟩ := getElem_zipWith3 MacdValue.mk _ _ _ i (by simpa using hi)
    rw [heq]
    rfl

theorem definedFrom_outputs (p : ElderImpulseParameters) (candles : List Candle) :
    DefinedFrom (max p.emaPeriod (p.slowPeriod + p.signalPeriod - 1))
      (outputs (update p) new candles) := by
  have hpos := p.ema_pos
  have hslow := p.slow_pos
  have hsignal := p.signal_pos
  have haverage := definedFrom_ema p.ema_pos (definedFrom_closes candles)
  have hhistogram := MACDState.definedFrom_histogram p.toMacdParameters candles
  rw [outputs_update]
  simp only [new, histogram_eq]
  intro i hi
  obtain ⟨hone, htwo, hthree, hfour, heq⟩ := getElem_zipWith4 impulse _ _ _ _ i hi
  rw [heq, impulse_isSome, haverage _ hone, hhistogram _ hthree]
  cases i with
  | zero => simp; omega
  | succ i =>
    rw [List.getElem_cons_succ, List.getElem_cons_succ, haverage, hhistogram]
    omega

theorem exact (p : ElderImpulseParameters) : (indicator p).Exact := by
  have hslow := p.slow_pos
  refine (keptValue_exact_iff (fun _ _ => rfl) rfl (definedFrom_outputs p)).2 ?_
  omega

end ElderImpulseState

/-! ### Stochastic forms -/

namespace StochasticRSIState

/-- The state with its declared history. -/
def indicator (p : StochasticRsiParameters) : Indicator :=
  kept (update p) new value (fun output => [output.percentK, output.percentD])
    (fun state => state.value.percentD.isSome)
    (p.rsiPeriod + 1 + p.stochasticPeriod + p.smoothK + p.smoothD - 3)

theorem rawStochastic_isSome (value high low : Value) :
    (rawStochastic value high low).isSome ↔ value.isSome ∧ high.isSome ∧ low.isSome := by
  cases value <;> cases high <;> cases low <;> simp [rawStochastic]

theorem definedFrom_percentK (p : StochasticRsiParameters) (candles : List Candle) :
    let strength := outputs (RSIValueState.update p.rsiPeriod) .new (closePrices candles)
    DefinedFrom (p.rsiPeriod + p.stochasticPeriod + p.smoothK - 2)
      (outputs (SmaState.update p.smoothK) .new
        (List.zipWith3 rawStochastic strength
          (outputs (RollingExtremeState.update p.stochasticPeriod true) .new strength)
          (outputs (RollingExtremeState.update p.stochasticPeriod false) .new strength))) := by
  have hstochastic := p.stochastic_pos
  have hsmooth := p.smoothK_pos
  have hstrength := definedFrom_rsi p.rsi_pos (closePrices candles)
  have hhigh := definedFrom_extreme p.stochastic_pos true hstrength
  have hlow := definedFrom_extreme p.stochastic_pos false hstrength
  exact (definedFrom_sma hsmooth
    (definedFrom_zipWith3 rawStochastic_isSome hstrength hhigh hlow)).place (by omega)

theorem exact (p : StochasticRsiParameters) : (indicator p).Exact := by
  have hrsi := p.rsi_pos
  have hstochastic := p.stochastic_pos
  have hK := p.smoothK_pos
  have hD := p.smoothD_pos
  refine (kept_exact_iff (fun _ _ => rfl) (by simp) (fun state hstate => ?_)
    (rowsFrom_pair (fun _ _ => rfl) (outputs_update p new) (definedFrom_percentK p)
      fun candles => definedFrom_sma hD (definedFrom_percentK p candles))).2 (by omega)
  exact hstate _ (by simp)

end StochasticRSIState

namespace SMIState

/-- The state with its declared history. -/
def indicator (p : SmiParameters) : Indicator :=
  kept (update p) new value (fun output => [output.smi, output.signal])
    (fun state => state.value.signal.isSome)
    (p.period + p.longPeriod + p.shortPeriod + p.signalPeriod - 3)

theorem definedFrom_line (p : SmiParameters) (candles : List Candle) :
    let highest := outputs (RollingExtremeState.update p.period true) .new (highs candles)
    let lowest := outputs (RollingExtremeState.update p.period false) .new (lows candles)
    DefinedFrom (p.period + p.longPeriod + p.shortPeriod - 3)
      (List.zipWith percentOf
        (outputs (EmaState.update p.shortPeriod) .new
          (outputs (EmaState.update p.longPeriod) .new
            (List.zipWith3 distance candles highest lowest)))
        (outputs (EmaState.update p.shortPeriod) .new
          (outputs (EmaState.update p.longPeriod) .new
            (List.zipWith halfRange highest lowest)))) := by
  have hperiod := p.period_pos
  have hlong := p.long_pos
  have hshort := p.short_pos
  have hhigh := definedFrom_extreme hperiod true (definedFrom_highs candles)
  have hlow := definedFrom_extreme hperiod false (definedFrom_lows candles)
  have hdistance := definedFrom_zipWith3_right (f := distance) (fun _ => both_isSome _)
    candles hhigh hlow
  have hrange := hhigh.zipWith (both_isSome fun high low => (high - low) / 2) hlow
  exact ((definedFrom_ema hshort (definedFrom_ema hlong hdistance)).zipWith (both_isSome _)
    (definedFrom_ema hshort (definedFrom_ema hlong hrange))).place (by omega)

theorem exact (p : SmiParameters) : (indicator p).Exact := by
  have hperiod := p.period_pos
  have hlong := p.long_pos
  have hshort := p.short_pos
  have hsignal := p.signal_pos
  refine (kept_exact_iff (fun _ _ => rfl) (by simp) (fun state hstate => ?_)
    (rowsFrom_pair (fun _ _ => rfl) (outputs_update p new) (definedFrom_line p)
      fun candles => definedFrom_ema hsignal (definedFrom_line p candles))).2 (by omega)
  exact hstate _ (by simp)

end SMIState

/-! ### Rates of change -/

namespace TRIXState

/-- The state with its declared history. -/
def indicator (period : ℕ) : Indicator :=
  scalar (update period) new value (fun state => state.value.isSome) (3 * period - 1)

theorem definedFrom_outputs {period : ℕ} (h : 0 < period) (candles : List Candle) :
    DefinedFrom (3 * period - 2) (outputs (update period) new candles) := by
  have hthird := definedFrom_ema h (definedFrom_ema h (definedFrom_ema h
    (definedFrom_closes candles)))
  rw [outputs_update]
  exact (definedFrom_previous (both_isSome _) hthird).place (by omega)

theorem exact {period : ℕ} (h : 0 < period) : (indicator period).Exact :=
  (keptValue_exact_iff (fun _ _ => rfl) rfl (definedFrom_outputs h)).2 (by omega)

end TRIXState

namespace DPOState

/-- The state with its declared history. -/
def indicator (period : ℕ) : Indicator :=
  scalar (update period) new value (fun state => state.value.isSome)
    (max period (dpoShift period + 1))

theorem definedFrom_outputs {period : ℕ} (h : 0 < period) (candles : List Candle) :
    DefinedFrom (max (period - 1) (dpoShift period)) (outputs (update period) new candles) := by
  have hearlier := definedFrom_delay (definedFrom_closes candles) (dpoShift period)
  have haverage := definedFrom_sma h (definedFrom_closes candles)
  rw [outputs_update]
  exact (hearlier.zipWith (both_isSome _) haverage).place (by omega)

theorem exact {period : ℕ} (h : 0 < period) : (indicator period).Exact :=
  (keptValue_exact_iff (fun _ _ => rfl) rfl (definedFrom_outputs h)).2 (by omega)

end DPOState

/-! ### The Connors form -/

/-- A value has a rank when it and a full window before it are defined. -/
theorem percentRank_isSome (period : ℕ) (seen : List Value) (value : Value) :
    (percentRank (seen.rtake period) value period).isSome ↔
      value.isSome ∧ (completeWindow period seen).isSome := by
  cases value with
  | none => simp [percentRank]
  | some value =>
    rw [← windowWeightedMean_isSome, windowWeightedMean, WmaWindow.current, percentRank]
    split <;> simp

/-- Ranks begin one window after the changes do. -/
theorem definedFrom_rank {period start : ℕ} {changes : List Value} (hperiod : 0 < period)
    (h : DefinedFrom start changes) :
    DefinedFrom (start + period) (outputs (RankWindow.update period) [] changes) := by
  intro i hi
  have hlt : i < changes.length := by simpa using hi
  have hfinal : final (RankWindow.update period) [] (changes.take i) =
      (changes.take i).rtake period := foldl_push period (changes.take i)
  have hwindow := h.prefixes hperiod (f := completeWindow period) fun _ => Iff.rfl
  rw [getElem_outputs, hfinal, RankWindow.update, percentRank_isSome, h i hlt]
  cases i with
  | zero =>
    have hshort : ¬ start + period ≤ 0 := by omega
    rw [completeWindow_isSome]
    simp [hperiod.ne', hshort]
  | succ i =>
    have hi := hwindow i (by simp; omega)
    rw [getElem_prefixes] at hi
    rw [hi]
    omega

theorem meanOfThree_isSome (x y z : Value) :
    (meanOfThree x y z).isSome ↔ x.isSome ∧ y.isSome ∧ z.isSome := by
  cases x <;> cases y <;> cases z <;> simp [meanOfThree]

namespace ConnorsRSIState

/-- The state with its declared history. -/
def indicator (p : ConnorsParameters) : Indicator :=
  scalar (update p) new value (fun state => state.value.isSome)
    (max p.rsiPeriod (max p.streakPeriod (p.rankPeriod + 1)) + 1)

theorem definedFrom_outputs (p : ConnorsParameters) (candles : List Candle) :
    DefinedFrom (max p.rsiPeriod (max p.streakPeriod (p.rankPeriod + 1)))
      (outputs (update p) new candles) := by
  have hchanges : DefinedFrom 1 (withPrevious
      (fun previous value => change previous (some value)) none (closePrices candles)) := by
    have hroc := roc_definedFrom candles 1
    have hcloses : closes candles = (closePrices candles).map some := by
      simp [closes, closePrices]
    rwa [hcloses, roc_one] at hroc
  have hprice := definedFrom_rsi p.rsi_pos (closePrices candles)
  have hstreak := definedFrom_rsi p.streak_pos (streakLoop none 0 (closePrices candles))
  rw [outputs_update]
  exact (definedFrom_zipWith3 meanOfThree_isSome hprice hstreak
    (definedFrom_rank p.rank_pos hchanges)).place (by omega)

theorem exact (p : ConnorsParameters) : (indicator p).Exact :=
  (keptValue_exact_iff (fun _ _ => rfl) rfl (definedFrom_outputs p)).2 rfl

end ConnorsRSIState

/-! ### The Coppock curve -/

namespace CoppockCurveState

/-- The state with its declared history. -/
def indicator (p : CoppockParameters) : Indicator :=
  scalar (update p) new value (fun state => state.value.isSome) (p.longPeriod + p.smoothPeriod)

theorem exact {p : CoppockParameters} (h : p.shortPeriod ≤ p.longPeriod) :
    (indicator p).Exact := by
  have hsmooth := p.smooth_pos
  have hrows (candles : List Candle) :
      DefinedFrom (p.longPeriod + (p.smoothPeriod - 1)) (outputs (update p) new candles) := by
    rw [outputs_coppock h]
    exact (coppockCurve_definedFrom p candles).place (by omega)
  exact (keptValue_exact_iff (fun _ _ => rfl) rfl hrows).2 (by omega)

/-- A state that never has a value has no history that would be enough. -/
theorem not_exact {p : CoppockParameters} (h : p.longPeriod < p.shortPeriod) :
    ¬ (indicator p).Exact := by
  intro hexact
  set candles := List.replicate (p.longPeriod + p.smoothPeriod) (Candle.flat 1 Nat.one_pos)
    with hcandles
  have hlong : (indicator p).minHistory ≤ candles.length + 1 := by
    rw [hcandles, List.length_replicate]
    exact Nat.le_succ _
  have hdefined := (hexact.never_aborts candles (.flat 1 Nat.one_pos) hlong).1
  have hlast : (update p (final (update p) new candles) (.flat 1 Nat.one_pos)).2 = NAN := by
    have houtputs := outputs_starved h (candles ++ [.flat 1 Nat.one_pos])
    rw [outputs_concat, List.length_append, List.length_singleton, List.replicate_succ'] at houtputs
    exact List.singleton_inj.1 (List.append_inj_right' houtputs rfl)
  have hsome : (update p (final (update p) new candles) (.flat 1 Nat.one_pos)).2.isSome :=
    hdefined _ (List.mem_singleton_self _)
  rw [hlast] at hsome
  exact absurd hsome (by decide)

end CoppockCurveState

/-! ### The Schaff cycle -/

/-- A stage gives a value where it has one and the extremes of its window. -/
theorem schaffLoop_isSome (state : Ratio) (values highs lows : List Value) (i : ℕ)
    (h : i < (schaffLoop state values highs lows).length) :
    ∃ (hv : i < values.length) (hh : i < highs.length) (hl : i < lows.length),
      ((schaffLoop state values highs lows)[i].isSome ↔
        values[i].isSome ∧ highs[i].isSome ∧ lows[i].isSome) := by
  induction values generalizing state highs lows i with
  | nil => simp [schaffLoop] at h
  | cons value values ih =>
    rcases highs with _ | ⟨high, highs⟩
    · simp [schaffLoop] at h
    rcases lows with _ | ⟨low, lows⟩
    · simp [schaffLoop] at h
    cases i with
    | zero =>
      refine ⟨by simp, by simp, by simp, ?_⟩
      cases value <;> cases high <;> cases low <;> simp [schaffLoop, Ratio.step]
    | succ i =>
      obtain ⟨hv, hh, hl, hiff⟩ := ih (state.step value high low).1 highs lows i
        (by simpa [schaffLoop] using h)
      exact ⟨by simpa using hv, by simpa using hh, by simpa using hl, hiff⟩

theorem definedFrom_schaffStage {period start : ℕ} {values : List Value} (hperiod : 0 < period)
    (h : DefinedFrom start values) :
    DefinedFrom (start + (period - 1)) (outputs (SchaffStageState.update period) .new values) := by
  have hhigh := definedFrom_extreme hperiod true h
  have hlow := definedFrom_extreme hperiod false h
  rw [SchaffStageState.outputs_update]
  intro i hi
  obtain ⟨hv, hh, hl, hiff⟩ := schaffLoop_isSome _ _ _ _ i hi
  rw [hiff, h i hv]
  refine (and_congr_right' (and_congr (hhigh i hh) (hlow i hl))).trans ?_
  omega

namespace SchaffTrendCycleState

/-- The state with its declared history. -/
def indicator (p : SchaffParameters) : Indicator :=
  scalar (update p) new value (fun state => state.value.isSome)
    (p.slowPeriod + 2 * (p.cyclePeriod - 1))

theorem definedFrom_outputs (p : SchaffParameters) (candles : List Candle) :
    DefinedFrom (p.slowPeriod - 1 + 2 * (p.cyclePeriod - 1)) (outputs (update p) new candles) := by
  have hline := definedFrom_macdLine p.toMacdPeriods (definedFrom_closes candles)
  rw [outputs_update]
  exact (definedFrom_schaffStage p.cycle_pos
    (definedFrom_schaffStage p.cycle_pos hline)).place (by omega)

theorem exact (p : SchaffParameters) : (indicator p).Exact := by
  have hslow := p.slow_pos
  exact (keptValue_exact_iff (fun _ _ => rfl) rfl (definedFrom_outputs p)).2 (by omega)

end SchaffTrendCycleState

end Indicators
end TradingSystem
