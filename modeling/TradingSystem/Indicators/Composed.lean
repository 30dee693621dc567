import TradingSystem.Indicators.Strength
import TradingSystem.Indicators.Klinger
import TradingSystem.Indicators.Momentum
import TradingSystem.Indicators.Coppock

/-!
# Composed indicators

The states of the composed indicators against their batch functions. Six of the seven agree for
all parameters. The Coppock state keeps only as many closes as its long period needs, so with a
short period above the long one it never warms up.

* `composed_agree_iff` — the states agree with the batch functions exactly when the Coppock state
  keeps enough closes or the candles are too few for the batch curve.
-/

namespace TradingSystem
namespace Indicators

open Streaming

/-- Parameters of the seven composed indicators. -/
structure ComposedParameters where
  dmi : ℕ
  dmi_pos : 0 < dmi
  connors : ConnorsParameters
  coppock : CoppockParameters
  schaff : SchaffParameters
  klinger : KlingerParameters
  ichimoku : IchimokuParameters
  alligator : AlligatorParameters

/-- Fed candle by candle, every state gives the series of its batch function. -/
structure ComposedAgree (p : ComposedParameters) (candles : List Candle) : Prop where
  dmi : outputs (DMIState.update p.dmi) .new candles = Indicators.dmi candles p.dmi
  connors : outputs (ConnorsRSIState.update p.connors) .new candles = connorsRsi p.connors candles
  coppock : outputs (CoppockCurveState.update p.coppock) .new candles =
    coppockCurve p.coppock candles
  schaff : outputs (SchaffTrendCycleState.update p.schaff) .new candles =
    schaffTrendCycle p.schaff candles
  klinger : outputs (KlingerVolumeOscillatorState.update p.klinger) .new candles =
    klingerVolumeOscillator p.klinger candles
  ichimoku : outputs (IchimokuState.update p.ichimoku) .new candles =
    Indicators.ichimoku p.ichimoku candles
  alligator : outputs (AlligatorState.update p.alligator) .new candles =
    Indicators.alligator p.alligator candles

/-- **The composed indicators agree with their batch form** exactly when the short period of the
Coppock curve does not exceed the long one, or the candles are too few for the batch curve. -/
theorem composed_agree_iff (p : ComposedParameters) {candles : List Candle} (h : candles ≠ []) :
    ComposedAgree p candles ↔ p.coppock.shortPeriod ≤ p.coppock.longPeriod ∨
      candles.length < p.coppock.shortPeriod + p.coppock.smoothPeriod := by
  rw [← CoppockCurveState.outputs_coppock_iff p.coppock candles]
  refine ⟨ComposedAgree.coppock, fun hcoppock => ?_⟩
  exact
    { dmi := DMIState.outputs_dmi p.dmi_pos h
      connors := ConnorsRSIState.outputs_connors p.connors h
      coppock := hcoppock
      schaff := SchaffTrendCycleState.outputs_schaff p.schaff candles
      klinger := KlingerVolumeOscillatorState.outputs_klinger p.klinger candles
      ichimoku := IchimokuState.outputs_ichimoku p.ichimoku candles
      alligator := AlligatorState.outputs_alligator p.alligator candles }

/-- Some parameters, with the periods of the Coppock curve left open. -/
def smallParameters (coppock : CoppockParameters) : ComposedParameters where
  dmi := 2
  dmi_pos := Nat.two_pos
  connors := ⟨2, 2, 2, Nat.two_pos, Nat.two_pos, Nat.two_pos⟩
  coppock := coppock
  schaff := ⟨⟨1, 2, Nat.one_pos, Nat.one_lt_two⟩, 2, Nat.two_pos⟩
  klinger := ⟨1, 2, 2, Nat.one_pos, Nat.two_pos, Nat.one_lt_two⟩
  ichimoku := ⟨1, 2, 2, 1, Nat.one_pos, Nat.two_pos, Nat.two_pos⟩
  alligator := ⟨2, 1, 2, 1, 2, 1, Nat.two_pos, Nat.two_pos, Nat.two_pos⟩

/-- Three candles of one price. -/
def threeFlat : List Candle := List.replicate 3 (.flat 1 Nat.one_pos)

theorem composed_agree_iff_default :
    ComposedAgree (smallParameters ⟨2, 1, 1, by decide, by decide, by decide⟩) threeFlat ↔
      1 ≤ 2 ∨ threeFlat.length < 1 + 1 :=
  composed_agree_iff (smallParameters ⟨2, 1, 1, by decide, by decide, by decide⟩)
    (by simp [threeFlat])

/-- With a long period of one and a short period of two the state gives nothing where the batch
curve is zero. -/
theorem not_composed_agree :
    outputs (CoppockCurveState.update ⟨1, 2, 1, by decide, by decide, by decide⟩) .new threeFlat =
        [NAN, NAN, NAN] ∧
      coppockCurve ⟨1, 2, 1, by decide, by decide, by decide⟩ threeFlat = [NAN, NAN, some 0] ∧
      ¬ ComposedAgree (smallParameters ⟨1, 2, 1, by decide, by decide, by decide⟩) threeFlat := by
  have hstate : outputs (CoppockCurveState.update ⟨1, 2, 1, by decide, by decide, by decide⟩) .new
      threeFlat = [NAN, NAN, NAN] :=
    CoppockCurveState.outputs_starved (by decide) threeFlat
  have hbatch : coppockCurve ⟨1, 2, 1, by decide, by decide, by decide⟩ threeFlat =
      [NAN, NAN, some 0] := by decide +kernel
  refine ⟨hstate, hbatch, fun hagree => ?_⟩
  have hcoppock := hagree.coppock
  rw [smallParameters, hstate, hbatch] at hcoppock
  exact absurd hcoppock (by decide)

end Indicators
end TradingSystem
