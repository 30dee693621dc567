import TradingSystem.Indicators.Trend

/-!
# The declared histories of the averages of averages

The trend states with their `min_history`: for all parameters it is one more than the place their
outputs begin at (`DEMAState.exact` and the others).
-/

namespace TradingSystem
namespace Indicators

open Streaming Indicator

theorem doubled_isSome (x y : Value) : (doubled x y).isSome ↔ x.isSome ∧ y.isSome :=
  both_isSome _ x y

theorem tripled_isSome (x y z : Value) :
    (tripled x y z).isSome ↔ x.isSome ∧ y.isSome ∧ z.isSome := by
  cases x <;> cases y <;> cases z <;> simp [tripled]

/-- The averages of a chain of three, and where they begin. -/
theorem definedFrom_chain {period : ℕ} (h : 0 < period) (candles : List Candle) :
    let first := outputs (EmaState.update period) .new (closes candles)
    let second := outputs (EmaState.update period) .new first
    let third := outputs (EmaState.update period) .new second
    DefinedFrom (period - 1) first ∧ DefinedFrom (2 * (period - 1)) second ∧
      DefinedFrom (3 * (period - 1)) third := by
  have hfirst := definedFrom_ema h (definedFrom_closes candles)
  have hsecond := definedFrom_ema h hfirst
  have hthird := definedFrom_ema h hsecond
  exact ⟨hfirst.place (by omega), hsecond.place (by omega), hthird.place (by omega)⟩

namespace DEMAState

/-- The state with its declared history. -/
def indicator (period : ℕ) : Indicator :=
  scalar (update period) new current (fun state => state.second.warmedUp) (2 * period - 1)

theorem exact {period : ℕ} (h : 0 < period) : (indicator period).Exact := by
  refine (scalar_exact_iff (2 * (period - 1)) (fun candles => ?_) (fun candles => ?_)
    fun state hstate => ?_).2 (by omega)
  · obtain ⟨hfirst, hsecond, -⟩ := definedFrom_chain h candles
    rw [outputs_update]
    exact (hfirst.zipWith doubled_isSome hsecond).place (by omega)
  · obtain ⟨hfirst, hsecond, -⟩ := definedFrom_chain h candles
    have hone := ema_warmedUp hfirst
    have htwo := ema_warmedUp hsecond
    rw [length_outputs] at htwo
    rw [length_closes] at hone htwo
    rw [final_update, current, doubled_isSome]
    refine (and_congr hone htwo).trans ?_
    omega
  · exact ((doubled_isSome _ _).1 hstate).2

end DEMAState

namespace TEMAState

/-- The state with its declared history. -/
def indicator (period : ℕ) : Indicator :=
  scalar (update period) new current (fun state => state.third.warmedUp) (3 * period - 2)

theorem exact {period : ℕ} (h : 0 < period) : (indicator period).Exact := by
  refine (scalar_exact_iff (3 * (period - 1)) (fun candles => ?_) (fun candles => ?_)
    fun state hstate => ?_).2 (by omega)
  · obtain ⟨hfirst, hsecond, hthird⟩ := definedFrom_chain h candles
    rw [outputs_update]
    exact (definedFrom_zipWith3 tripled_isSome hfirst hsecond hthird).place (by omega)
  · obtain ⟨hfirst, hsecond, hthird⟩ := definedFrom_chain h candles
    have hone := ema_warmedUp hfirst
    have htwo := ema_warmedUp hsecond
    have hthree := ema_warmedUp hthird
    simp only [length_outputs, length_closes] at hone htwo hthree
    rw [final_update, current, tripled_isSome]
    refine (and_congr hone (and_congr htwo hthree)).trans ?_
    omega
  · exact ((tripled_isSome _ _ _).1 hstate).2.2

end TEMAState

namespace T3State

/-- The state with its declared history. -/
def indicator (period : ℕ) (volumeFactor : Double) : Indicator :=
  scalar (update period volumeFactor) new (current volumeFactor)
    (fun state => (state.link (t3Stages - 1)).isSome) (t3Stages * period - (t3Stages - 1))

/-- The volume factor gives four finite weights. -/
def Weighted (volumeFactor : Double) : Prop :=
  (t3Coefficients volumeFactor).1.isSome ∧ (t3Coefficients volumeFactor).2.1.isSome ∧
    (t3Coefficients volumeFactor).2.2.1.isSome ∧ (t3Coefficients volumeFactor).2.2.2.isSome

instance (volumeFactor : Double) : Decidable (Weighted volumeFactor) :=
  inferInstanceAs (Decidable (_ ∧ _))

theorem combine_isSome (volumeFactor : Double) (x y z w : Value) :
    (t3Combine (t3Coefficients volumeFactor) x y z w).isSome ↔
      Weighted volumeFactor ∧ x.isSome ∧ y.isSome ∧ z.isSome ∧ w.isSome := by
  rw [Weighted]
  rcases t3Coefficients volumeFactor with ⟨a, b, c, d⟩
  cases a <;> cases b <;> cases c <;> cases d <;> cases x <;> cases y <;> cases z <;> cases w <;>
    simp [t3Combine]

/-- With finite weights the last link is the latest one to show a value. -/
theorem current_isSome {period : ℕ} (h : 0 < period) {volumeFactor : Double}
    (hweighted : Weighted volumeFactor) (candles : List Candle) :
    (current volumeFactor (final (update period volumeFactor) new candles)).isSome ↔
      6 * (period - 1) < candles.length := by
  have hlink (stage : ℕ) (hstage : stage < t3Stages) :=
    link_isSome h volumeFactor candles hstage
  rw [current, combine_isSome, hlink 2 (by decide), hlink 3 (by decide), hlink 4 (by decide),
    hlink 5 (by decide)]
  refine (and_iff_right hweighted).trans ?_
  omega

theorem exact {period : ℕ} (h : 0 < period) {volumeFactor : Double}
    (hweighted : Weighted volumeFactor) : (indicator period volumeFactor).Exact := by
  have hshown := current_isSome h hweighted
  refine (scalar_exact_iff (6 * (period - 1)) (definedFrom_of_shown (fun _ _ => rfl) hshown)
    hshown fun state hstate => ?_).2 ?_
  · exact ((combine_isSome _ _ _ _ _).1 hstate).2.2.2.2
  · rw [t3Stages]
    omega

/-- A weight that is not finite leaves no output that would ever be defined. -/
theorem not_exact {period : ℕ} {volumeFactor : Double} (h : ¬ Weighted volumeFactor) :
    ¬ (indicator period volumeFactor).Exact := by
  intro hexact
  set candles := List.replicate (indicator period volumeFactor).minHistory
    (Candle.flat 1 Nat.one_pos) with hcandles
  have hlong : (indicator period volumeFactor).minHistory ≤ candles.length + 1 := by
    rw [hcandles, List.length_replicate]
    exact Nat.le_succ _
  have hdefined := (hexact.never_aborts candles (.flat 1 Nat.one_pos) hlong).1
  have hsome : (update period volumeFactor (final (update period volumeFactor) new candles)
      (.flat 1 Nat.one_pos)).2.isSome :=
    hdefined _ (List.mem_singleton_self _)
  exact h ((combine_isSome volumeFactor _ _ _ _).1 hsome).1

/-- The declared history is exact for the volume factors whose weights stay finite. -/
theorem exact_iff {period : ℕ} (h : 0 < period) (volumeFactor : Double) :
    (indicator period volumeFactor).Exact ↔ Weighted volumeFactor :=
  ⟨fun hexact => by_contra fun hinfinite => not_exact hinfinite hexact, exact h⟩

end T3State

namespace HMAState

/-- The state with its declared history. -/
def indicator (period : ℕ) : Indicator :=
  scalar (update period) new value (fun state => state.value.isSome)
    (period + roundedSqrt period - 1)

theorem definedFrom_outputs {period : ℕ} (h : 1 < period) (candles : List Candle) :
    DefinedFrom (period + roundedSqrt period - 2) (outputs (update period) new candles) := by
  have hroot := roundedSqrt_pos (show 0 < period by omega)
  have hquick := definedFrom_wma (show 0 < period / 2 by omega) (definedFrom_closes candles)
  have hsteady := definedFrom_wma (show 0 < period by omega) (definedFrom_closes candles)
  rw [outputs_update]
  exact (definedFrom_wma hroot (hquick.zipWith doubled_isSome hsteady)).place (by omega)

theorem exact {period : ℕ} (h : 1 < period) : (indicator period).Exact := by
  have hroot := roundedSqrt_pos (show 0 < period by omega)
  exact (keptValue_exact_iff (fun _ _ => rfl) rfl (definedFrom_outputs h)).2 (by omega)

end HMAState

namespace ZLEMAState

/-- The state with its declared history. -/
def indicator (period : ℕ) : Indicator :=
  scalar (update period) new current (fun state => state.average.warmedUp)
    (zlemaLag period + period)

theorem definedFrom_correctedCloses (period : ℕ) (candles : List Candle) :
    DefinedFrom (zlemaLag period) (correctedCloses period [] candles) :=
  ((definedFrom_closes candles).zipWith (both_isSome _)
    (definedFrom_delay (definedFrom_closes candles) _)).place (by omega)

theorem exact {period : ℕ} (h : 0 < period) : (indicator period).Exact := by
  have haverage (candles : List Candle) :=
    definedFrom_ema h (definedFrom_correctedCloses period candles)
  refine (scalar_exact_iff (zlemaLag period + (period - 1)) (fun candles => ?_)
    (fun candles => ?_) fun state hstate => hstate).2 (by omega)
  · rw [outputs_update]
    exact haverage candles
  · have hlength : (correctedCloses period [] candles).length = candles.length := by
      simp [correctedCloses]
    have hwarm := ema_warmedUp (haverage candles)
    rw [hlength] at hwarm
    rw [current, final_average]
    exact hwarm

end ZLEMAState

namespace TRIMAState

/-- The state with its declared history. -/
def indicator (period : ℕ) : Indicator :=
  scalar (update period) new (current period)
    (fun state => state.outer.warmedUp (trimaLengths period).2) period

theorem definedFrom_outputs {period : ℕ} (h : 0 < period) (candles : List Candle) :
    DefinedFrom (period - 1) (outputs (update period) new candles) := by
  obtain ⟨hfirst, hsecond, hsum⟩ := trimaLengths_spec h
  rw [outputs_update]
  exact (definedFrom_sma hsecond (definedFrom_sma hfirst (definedFrom_closes candles))).place
    (by omega)

theorem exact {period : ℕ} (h : 0 < period) : (indicator period).Exact := by
  obtain ⟨-, hsecond, -⟩ := trimaLengths_spec h
  have hnew : current period new = none :=
    if_neg fun hwarm => hsecond.ne hwarm.1
  have hrows := definedFrom_outputs h
  refine (scalar_exact_iff _ hrows (scalar_shown (fun _ _ => rfl) hnew hrows)
    fun state hstate => ?_).2 (by omega)
  by_contra hcold
  rw [current, SmaState.current, if_neg hcold] at hstate
  exact absurd hstate (by decide)

end TRIMAState

namespace VIDYAState

variable {period volatilityPeriod : ℕ}

/-- The state with its declared history. -/
def indicator (period volatilityPeriod : ℕ) : Indicator :=
  scalar (update period volatilityPeriod) new current (fun state => state.value.isSome)
    (vidyaStart period volatilityPeriod + 1)

theorem current_isSome (hperiod : 0 < period) (hvolatility : 0 < volatilityPeriod)
    (candles : List Candle) :
    (current (final (update period volatilityPeriod) new candles)).isSome ↔
      vidyaStart period volatilityPeriod < candles.length := by
  have hwarming := warming hperiod hvolatility candles
  by_cases hlong : vidyaStart period volatilityPeriod < candles.length
  · obtain ⟨x, hx⟩ := hwarming.running hlong
    simp [current, hx, hlong]
  · simp [current, hwarming.waiting (not_lt.1 hlong), hlong]

theorem exact (hperiod : 0 < period) (hvolatility : 0 < volatilityPeriod) :
    (indicator period volatilityPeriod).Exact := by
  have hshown := current_isSome hperiod hvolatility
  refine (scalar_exact_iff _ (definedFrom_of_shown (fun _ _ => rfl) hshown) hshown
    fun state hstate => ?_).2 rfl
  obtain ⟨index, seed, volatility, _ | value⟩ := state
  · exact hstate
  · rfl

end VIDYAState

end Indicators
end TradingSystem
