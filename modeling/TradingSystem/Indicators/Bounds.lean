import TradingSystem.Indicators.Averages
import TradingSystem.Indicators.Oscillators
import Mathlib.Tactic.Linarith
import Mathlib.Tactic.Positivity
import Mathlib.Analysis.Convex.Basic

/-!
# Bounds of the oscillators

Every bound is carried through the smoothing as a convex set of tuples: a gain and a loss, a
pressure and its range, a change and its size, a range and its two directional moves.

* `oscillators_bounded` — over any candles every oscillator stays in its range, as a batch series
  and fed candle by candle.
-/

namespace TradingSystem
namespace Indicators

open Streaming

/-! ### Ratios -/

theorem safeDivide_mem_unit {a b onZero : ℚ} (ha : 0 ≤ a) (hab : a ≤ b)
    (hzero : 0 ≤ onZero ∧ onZero ≤ 1) :
    0 ≤ safeDivide a b onZero ∧ safeDivide a b onZero ≤ 1 := by
  rw [safeDivide]
  split
  · exact hzero
  · exact ⟨div_nonneg ha (ha.trans hab), div_le_one_of_le₀ hab (ha.trans hab)⟩

theorem abs_safeDivide_le {a b : ℚ} (h : |a| ≤ b) : |safeDivide a b 0| ≤ 1 := by
  rw [safeDivide]
  split
  · simp
  · have hb : 0 ≤ b := (abs_nonneg a).trans h
    rw [abs_div, abs_of_nonneg hb]
    exact div_le_one_of_le₀ h hb

theorem hundred_mul_mem {x : ℚ} (h : 0 ≤ x ∧ x ≤ 1) : 100 * x ∈ Set.Icc (0 : ℚ) 100 := by
  constructor <;> linarith [h.1, h.2]

theorem hundred_mul_abs_mem {x : ℚ} (h : |x| ≤ 1) : 100 * x ∈ Set.Icc (-100 : ℚ) 100 := by
  have := abs_le.1 h
  constructor <;> linarith [this.1, this.2]

/-! ### Tuples -/

/-- The rows of neighbours; the first element has none. -/
def neighbours {α M : Type*} (g : α → α → M) (xs : List α) : List (Option M) :=
  none :: List.zipWith (fun previous current => some (g previous current)) xs xs.tail

theorem rowsIn_neighbours {α M : Type*} {g : α → α → M} {C : Set M} (h : ∀ x y, g x y ∈ C)
    (xs : List α) : RowsIn C (neighbours g xs) := by
  intro row hrow x hx
  rcases List.mem_cons.1 hrow with rfl | hrow
  · cases hx
  · obtain ⟨i, hi, rfl⟩ := List.getElem_of_mem hrow
    rw [List.getElem_zipWith] at hx
    obtain rfl := Option.some.inj hx
    exact h _ _

section Tuples

variable {M : Type*} [AddCommGroup M] [Module ℚ M]

/-- Where one linear form does not exceed another is convex. -/
theorem convex_le (φ ψ : M →ₗ[ℚ] ℚ) : Convex ℚ {x | φ x ≤ ψ x} := by
  intro x hx y hy a b ha hb _
  simp only [Set.mem_ofPred_eq, map_add, map_smul, smul_eq_mul] at *
  exact add_le_add (mul_le_mul_of_nonneg_left hx ha) (mul_le_mul_of_nonneg_left hy hb)

/-- The first of a pair. -/
abbrev first : ℚ × ℚ →ₗ[ℚ] ℚ := LinearMap.fst ℚ ℚ ℚ

/-- The second of a pair. -/
abbrev second : ℚ × ℚ →ₗ[ℚ] ℚ := LinearMap.snd ℚ ℚ ℚ

/-- Pairs that are not negative. -/
def Nonneg : Set (ℚ × ℚ) := {x | 0 ≤ x.1 ∧ 0 ≤ x.2}

/-- Pairs of a part and the whole. -/
def PartOf : Set (ℚ × ℚ) := {x | 0 ≤ x.1 ∧ x.1 ≤ x.2}

/-- Pairs of a value and a bound of its size. -/
def Dominated : Set (ℚ × ℚ) := {x | |x.1| ≤ x.2}

theorem convex_nonneg : Convex ℚ Nonneg := (convex_le 0 first).inter (convex_le 0 second)

theorem convex_partOf : Convex ℚ PartOf := (convex_le 0 first).inter (convex_le first second)

theorem convex_dominated : Convex ℚ Dominated := by
  have h : Dominated = {x | (-second) x ≤ first x} ∩ {x | first x ≤ second x} := by
    ext x
    exact (abs_le : |x.1| ≤ x.2 ↔ _)
  rw [h]
  exact (convex_le _ _).inter (convex_le _ _)

theorem component_neighbours {α : Type*} (φ : M →ₗ[ℚ] ℚ) (g : α → α → M) (xs : List α) :
    component φ (neighbours g xs) = NAN :: List.zipWith (fun previous current =>
      some (φ (g previous current))) xs xs.tail := by
  rw [component, neighbours, List.map_cons, List.map_zipWith]
  rfl

/-- A value computed from two components of rows in a set. -/
theorem valuesIn_both {rows : List (Option M)} {C : Set M} (hrows : RowsIn C rows)
    {φ ψ : M →ₗ[ℚ] ℚ} {f : ℚ → ℚ → ℚ} {D : Set ℚ} (h : ∀ x ∈ C, f (φ x) (ψ x) ∈ D) :
    ValuesIn D (List.zipWith (both f) (component φ rows) (component ψ rows)) := by
  intro value hvalue y hy
  rw [component, component, List.zipWith_map, List.zipWith_self, List.mem_map] at hvalue
  obtain ⟨row, hrow, rfl⟩ := hvalue
  cases row with
  | none => cases hy
  | some x =>
    obtain rfl := Option.some.inj hy
    exact h x (hrows _ hrow x rfl)

end Tuples

/-! ### Relative strength -/

theorem rsiValue_mem {averageGain averageLoss : ℚ} (hgain : 0 ≤ averageGain)
    (hloss : 0 ≤ averageLoss) : rsiValue averageGain averageLoss ∈ Set.Icc (0 : ℚ) 100 := by
  rw [rsiValue]
  split
  · exact ⟨by norm_num, le_refl _⟩
  · split
    · exact ⟨le_refl _, by norm_num⟩
    · have hratio : 0 ≤ averageGain / averageLoss := div_nonneg hgain hloss
      have hpos : (0 : ℚ) < 1 + averageGain / averageLoss := by linarith
      have hle : 100 / (1 + averageGain / averageLoss) ≤ 100 := by
        rw [div_le_iff₀ hpos]
        linarith
      have hnonneg : 0 ≤ 100 / (1 + averageGain / averageLoss) := by positivity
      exact ⟨by linarith, by linarith⟩

/-- Gain and loss of a change. -/
def gainLoss (previous current : ℚ) : ℚ × ℚ :=
  (gain (current - previous), loss (current - previous))

theorem gainLoss_mem (previous current : ℚ) : gainLoss previous current ∈ Nonneg :=
  ⟨le_max_right _ _, le_max_right _ _⟩

theorem changesOf_gain (values : List ℚ) :
    changesOf gain values = component first (neighbours gainLoss values) :=
  (component_neighbours first gainLoss values).symm

theorem changesOf_loss (values : List ℚ) :
    changesOf loss values = component second (neighbours gainLoss values) :=
  (component_neighbours second gainLoss values).symm

/-- The relative strength of any series is in its range. -/
theorem rsiFromValues_mem {period : ℕ} (hperiod : 0 < period) (values : List ℚ) :
    ValuesIn (Set.Icc 0 100) (rsiFromValues values period) := by
  obtain ⟨averages, haverages, hcomponent⟩ :=
    rma_rows convex_nonneg (rowsIn_neighbours gainLoss_mem values) hperiod
  rw [rsiFromValues, changesOf_gain, changesOf_loss, hcomponent, hcomponent]
  exact valuesIn_both haverages fun x hx => rsiValue_mem hx.1 hx.2

/-! ### The Connors form -/

theorem percentRank_mem {window : List Value} {period : ℕ} (h : window.length ≤ period)
    (value : Value) : ∀ x ∈ percentRank window value period, x ∈ Set.Icc (0 : ℚ) 100 := by
  intro x hx
  cases value with
  | none => cases hx
  | some value =>
    simp only [percentRank] at hx
    split at hx
    · cases hx
    · obtain rfl := Option.some.inj hx
      have hcount : window.reduceOption.countP (· < value) ≤ period :=
        List.countP_le_length.trans ((List.reduceOption_length_le window).trans h)
      have hcount' : ((window.reduceOption.countP (· < value) : ℕ) : ℚ) ≤ period := by
        exact_mod_cast hcount
      refine ⟨by positivity, ?_⟩
      rw [mul_div_assoc]
      have hshare : ((window.reduceOption.countP (· < value) : ℕ) : ℚ) / period ≤ 1 :=
        div_le_one_of_le₀ hcount' (by positivity)
      linarith

theorem ranks_mem (changes : List Value) (period : ℕ) :
    ValuesIn (Set.Icc 0 100) (ranks changes period) := by
  intro value hvalue x hx
  rw [ranks, List.mem_map] at hvalue
  obtain ⟨index, -, rfl⟩ := hvalue
  split at hx
  · cases hx
  · refine percentRank_mem ?_ _ x hx
    rw [List.length_drop, List.length_take]
    omega

/-- A value computed from an entry of each of three series. -/
theorem valuesIn_zipWith3 {g : Value → Value → Value → Value} {C D : Set ℚ}
    (h : ∀ x y z, (∀ a ∈ x, a ∈ C) → (∀ a ∈ y, a ∈ C) → (∀ a ∈ z, a ∈ C) →
      ∀ a ∈ g x y z, a ∈ D) {xs ys zs : List Value} (hx : ValuesIn C xs) (hy : ValuesIn C ys)
    (hz : ValuesIn C zs) : ValuesIn D (List.zipWith3 g xs ys zs) := by
  induction xs generalizing ys zs with
  | nil => intro _ hmem; simp [List.zipWith3] at hmem
  | cons x xs ih =>
    rcases ys with _ | ⟨y, ys⟩
    · intro _ hmem; simp [List.zipWith3] at hmem
    rcases zs with _ | ⟨z, zs⟩
    · intro _ hmem; simp [List.zipWith3] at hmem
    intro value hvalue a ha
    rcases List.mem_cons.1 hvalue with rfl | hvalue
    · exact h x y z (hx x (by simp)) (hy y (by simp)) (hz z (by simp)) a ha
    · exact ih (fun v hv => hx v (by simp [hv])) (fun v hv => hy v (by simp [hv]))
        (fun v hv => hz v (by simp [hv])) value hvalue a ha

theorem connorsRsi_mem (p : ConnorsParameters) (candles : List Candle) :
    ValuesIn (Set.Icc 0 100) (connorsRsi p candles) := by
  refine valuesIn_zipWith3 ?_ (rsiFromValues_mem p.rsi_pos _) (rsiFromValues_mem p.streak_pos _)
    (ranks_mem _ _)
  rintro (_ | x) (_ | y) (_ | z) hx hy hz a ha <;> try cases ha
  have hx' := hx x rfl
  have hy' := hy y rfl
  have hz' := hz z rfl
  simp only [Set.mem_Icc] at *
  constructor <;> linarith

/-! ### Values between the extremes of their window -/

/-- A rolling extreme is at least as extreme as the newest value of its window. -/
theorem windowExtreme_atLeast {period : ℕ} (hperiod : 0 < period) {highest : Bool}
    {values : List Value} {x y : ℚ}
    (h : windowExtreme highest period (values ++ [some x]) = some y) : AtLeast highest y x := by
  obtain ⟨window, hwindow, -, hall⟩ := windowExtreme_eq_some.1 h
  apply hall
  have hmap := (completeWindow_eq_some.1 hwindow).1
  obtain ⟨n, rfl⟩ := Nat.exists_eq_succ_of_ne_zero hperiod.ne'
  rw [List.rtake_concat_succ] at hmap
  have hmem : some x ∈ window.map some := by
    rw [← hmap]
    simp
  simpa using hmem

/-- Every value lies between the extremes next to it. -/
inductive Enclosed {α : Type} (f : α → Value) : List α → List Value → List Value → Prop
  | nil : Enclosed f [] [] []
  | cons {a : α} {high low : Value} {xs : List α} {highs lows : List Value}
      (hhigh : ∀ x ∈ f a, ∀ y ∈ high, x ≤ y) (hlow : ∀ x ∈ f a, ∀ y ∈ low, y ≤ x)
      (h : Enclosed f xs highs lows) : Enclosed f (a :: xs) (high :: highs) (low :: lows)

/-- Values given with their extremes at every place are enclosed by them. -/
theorem enclosed_prefixes {α : Type} {f : α → Value} {high low : List α → Value}
    (hhigh : ∀ seen a, ∀ x ∈ f a, ∀ y ∈ high (seen ++ [a]), x ≤ y)
    (hlow : ∀ seen a, ∀ x ∈ f a, ∀ y ∈ low (seen ++ [a]), y ≤ x) (xs : List α) :
    Enclosed f xs (prefixes high xs) (prefixes low xs) := by
  suffices h : ∀ (xs seen : List α), Enclosed f xs
      ((List.range xs.length).map fun i => high (seen ++ xs.take (i + 1)))
      ((List.range xs.length).map fun i => low (seen ++ xs.take (i + 1))) from h xs []
  intro xs
  induction xs with
  | nil => exact fun _ => .nil
  | cons a xs ih =>
    intro seen
    have htail := ih (seen ++ [a])
    simp only [List.append_assoc, List.singleton_append] at htail
    simp only [List.length_cons, List.range_succ_eq_map, List.map_cons, List.map_map,
      Function.comp_def, List.take_succ_cons, List.take_zero]
    exact .cons (hhigh seen a) (hlow seen a) htail

/-- The values of a series lie between its rolling extremes. -/
theorem enclosed_values {period : ℕ} (hperiod : 0 < period) (values : List Value) :
    Enclosed id values (hh values period) (ll values period) := by
  rw [hh, ll, rollingExtreme_eq hperiod, rollingExtreme_eq hperiod]
  refine enclosed_prefixes ?_ ?_ values
  · rintro seen (_ | a) x hx y hy
    · cases hx
    · obtain rfl := Option.some.inj hx
      exact windowExtreme_atLeast hperiod hy
  · rintro seen (_ | a) x hx y hy
    · cases hx
    · obtain rfl := Option.some.inj hx
      exact windowExtreme_atLeast hperiod hy

/-- A close lies between the rolling extremes of the highs and the lows. -/
theorem enclosed_candles {period : ℕ} (hperiod : 0 < period) (candles : List Candle) :
    Enclosed (fun candle : Candle => some candle.close) candles (hh (highs candles) period)
      (ll (lows candles) period) := by
  have hprefixes (highest : Bool) (f : Candle → Value) :
      rollingExtreme (candles.map f) period highest =
        prefixes (fun seen => windowExtreme highest period (seen.map f)) candles := by
    rw [rollingExtreme_eq hperiod, prefixes, prefixes, List.length_map]
    simp only [List.map_take]
  rw [hh, ll, highs, lows, hprefixes, hprefixes]
  refine enclosed_prefixes ?_ ?_ candles
  · intro seen candle x hx y hy
    obtain rfl := Option.some.inj hx
    rw [List.map_append, List.map_cons, List.map_nil] at hy
    exact candle.close_le_high.trans (windowExtreme_atLeast hperiod hy)
  · intro seen candle x hx y hy
    obtain rfl := Option.some.inj hx
    rw [List.map_append, List.map_cons, List.map_nil] at hy
    have hle : y ≤ candle.low := windowExtreme_atLeast hperiod hy
    exact hle.trans candle.low_le_close

/-- A value computed from an enclosed value and its extremes. -/
theorem Enclosed.valuesIn {α : Type} {f : α → Value} {g : α → Value → Value → Value} {D : Set ℚ}
    (hg : ∀ a high low, (∀ x ∈ f a, ∀ y ∈ high, x ≤ y) → (∀ x ∈ f a, ∀ y ∈ low, y ≤ x) →
      ∀ z ∈ g a high low, z ∈ D) {xs : List α} {highs lows : List Value}
    (h : Enclosed f xs highs lows) : ValuesIn D (List.zipWith3 g xs highs lows) := by
  induction h with
  | nil => intro _ hmem; simp [List.zipWith3] at hmem
  | cons hhigh hlow h ih =>
    intro value hvalue z hz
    rcases List.mem_cons.1 hvalue with rfl | hvalue
    · exact hg _ _ _ hhigh hlow z hz
    · exact ih value hvalue z hz

/-! ### Stochastic -/

theorem stochasticK_mem {previousK close high low : ℚ}
    (hprevious : previousK ∈ Set.Icc (0 : ℚ) 100) (hhigh : close ≤ high) (hlow : low ≤ close) :
    stochasticK previousK close high low ∈ Set.Icc (0 : ℚ) 100 := by
  rw [stochasticK, safeDivide]
  split
  · exact hprevious
  · have hrange : 0 ≤ high - low := by linarith
    rw [mul_div_assoc]
    exact hundred_mul_mem ⟨div_nonneg (by linarith) hrange,
      div_le_one_of_le₀ (by linarith) hrange⟩

theorem stochasticLoop_mem {candles : List Candle} {highs lows : List Value}
    (h : Enclosed (fun candle : Candle => some candle.close) candles highs lows) {previousK : ℚ}
    (hprevious : previousK ∈ Set.Icc (0 : ℚ) 100) :
    ValuesIn (Set.Icc 0 100) (stochasticLoop previousK candles highs lows) := by
  induction h generalizing previousK with
  | nil => intro _ hmem; simp [stochasticLoop] at hmem
  | @cons candle high low _ _ _ hhigh hlow h ih =>
    intro value hvalue x hx
    rcases high with _ | high
    · rcases List.mem_cons.1 hvalue with rfl | hvalue
      · cases hx
      · exact ih hprevious value hvalue x hx
    rcases low with _ | low
    · rcases List.mem_cons.1 hvalue with rfl | hvalue
      · cases hx
      · exact ih hprevious value hvalue x hx
    have hK := stochasticK_mem hprevious (hhigh _ rfl high rfl) (hlow _ rfl low rfl)
    rcases List.mem_cons.1 hvalue with rfl | hvalue
    · obtain rfl := Option.some.inj hx
      exact hK
    · exact ih hK value hvalue x hx

/-- Both stochastic lines are in their range. -/
def StochasticBounded (row : StochasticValue) : Prop :=
  (∀ x ∈ row.percentK, x ∈ Set.Icc (0 : ℚ) 100) ∧ ∀ x ∈ row.percentD, x ∈ Set.Icc (0 : ℚ) 100

/-- Rows made of an entry of each of two series. -/
theorem forall_mem_zipWith {α β γ : Type} {mk : α → β → γ} {R : γ → Prop} {xs : List α}
    {ys : List β} (h : ∀ x ∈ xs, ∀ y ∈ ys, R (mk x y)) : ∀ row ∈ List.zipWith mk xs ys, R row := by
  intro row hrow
  obtain ⟨i, hi, rfl⟩ := List.getElem_of_mem hrow
  rw [List.getElem_zipWith]
  exact h _ (List.getElem_mem _) _ (List.getElem_mem _)

theorem stochasticBounded_zipWith {percentK percentD : List Value}
    (hK : ValuesIn (Set.Icc 0 100) percentK) (hD : ValuesIn (Set.Icc 0 100) percentD) :
    ∀ row ∈ List.zipWith StochasticValue.mk percentK percentD, StochasticBounded row :=
  forall_mem_zipWith fun k hk d hd => ⟨hK k hk, hD d hd⟩

theorem stochastic_bounded {period smoothPeriod : ℕ} (hperiod : 0 < period)
    (hsmooth : 0 < smoothPeriod) (candles : List Candle) :
    ∀ row ∈ stochastic candles period smoothPeriod, StochasticBounded row := by
  have hfifty : (50 : ℚ) ∈ Set.Icc (0 : ℚ) 100 := ⟨by norm_num, by norm_num⟩
  have hK := stochasticLoop_mem (enclosed_candles hperiod candles) hfifty
  exact stochasticBounded_zipWith hK (ValuesIn.sma (convex_Icc 0 100) hK hsmooth)

/-- What a stochastic state remembers: windows of the candles seen, an average of values in range,
a last line in range. -/
structure StochasticState.Bounded (period smoothPeriod : ℕ) (state : StochasticState) :
    Prop where
  highest : ∃ seen, state.highest = final (RollingExtremeState.update period true) .new seen
  lowest : ∃ seen, state.lowest = final (RollingExtremeState.update period false) .new seen
  smoothed : ∃ fed, ValuesIn (Set.Icc 0 100) fed ∧
    state.smoothed = final (SmaState.update smoothPeriod) .new fed
  previousK : state.previousK ∈ Set.Icc (0 : ℚ) 100

/-- An extreme of a window is at least as extreme as the value that enters it. -/
theorem extreme_update_atLeast {period : ℕ} (hperiod : 0 < period) {highest : Bool}
    {state : RollingExtremeState}
    (h : ∃ seen, state = final (RollingExtremeState.update period highest) .new seen) {x y : ℚ}
    (hy : (RollingExtremeState.update period highest state (some x)).2 = some y) :
    AtLeast highest y x := by
  obtain ⟨seen, rfl⟩ := h
  rw [snd_update_final (outputs_rollingExtremeState hperiod highest)] at hy
  exact windowExtreme_atLeast hperiod hy

theorem exists_final {σ α β : Type} {update : σ → α → σ × β} {new state : σ}
    (h : ∃ seen, state = final update new seen) (x : α) :
    ∃ seen, (update state x).1 = final update new seen := by
  obtain ⟨seen, rfl⟩ := h
  exact ⟨seen ++ [x], (final_concat update new seen x).symm⟩

/-- One candle keeps the state in range and gives lines in range. -/
theorem StochasticState.Bounded.step {period smoothPeriod : ℕ} (hperiod : 0 < period)
    (hsmooth : 0 < smoothPeriod) {state : StochasticState}
    (h : state.Bounded period smoothPeriod) (candle : Candle) :
    (update period smoothPeriod state candle).1.Bounded period smoothPeriod ∧
      StochasticBounded (update period smoothPeriod state candle).2 := by
  have hhighest := exists_final h.highest (some candle.high)
  have hlowest := exists_final h.lowest (some candle.low)
  obtain ⟨fed, hfed, hsmoothed⟩ := h.smoothed
  -- while a window is incomplete nothing is fed to the average
  have hwait : Bounded period smoothPeriod
      ⟨(RollingExtremeState.update period true state.highest (some candle.high)).1,
        (RollingExtremeState.update period false state.lowest (some candle.low)).1,
        state.smoothed, state.previousK, ⟨NAN, NAN⟩⟩ :=
    ⟨hhighest, hlowest, ⟨fed, hfed, hsmoothed⟩, h.previousK⟩
  rw [update]
  cases hhigh : (RollingExtremeState.update period true state.highest (some candle.high)).2 with
  | none => exact ⟨hwait, by simp [StochasticBounded]⟩
  | some high =>
    cases hlow : (RollingExtremeState.update period false state.lowest (some candle.low)).2 with
    | none => exact ⟨hwait, by simp [StochasticBounded]⟩
    | some low =>
      have hle : candle.high ≤ high := extreme_update_atLeast hperiod h.highest hhigh
      have hge : low ≤ candle.low := extreme_update_atLeast hperiod h.lowest hlow
      -- the close lies between the extremes, so the line is in range
      have hK := stochasticK_mem h.previousK (candle.close_le_high.trans hle)
        (hge.trans candle.low_le_close)
      set currentK := stochasticK state.previousK candle.close high low with hcurrent
      have hfed' : ValuesIn (Set.Icc 0 100) (fed ++ [some currentK]) := by
        intro value hvalue x hx
        rcases List.mem_append.1 hvalue with hvalue | hvalue
        · exact hfed value hvalue x hx
        · rw [List.mem_singleton.1 hvalue] at hx
          obtain rfl := Option.some.inj hx
          exact hK
      -- and so is any average of lines
      have hD := ValuesIn.sma (convex_Icc (0 : ℚ) 100) hfed' hsmooth
      rw [← outputs_sma, outputs_concat, ← hsmoothed] at hD
      refine ⟨⟨hhighest, hlowest, ⟨fed ++ [some currentK], hfed', ?_⟩, hK⟩, ?_, ?_⟩
      · rw [final_concat, ← hsmoothed]
      · intro x hx
        obtain rfl := Option.some.inj hx
        exact hK
      · exact hD _ (List.mem_append_right _ (List.mem_singleton.2 rfl))

theorem StochasticState.bounded {period smoothPeriod : ℕ} (hperiod : 0 < period)
    (hsmooth : 0 < smoothPeriod) (candles : List Candle) :
    ∀ row ∈ outputs (update period smoothPeriod) new candles, StochasticBounded row :=
  forall_mem_outputs (Bounded period smoothPeriod) (fun _ => True) _
    (fun _ candle hstate _ => hstate.step hperiod hsmooth candle)
    ⟨⟨[], rfl⟩, ⟨[], rfl⟩, ⟨[], by simp [ValuesIn, RowsIn], rfl⟩, by norm_num [new]⟩
    (fun _ _ => trivial)

/-! ### Stochastic relative strength, Williams -/

theorem rawStochastic_mem {value high low : Value} (hhigh : ∀ x ∈ value, ∀ y ∈ high, x ≤ y)
    (hlow : ∀ x ∈ value, ∀ y ∈ low, y ≤ x) :
    ∀ z ∈ rawStochastic value high low, z ∈ Set.Icc (0 : ℚ) 100 := by
  rcases value with _ | value
  · intro z hz; cases hz
  rcases high with _ | high
  · intro z hz; cases hz
  rcases low with _ | low
  · intro z hz; cases hz
  intro z hz
  obtain rfl := Option.some.inj hz
  have hle := hhigh value rfl high rfl
  have hge := hlow value rfl low rfl
  exact hundred_mul_mem (safeDivide_mem_unit (by linarith) (by linarith) (by norm_num))

theorem stochasticRsi_bounded (p : StochasticRsiParameters) (candles : List Candle) :
    ∀ row ∈ stochasticRsi p candles, StochasticBounded row := by
  have hraw := (enclosed_values p.stochastic_pos (rsi candles p.rsiPeriod)).valuesIn
    (g := rawStochastic) (D := Set.Icc 0 100) fun _ _ _ => rawStochastic_mem
  have hK := ValuesIn.sma (convex_Icc 0 100) hraw p.smoothK_pos
  exact stochasticBounded_zipWith hK (ValuesIn.sma (convex_Icc 0 100) hK p.smoothD_pos)

theorem williamsR_mem {period : ℕ} (hperiod : 0 < period) (candles : List Candle) :
    ValuesIn (Set.Icc (-100) 0) (williamsR candles period) := by
  refine (enclosed_candles hperiod candles).valuesIn ?_
  rintro candle (_ | high) (_ | low) hhigh hlow z hz
  · cases hz
  · cases hz
  · cases hz
  obtain rfl := Option.some.inj hz
  have hle := hhigh candle.close rfl high rfl
  have hge := hlow candle.close rfl low rfl
  have hunit : 0 ≤ safeDivide (high - candle.close) (high - low) (1 / 2) ∧
      safeDivide (high - candle.close) (high - low) (1 / 2) ≤ 1 :=
    safeDivide_mem_unit (by linarith) (by linarith) (by norm_num)
  constructor <;> linarith [hunit.1, hunit.2]

/-! ### Chande and the momentum indices -/

theorem contrast_mem {up down : ℚ} (hup : 0 ≤ up) (hdown : 0 ≤ down) :
    100 * safeDivide (up - down) (up + down) 0 ∈ Set.Icc (-100 : ℚ) 100 :=
  hundred_mul_abs_mem (abs_safeDivide_le (abs_le.2 ⟨by linarith, by linarith⟩))

theorem cmo_mem {period : ℕ} (hperiod : 0 < period) (candles : List Candle) :
    ValuesIn (Set.Icc (-100) 100) (cmo candles period) := by
  obtain ⟨averages, haverages, hcomponent⟩ := sma_rows convex_nonneg
    (rowsIn_neighbours gainLoss_mem (closePrices candles)) hperiod
  rw [cmo, changesOf_gain, changesOf_loss, hcomponent, hcomponent]
  exact valuesIn_both haverages fun x hx => contrast_mem hx.1 hx.2

/-- A doubly smoothed value stays below its doubly smoothed bound. -/
theorem percentOf_mem {rows : List (Option (ℚ × ℚ))} (hrows : RowsIn Dominated rows)
    {longPeriod shortPeriod : ℕ} (hlong : 0 < longPeriod) (hshort : 0 < shortPeriod) :
    ValuesIn (Set.Icc (-100) 100) (List.zipWith percentOf
      (ema (ema (component first rows) longPeriod) shortPeriod)
      (ema (ema (component second rows) longPeriod) shortPeriod)) := by
  obtain ⟨averages, haverages, hlongRows⟩ := ema_rows convex_dominated hrows hlong
  obtain ⟨smoothed, hsmoothed, hshortRows⟩ := ema_rows convex_dominated haverages hshort
  rw [hlongRows, hlongRows, hshortRows, hshortRows]
  exact valuesIn_both hsmoothed fun x hx => hundred_mul_abs_mem (abs_safeDivide_le hx)

/-- A change and its size. -/
def changeSize (previous current : ℚ) : ℚ × ℚ := (current - previous, |current - previous|)

theorem changeSize_mem (previous current : ℚ) : changeSize previous current ∈ Dominated :=
  le_refl |current - previous|

theorem tsi_mem {longPeriod shortPeriod : ℕ} (hlong : 0 < longPeriod) (hshort : 0 < shortPeriod)
    (candles : List Candle) :
    ValuesIn (Set.Icc (-100) 100) (tsi candles longPeriod shortPeriod) := by
  have hchanges : changesOf id (closePrices candles) =
      component first (neighbours changeSize (closePrices candles)) :=
    (component_neighbours first changeSize _).symm
  have hsizes : (changesOf id (closePrices candles)).map (Option.map fun change => |change|) =
      component second (neighbours changeSize (closePrices candles)) := by
    rw [component_neighbours, changesOf, List.map_cons, List.map_zipWith]
    rfl
  rw [tsi, hsizes, hchanges]
  exact percentOf_mem (rowsIn_neighbours changeSize_mem _) hlong hshort

/-- Distance from the middle of a window and half its range. -/
def distanceRange (candle : Candle) (high low : Value) : Option (ℚ × ℚ) :=
  match high, low with
  | some high, some low => some (candle.close - (high + low) / 2, (high - low) / 2)
  | _, _ => none

/-- The rows of distances and ranges. -/
theorem exists_distanceRange {candles : List Candle} {highs lows : List Value}
    (h : Enclosed (fun candle : Candle => some candle.close) candles highs lows) :
    RowsIn Dominated (List.zipWith3 distanceRange candles highs lows) ∧
      component first (List.zipWith3 distanceRange candles highs lows) =
        List.zipWith3 distance candles highs lows ∧
      component second (List.zipWith3 distanceRange candles highs lows) =
        List.zipWith halfRange highs lows := by
  induction h with
  | nil => exact ⟨by simp [RowsIn, List.zipWith3], rfl, rfl⟩
  | @cons candle high low _ _ _ hhigh hlow h ih =>
    obtain ⟨hrows, hfirst, hsecond⟩ := ih
    refine ⟨?_, ?_, ?_⟩
    · intro row hrow x hx
      rcases List.mem_cons.1 hrow with rfl | hrow
      · rcases high with _ | high
        · cases hx
        rcases low with _ | low
        · cases hx
        obtain rfl := Option.some.inj hx
        have hle := hhigh _ rfl high rfl
        have hge := hlow _ rfl low rfl
        -- a close between the extremes is within half the range of their middle
        have hsize : |candle.close - (high + low) / 2| ≤ (high - low) / 2 :=
          abs_le.2 ⟨by linarith, by linarith⟩
        exact hsize
      · exact hrows row hrow x hx
    · refine congrArg₂ List.cons ?_ hfirst
      rcases high with _ | high <;> rcases low with _ | low <;> rfl
    · refine congrArg₂ List.cons ?_ hsecond
      rcases high with _ | high <;> rcases low with _ | low <;> rfl

/-- The momentum index and its signal are in range. -/
def SmiBounded (row : SmiValue) : Prop :=
  (∀ x ∈ row.smi, x ∈ Set.Icc (-100 : ℚ) 100) ∧ ∀ x ∈ row.signal, x ∈ Set.Icc (-100 : ℚ) 100

theorem smi_bounded (p : SmiParameters) (candles : List Candle) :
    ∀ row ∈ smi p candles, SmiBounded row := by
  obtain ⟨hrows, hfirst, hsecond⟩ := exists_distanceRange (enclosed_candles p.period_pos candles)
  have hline := percentOf_mem hrows p.long_pos p.short_pos
  rw [hfirst, hsecond] at hline
  have hsignal := ValuesIn.ema (convex_Icc (-100 : ℚ) 100) hline p.signal_pos
  exact forall_mem_zipWith fun line hmem signal hmem' => ⟨hline line hmem, hsignal signal hmem'⟩

/-! ### The ultimate oscillator -/

theorem buying_mem (previous current : Candle) : buying previous.close current ∈ PartOf := by
  have hlow : min current.low previous.close ≤ current.close :=
    (min_le_left _ _).trans current.low_le_close
  have hhigh : current.close ≤ max current.high previous.close :=
    current.close_le_high.trans (le_max_left _ _)
  exact ⟨by simp only [buying]; linarith, by simp only [buying]; linarith⟩

theorem ultimateOscillator_mem (p : UltimateParameters) (candles : List Candle) :
    ValuesIn (Set.Icc 0 100) (ultimateOscillator p candles) := by
  set rows := neighbours (fun previous current : Candle => buying previous.close current) candles
    with hrows
  have hmem : RowsIn PartOf rows := rowsIn_neighbours buying_mem candles
  have hshare {period : ℕ} (hperiod : 0 < period) : ValuesIn (Set.Icc 0 1)
      (List.zipWith share (sma (component first rows) period)
        (sma (component second rows) period)) := by
    obtain ⟨averages, haverages, hcomponent⟩ := sma_rows convex_partOf hmem hperiod
    rw [hcomponent, hcomponent]
    exact valuesIn_both haverages fun x hx => safeDivide_mem_unit hx.1 hx.2 (by norm_num)
  rw [hrows, component_neighbours, component_neighbours] at hshare
  refine valuesIn_zipWith3 ?_ (hshare p.short_pos) (hshare p.medium_pos) (hshare p.long_pos)
  rintro (_ | x) (_ | y) (_ | z) hx hy hz a ha <;> try cases ha
  have hx' := hx x rfl
  have hy' := hy y rfl
  have hz' := hz z rfl
  simp only [Set.mem_Icc] at *
  constructor <;> linarith

/-! ### Money flow -/

theorem abs_moneyFlowVolume_le (candle : Candle) : |moneyFlowVolume candle| ≤ candle.volume := by
  have hlow := candle.low_le_close
  have hhigh := candle.close_le_high
  have hratio : |safeDivide ((candle.close - candle.low) - (candle.high - candle.close))
      (candle.high - candle.low) 0| ≤ 1 :=
    abs_safeDivide_le (abs_le.2 ⟨by linarith, by linarith⟩)
  rw [moneyFlowVolume, abs_mul, abs_of_nonneg candle.volume_nonneg]
  exact mul_le_of_le_one_left candle.volume_nonneg hratio

theorem abs_sum_moneyFlow_le (candles : List Candle) :
    |(candles.map moneyFlowVolume).sum| ≤ (candles.map Candle.volume).sum := by
  induction candles with
  | nil => simp
  | cons candle candles ih =>
    rw [List.map_cons, List.map_cons, List.sum_cons, List.sum_cons]
    exact (abs_add_le _ _).trans (add_le_add (abs_moneyFlowVolume_le candle) ih)

theorem push_map {α β : Type} (f : α → β) (length : ℕ) (queue : List α) (x : α) :
    push length (queue.map f) (f x) = (push length queue x).map f := by
  simp only [push, List.length_append, List.length_map, List.length_singleton]
  split <;> simp

theorem abs_safeDivide_mem {a b : ℚ} (h : |a| ≤ b) : safeDivide a b 0 ∈ Set.Icc (-1 : ℚ) 1 :=
  abs_le.1 (abs_safeDivide_le h)

theorem cmf_mem (candles : List Candle) (period : ℕ) :
    ValuesIn (Set.Icc (-1) 1) (cmf candles period) := by
  suffices h : ∀ held : List Candle, ValuesIn (Set.Icc (-1) 1) (cmfLoop period
      (held.map moneyFlowVolume) (held.map Candle.volume) candles) from h []
  induction candles with
  | nil => intro held value hvalue; simp [cmfLoop] at hvalue
  | cons candle candles ih =>
    intro held value hvalue x hx
    rw [cmfLoop, push_map, push_map] at hvalue
    rcases List.mem_cons.1 hvalue with rfl | hvalue
    · split at hx
      · cases hx
      · obtain rfl := Option.some.inj hx
        exact abs_safeDivide_mem (abs_sum_moneyFlow_le _)
    · exact ih _ value hvalue x hx

/-- The state divides the two averages. -/
theorem CMFState.bounded {period : ℕ} (hperiod : 0 < period) (candles : List Candle) :
    ValuesIn (Set.Icc (-1) 1) (outputs (update period) new candles) := by
  have hrows : RowsIn Dominated (candles.map fun candle =>
      some (moneyFlowVolume candle, candle.volume)) := by
    intro row hrow x hx
    obtain ⟨candle, -, rfl⟩ := List.mem_map.1 hrow
    obtain rfl := Option.some.inj hx
    exact abs_moneyFlowVolume_le candle
  obtain ⟨averages, haverages, hcomponent⟩ := sma_rows convex_dominated hrows hperiod
  have hfirst := hcomponent first
  have hsecond := hcomponent second
  simp only [component, List.map_map] at hfirst hsecond
  rw [outputs_update, new, outputs_sma, outputs_sma]
  refine (congrArg (ValuesIn _) (congrArg₂ _ hfirst hsecond)).mpr ?_
  exact valuesIn_both haverages fun x hx => abs_safeDivide_mem hx

/-- The two flows of a candle. -/
def flows (previous current : Candle) : ℚ × ℚ :=
  (moneyFlow true previous.typical current, moneyFlow false previous.typical current)

theorem typical_pos (candle : Candle) : 0 < candle.typical := by
  have h := candle.high_pos
  have h' := candle.low_pos
  have h'' := candle.close_pos
  rw [Candle.typical]
  positivity

theorem moneyFlow_nonneg (rising : Bool) (previousPrice : ℚ) (candle : Candle) :
    0 ≤ moneyFlow rising previousPrice candle := by
  have hflow : 0 ≤ candle.typical * candle.volume :=
    mul_nonneg (typical_pos candle).le candle.volume_nonneg
  rw [moneyFlow]
  split_ifs
  exacts [hflow, le_refl _, hflow, le_refl _]

theorem flows_mem (previous current : Candle) : flows previous current ∈ Nonneg :=
  ⟨moneyFlow_nonneg _ _ _, moneyFlow_nonneg _ _ _⟩

theorem moneyFlowIndex_mem {period : ℕ} (hperiod : 0 < period) (candles : List Candle) :
    ValuesIn (Set.Icc 0 100) (moneyFlowIndex candles period) := by
  cases candles with
  | nil => intro value hvalue; simp [moneyFlowIndex, sma, smaLoop] at hvalue
  | cons candle candles =>
    have hmem : RowsIn Nonneg (neighbours flows (candle :: candles)) :=
      rowsIn_neighbours flows_mem _
    obtain ⟨averages, haverages, hcomponent⟩ := sma_rows convex_nonneg hmem hperiod
    have hfirst := hcomponent first
    have hsecond := hcomponent second
    rw [component_neighbours] at hfirst hsecond
    rw [moneyFlowIndex]
    simp only [withPrevious_cons, withPrevious_some]
    refine (congrArg (ValuesIn _) (congrArg₂ _ hfirst hsecond)).mpr ?_
    exact valuesIn_both haverages fun x hx => rsiValue_mem hx.1 hx.2

/-! ### The directional system -/

/-- A range and its two moves, none negative, the moves together within the range. -/
def Directional : Set (ℚ × ℚ × ℚ) := {x | 0 ≤ x.2.1 ∧ 0 ≤ x.2.2 ∧ x.2.1 + x.2.2 ≤ x.1}

/-- The range of a row. -/
abbrev rangeOf : ℚ × ℚ × ℚ →ₗ[ℚ] ℚ := LinearMap.fst ℚ ℚ (ℚ × ℚ)

/-- The rising move of a row. -/
abbrev plusOf : ℚ × ℚ × ℚ →ₗ[ℚ] ℚ := first.comp (LinearMap.snd ℚ ℚ (ℚ × ℚ))

/-- The falling move of a row. -/
abbrev minusOf : ℚ × ℚ × ℚ →ₗ[ℚ] ℚ := second.comp (LinearMap.snd ℚ ℚ (ℚ × ℚ))

theorem convex_directional : Convex ℚ Directional :=
  (convex_le 0 plusOf).inter ((convex_le 0 minusOf).inter (convex_le (plusOf + minusOf) rangeOf))

/-- The range of a candle and its two moves. -/
def rangeMoves (previous current : Candle) : ℚ × ℚ × ℚ :=
  (trueRange (some previous.close) current, directionalMovement previous current)

/-- At most one of the moves counts, and it is within the True Range. -/
theorem rangeMoves_mem (previous current : Candle) : rangeMoves previous current ∈ Directional := by
  have hup := high_sub_le_trueRange previous.close current
  have hdown := sub_low_le_trueRange previous.close current
  have hnonneg := trueRange_nonneg (some previous.close) current
  have hhigh := previous.close_le_high
  have hlow := previous.low_le_close
  have hmem : 0 ≤ (directionalMovement previous current).1 ∧
      0 ≤ (directionalMovement previous current).2 ∧
      (directionalMovement previous current).1 + (directionalMovement previous current).2 ≤
        trueRange (some previous.close) current := by
    -- at most one of the moves counts, and it is part of the true range
    simp only [directionalMovement]
    split_ifs with hplus hminus hminus
    · linarith [hplus.1, hminus.1]
    · exact ⟨hplus.2.le, le_refl _, by linarith⟩
    · exact ⟨le_refl _, hminus.2.le, by linarith⟩
    · exact ⟨le_refl _, le_refl _, by linarith⟩
  exact hmem

/-- The two indicators of a row. -/
def indicators (x : ℚ × ℚ × ℚ) : ℚ × ℚ :=
  (100 * safeDivide x.2.1 x.1 0, 100 * safeDivide x.2.2 x.1 0)

theorem indicators_mem {x : ℚ × ℚ × ℚ} (h : x ∈ Directional) :
    0 ≤ (indicators x).1 ∧ 0 ≤ (indicators x).2 ∧ (indicators x).1 + (indicators x).2 ≤ 100 := by
  obtain ⟨hplus, hminus, hsum⟩ := h
  have hspan : 0 ≤ x.1 := (add_nonneg hplus hminus).trans hsum
  simp only [indicators, safeDivide]
  split
  · norm_num
  · have hshare : x.2.1 / x.1 + x.2.2 / x.1 ≤ 1 := by
      rw [← add_div]
      exact div_le_one_of_le₀ hsum hspan
    have hplus' := div_nonneg hplus hspan
    have hminus' := div_nonneg hminus hspan
    exact ⟨by linarith, by linarith, by linarith⟩

theorem directionalIndex_mem {plus minus : ℚ} (hplus : 0 ≤ plus) (hminus : 0 ≤ minus) :
    directionalIndex plus minus ∈ Set.Icc (0 : ℚ) 100 := by
  have hle : |plus - minus| ≤ plus + minus := abs_le.2 ⟨by linarith, by linarith⟩
  exact hundred_mul_mem (safeDivide_mem_unit (abs_nonneg _) hle (by norm_num))

/-- The bounds of one value of the directional system. -/
structure DmiBounded (row : DmiValue) : Prop where
  plusDi : ∀ x ∈ row.plusDi, 0 ≤ x
  minusDi : ∀ x ∈ row.minusDi, 0 ≤ x
  sum : ∀ x ∈ row.plusDi, ∀ y ∈ row.minusDi, x + y ≤ 100
  adx : ∀ x ∈ row.adx, x ∈ Set.Icc (0 : ℚ) 100
  adxr : ∀ x ∈ row.adxr, x ∈ Set.Icc (0 : ℚ) 100

/-- A value computed from the three components of rows. -/
theorem zipWith3_components (f : Value → Value → Value → Value)
    (hnone : f none none none = none) (g : ℚ × ℚ × ℚ → ℚ)
    (hsome : ∀ x : ℚ × ℚ × ℚ, f (some x.1) (some x.2.1) (some x.2.2) = some (g x))
    (rows : List (Option (ℚ × ℚ × ℚ))) :
    List.zipWith3 f (component rangeOf rows) (component plusOf rows) (component minusOf rows) =
      rows.map (Option.map g) := by
  induction rows with
  | nil => rfl
  | cons row rows ih =>
    refine congrArg₂ List.cons ?_ ih
    cases row with
    | none => exact hnone
    | some x => exact hsome x

theorem dmiBounded_zipWith4 {rows : List (Option (ℚ × ℚ × ℚ))} (hrows : RowsIn Directional rows)
    {average ratings : List Value} (haverage : ValuesIn (Set.Icc 0 100) average)
    (hratings : ValuesIn (Set.Icc 0 100) ratings) :
    ∀ row ∈ List.zipWith4 DmiValue.mk (rows.map (Option.map fun x => (indicators x).1))
      (rows.map (Option.map fun x => (indicators x).2)) average ratings, DmiBounded row := by
  induction rows generalizing average ratings with
  | nil => intro _ hmem; simp [List.zipWith4] at hmem
  | cons row rows ih =>
    rcases average with _ | ⟨adx, average⟩
    · intro _ hmem; simp [List.zipWith4] at hmem
    rcases ratings with _ | ⟨adxr, ratings⟩
    · intro _ hmem; simp [List.zipWith4] at hmem
    intro value hvalue
    rcases List.mem_cons.1 hvalue with rfl | hvalue
    · -- both indicators and their sum are bounded, and so are the two averages
      refine ⟨?_, ?_, ?_, haverage adx (by simp), hratings adxr (by simp)⟩
      · intro x hx
        obtain ⟨y, rfl, rfl⟩ := Option.map_eq_some_iff.1 hx
        exact (indicators_mem (hrows _ (by simp) y rfl)).1
      · intro x hx
        obtain ⟨y, rfl, rfl⟩ := Option.map_eq_some_iff.1 hx
        exact (indicators_mem (hrows _ (by simp) y rfl)).2.1
      · intro x hx x' hx'
        obtain ⟨y, rfl, rfl⟩ := Option.map_eq_some_iff.1 hx
        obtain rfl := Option.some.inj hx'
        exact (indicators_mem (hrows _ (by simp) y rfl)).2.2
    · exact ih (fun r hr => hrows r (by simp [hr])) (fun v hv => haverage v (by simp [hv]))
        (fun v hv => hratings v (by simp [hv])) value hvalue

theorem earlierBy_mem {C : Set ℚ} {average : List Value} (h : ValuesIn C average) (period : ℕ) :
    ValuesIn C (earlierBy period average) := by
  intro value hvalue x hx
  rw [earlierBy, List.mem_map] at hvalue
  obtain ⟨index, hindex, rfl⟩ := hvalue
  split at hx
  · have hlt : index - period < average.length := by
      have := List.mem_range.1 hindex
      omega
    rw [List.getD_eq_getElem?_getD, List.getElem?_eq_getElem hlt, Option.getD_some] at hx
    exact h _ (List.getElem_mem _) x hx
  · cases hx

theorem rating_mem {average earlier : List Value} (h : ValuesIn (Set.Icc 0 100) average)
    (h' : ValuesIn (Set.Icc 0 100) earlier) :
    ValuesIn (Set.Icc 0 100) (List.zipWith rating average earlier) := by
  refine forall_mem_zipWith fun adx hadx before hbefore => ?_
  intro x hx
  obtain ⟨y, z, rfl, rfl, rfl⟩ := both_eq_some.1 hx
  have hy := h _ hadx y rfl
  have hz := h' _ hbefore z rfl
  simp only [Set.mem_Icc] at *
  constructor <;> linarith

theorem dmi_bounded {period : ℕ} (hperiod : 0 < period) (candles : List Candle) :
    ∀ row ∈ dmi candles period, DmiBounded row := by
  -- the three smoothed series are the components of one smoothed triple
  obtain ⟨rows, hrows, hcomponent⟩ := rma_rows convex_directional
    (rowsIn_neighbours rangeMoves_mem candles) hperiod
  have hrange : NAN :: (tr candles).tail.map some =
      component rangeOf (neighbours rangeMoves candles) := by
    rw [component_neighbours]
    cases candles with
    | nil => rfl
    | cons candle candles =>
      rw [tr, withPrevious_cons, withPrevious_some, List.tail_cons, List.map_zipWith]
      rfl
  have hplus : moves (fun previous current => (directionalMovement previous current).1) candles =
      component plusOf (neighbours rangeMoves candles) :=
    (component_neighbours plusOf rangeMoves candles).symm
  have hminus : moves (fun previous current => (directionalMovement previous current).2) candles =
      component minusOf (neighbours rangeMoves candles) :=
    (component_neighbours minusOf rangeMoves candles).symm
  rw [dmi]
  simp only [hrange, hplus, hminus, hcomponent]
  rw [zipWith3_components _ rfl (fun x => (indicators x).1) fun _ => rfl,
    zipWith3_components _ rfl (fun x => (indicators x).2) fun _ => rfl,
    zipWith3_components directional rfl
      (fun x => directionalIndex (indicators x).1 (indicators x).2) fun _ => rfl]
  -- the contrast of two indicators, wherever they are defined
  have hdirectional : ValuesIn (Set.Icc 0 100)
      (rows.map (Option.map fun x => directionalIndex (indicators x).1 (indicators x).2)) := by
    intro value hvalue x hx
    obtain ⟨row, hrow, rfl⟩ := List.mem_map.1 hvalue
    obtain ⟨y, rfl, rfl⟩ := Option.map_eq_some_iff.1 hx
    have hy := indicators_mem (hrows _ hrow y rfl)
    exact directionalIndex_mem hy.1 hy.2.1
  have haverage := ValuesIn.rma (convex_Icc (0 : ℚ) 100) hdirectional hperiod
  exact dmiBounded_zipWith4 hrows haverage (rating_mem haverage (earlierBy_mem haverage period))

/-! ### All the oscillators -/

/-- The parameters of the oscillators. -/
structure OscillatorParameters where
  rsi : ℕ
  stochastic : ℕ
  stochasticSmooth : ℕ
  stochasticRsi : StochasticRsiParameters
  ultimate : UltimateParameters
  moneyFlow : ℕ
  dmi : ℕ
  connors : ConnorsParameters
  williams : ℕ
  cmo : ℕ
  tsiLong : ℕ
  tsiShort : ℕ
  smi : SmiParameters
  cmf : ℕ
  rsi_pos : 0 < rsi
  stochastic_pos : 0 < stochastic
  stochasticSmooth_pos : 0 < stochasticSmooth
  moneyFlow_pos : 0 < moneyFlow
  dmi_pos : 0 < dmi
  williams_pos : 0 < williams
  cmo_pos : 0 < cmo
  tsiLong_pos : 0 < tsiLong
  tsiShort_pos : 0 < tsiShort
  cmf_pos : 0 < cmf

/-- What holds of the batch series and of what a state gives, fed candle by candle. -/
def BothForms {α : Type} (P : List α → Prop) (batch streamed : List α) : Prop :=
  P batch ∧ P streamed

/-- A state that gives the batch series of at least one candle has its bounds. -/
theorem BothForms.of_parity {α : Type} {R : α → Prop} {σ : Type}
    {update : σ → Candle → σ × α} {new : σ} {batch : List α} {candles : List Candle}
    (h : ∀ x ∈ batch, R x) (hparity : candles ≠ [] → outputs update new candles = batch) :
    BothForms (fun series => ∀ x ∈ series, R x) batch (outputs update new candles) := by
  refine ⟨h, ?_⟩
  by_cases hempty : candles = []
  · simp [hempty]
  · rwa [hparity hempty]

/-- The bounds of the oscillators over some candles. -/
structure OscillatorsBounded (p : OscillatorParameters) (candles : List Candle) : Prop where
  rsi : BothForms (ValuesIn (Set.Icc 0 100)) (Indicators.rsi candles p.rsi)
    (outputs (RSIState.update p.rsi) .new candles)
  stochastic : BothForms (fun rows => ∀ row ∈ rows, StochasticBounded row)
    (Indicators.stochastic candles p.stochastic p.stochasticSmooth)
    (outputs (StochasticState.update p.stochastic p.stochasticSmooth) .new candles)
  stochasticRsi : BothForms (fun rows => ∀ row ∈ rows, StochasticBounded row)
    (Indicators.stochasticRsi p.stochasticRsi candles)
    (outputs (StochasticRSIState.update p.stochasticRsi) .new candles)
  ultimate : BothForms (ValuesIn (Set.Icc 0 100)) (ultimateOscillator p.ultimate candles)
    (outputs (UltimateOscillatorState.update p.ultimate) .new candles)
  moneyFlow : BothForms (ValuesIn (Set.Icc 0 100)) (moneyFlowIndex candles p.moneyFlow)
    (outputs (MoneyFlowIndexState.update p.moneyFlow) .new candles)
  dmi : BothForms (fun rows => ∀ row ∈ rows, DmiBounded row) (Indicators.dmi candles p.dmi)
    (outputs (DMIState.update p.dmi) .new candles)
  connors : BothForms (ValuesIn (Set.Icc 0 100)) (connorsRsi p.connors candles)
    (outputs (ConnorsRSIState.update p.connors) .new candles)
  williams : BothForms (ValuesIn (Set.Icc (-100) 0)) (williamsR candles p.williams)
    (outputs (WilliamsRState.update p.williams) .new candles)
  cmo : BothForms (ValuesIn (Set.Icc (-100) 100)) (Indicators.cmo candles p.cmo)
    (outputs (CMOState.update p.cmo) .new candles)
  tsi : BothForms (ValuesIn (Set.Icc (-100) 100)) (Indicators.tsi candles p.tsiLong p.tsiShort)
    (outputs (TSIState.update p.tsiLong p.tsiShort) .new candles)
  smi : BothForms (fun rows => ∀ row ∈ rows, SmiBounded row) (Indicators.smi p.smi candles)
    (outputs (SMIState.update p.smi) .new candles)
  cmf : BothForms (ValuesIn (Set.Icc (-1) 1)) (Indicators.cmf candles p.cmf)
    (outputs (CMFState.update p.cmf) .new candles)

/-- **The oscillators are bounded.** For all parameters and over any candles, whatever windows
without movement, range or volume these hold, every defined value of the batch series and of the
states is in its range. -/
theorem oscillators_bounded (p : OscillatorParameters) (candles : List Candle) :
    OscillatorsBounded p candles where
  -- where the stream repeats the batch, its bound is the bound of the batch
  rsi := .of_parity (rsiFromValues_mem p.rsi_pos _) fun h => by
    rw [RSIState.outputs_update]
    exact RSIValueState.outputs_rsi p.rsi_pos (by simpa [closePrices] using h)
  stochastic := ⟨stochastic_bounded p.stochastic_pos p.stochasticSmooth_pos candles,
    StochasticState.bounded p.stochastic_pos p.stochasticSmooth_pos candles⟩
  stochasticRsi := .of_parity (stochasticRsi_bounded p.stochasticRsi candles) fun h =>
    StochasticRSIState.outputs_stochasticRsi p.stochasticRsi h
  ultimate := .of_parity (ultimateOscillator_mem p.ultimate candles) fun h =>
    UltimateOscillatorState.outputs_ultimate p.ultimate h
  moneyFlow := .of_parity (moneyFlowIndex_mem p.moneyFlow_pos candles) fun _ =>
    MoneyFlowIndexState.outputs_moneyFlow p.moneyFlow candles
  dmi := .of_parity (dmi_bounded p.dmi_pos candles) fun h => DMIState.outputs_dmi p.dmi_pos h
  connors := .of_parity (connorsRsi_mem p.connors candles) fun h =>
    ConnorsRSIState.outputs_connors p.connors h
  williams := .of_parity (williamsR_mem p.williams_pos candles) fun _ =>
    WilliamsRState.outputs_williamsR p.williams_pos candles
  cmo := .of_parity (cmo_mem p.cmo_pos candles) fun h => CMOState.outputs_cmo p.cmo_pos h
  tsi := .of_parity (tsi_mem p.tsiLong_pos p.tsiShort_pos candles) fun h =>
    TSIState.outputs_tsi p.tsiLong_pos p.tsiShort_pos h
  smi := .of_parity (smi_bounded p.smi candles) fun _ => SMIState.outputs_smi p.smi candles
  cmf := ⟨cmf_mem candles p.cmf, CMFState.bounded p.cmf_pos candles⟩

end Indicators
end TradingSystem
