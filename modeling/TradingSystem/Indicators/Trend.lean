import TradingSystem.Indicators.WarmUp
import TradingSystem.Numeric.Binary64

/-!
# Averages of averages

The trend states that chain, window or delay the primitives: `DEMAState`, `TEMAState`, `T3State`,
`HMAState`, `ZLEMAState`, `TRIMAState` and `VIDYAState`. For each, where its outputs begin.

* `finals` — the states of a chain of averages after a run, each fed the outputs of the one before.
* `T3State.shownFrom`, `VIDYAState.rowsFrom` and the others — the place.
-/

namespace TradingSystem
namespace Indicators

open Streaming Numeric

/-! ### Double and triple averages -/

/-- `2 * first - second`, undefined where either is. -/
def doubled (first second : Value) : Value := both (fun x y => 2 * x - y) first second

structure DEMAState where
  first : RecursiveAverageState
  second : RecursiveAverageState

namespace DEMAState

/-- A state that has seen nothing. -/
def new : DEMAState := ⟨.new, .new⟩

def update (period : ℕ) (state : DEMAState) (candle : Candle) : DEMAState × Value :=
  let first := EmaState.update period state.first (some candle.close)
  let second := EmaState.update period state.second first.2
  (⟨first.1, second.1⟩, doubled first.2 second.2)

def current (state : DEMAState) : Value := doubled state.first.current state.second.current

theorem outputs_update (period : ℕ) (state : DEMAState) (candles : List Candle) :
    outputs (update period) state candles =
      let first := outputs (EmaState.update period) state.first (closes candles)
      List.zipWith doubled first (outputs (EmaState.update period) state.second first) := by
  induction candles generalizing state with
  | nil => rfl
  | cons candle candles ih =>
    rw [outputs_cons, ih]
    rfl

theorem final_update (period : ℕ) (state : DEMAState) (candles : List Candle) :
    final (update period) state candles =
      ⟨final (EmaState.update period) state.first (closes candles),
        final (EmaState.update period) state.second
          (outputs (EmaState.update period) state.first (closes candles))⟩ := by
  induction candles generalizing state with
  | nil => rfl
  | cons candle candles ih =>
    rw [final_cons, ih]
    rfl

end DEMAState

/-- `_combine`. -/
def tripled (first second third : Value) : Value :=
  match first, second, third with
  | some x, some y, some z => some (3 * x - 3 * y + z)
  | _, _, _ => NAN

structure TEMAState where
  first : RecursiveAverageState
  second : RecursiveAverageState
  third : RecursiveAverageState

namespace TEMAState

/-- A state that has seen nothing. -/
def new : TEMAState := ⟨.new, .new, .new⟩

def update (period : ℕ) (state : TEMAState) (candle : Candle) : TEMAState × Value :=
  let first := EmaState.update period state.first (some candle.close)
  let second := EmaState.update period state.second first.2
  let third := EmaState.update period state.third second.2
  (⟨first.1, second.1, third.1⟩, tripled first.2 second.2 third.2)

def current (state : TEMAState) : Value :=
  tripled state.first.current state.second.current state.third.current

theorem outputs_update (period : ℕ) (state : TEMAState) (candles : List Candle) :
    outputs (update period) state candles =
      let first := outputs (EmaState.update period) state.first (closes candles)
      let second := outputs (EmaState.update period) state.second first
      List.zipWith3 tripled first second
        (outputs (EmaState.update period) state.third second) := by
  induction candles generalizing state with
  | nil => rfl
  | cons candle candles ih =>
    rw [outputs_cons, ih]
    rfl

theorem final_update (period : ℕ) (state : TEMAState) (candles : List Candle) :
    final (update period) state candles =
      let first := outputs (EmaState.update period) state.first (closes candles)
      let second := outputs (EmaState.update period) state.second first
      ⟨final (EmaState.update period) state.first (closes candles),
        final (EmaState.update period) state.second first,
        final (EmaState.update period) state.third second⟩ := by
  induction candles generalizing state with
  | nil => rfl
  | cons candle candles ih =>
    rw [final_cons, ih]
    rfl

end TEMAState

/-! ### Chains -/

/-- Feed a value to the first average of a chain and every output to the next one. -/
def chainUpdate (period : ℕ) : List RecursiveAverageState → Value → List RecursiveAverageState
  | [], _ => []
  | state :: chain, value =>
    (EmaState.update period state value).1 ::
      chainUpdate period chain (EmaState.update period state value).2

/-- The states of a chain after a run. -/
def finals (period : ℕ) : List RecursiveAverageState → List Value → List RecursiveAverageState
  | [], _ => []
  | state :: chain, values =>
    final (EmaState.update period) state values ::
      finals period chain (outputs (EmaState.update period) state values)

theorem finals_nil (period : ℕ) (chain : List RecursiveAverageState) :
    finals period chain [] = chain := by
  induction chain with
  | nil => rfl
  | cons state chain ih => rw [finals, outputs_nil, ih, final_nil]

theorem finals_cons (period : ℕ) (chain : List RecursiveAverageState) (value : Value)
    (values : List Value) :
    finals period chain (value :: values) =
      finals period (chainUpdate period chain value) values := by
  induction chain generalizing value values with
  | nil => rfl
  | cons state chain ih =>
    rw [finals, outputs_cons, ih]
    rfl

/-- Every average of a chain begins `period - 1` places after the one before it. -/
theorem finals_replicate {period start : ℕ} (hperiod : 0 < period) {values : List Value}
    (h : DefinedFrom start values) (stages : ℕ) :
    ∀ stage (_ : stage < stages), ∃ state,
      (finals period (List.replicate stages .new) values)[stage]? = some state ∧
        (state.warmedUp ↔ start + (stage + 1) * (period - 1) < values.length) := by
  induction stages generalizing start values with
  | zero => exact fun stage hstage => absurd hstage (Nat.not_lt_zero stage)
  | succ stages ih =>
    have hfirst := definedFrom_ema hperiod h
    intro stage hstage
    rw [List.replicate_succ, finals]
    cases stage with
    | zero => exact ⟨_, rfl, by rw [ema_warmedUp hfirst]; simp⟩
    | succ stage =>
      obtain ⟨state, hget, hwarm⟩ := ih hfirst stage (by omega)
      have hplaces : period - 1 + (stage + 1) * (period - 1) = (stage + 1 + 1) * (period - 1) := by
        rw [Nat.succ_mul (stage + 1), Nat.add_comm]
      exact ⟨state, hget, by rw [hwarm, length_outputs, Nat.add_assoc, hplaces]⟩

def t3Stages : ℕ := 6

/-- A double that may have left the range: `none` is an infinity, or the NaN that arithmetic makes
of one. -/
abbrev Double := Option Binary64

namespace Double

/-- What an operation returns: its rounded result, where that is below `2 ^ 1024`. -/
def ofRat (x : ℚ) : Double :=
  if |binary64.round x| < 2 ^ 1024 then some (.ofRat x) else none

/-- A sum, and below it the other operations: nothing comes back from an infinity. -/
def add (x y : Double) : Double := x.bind fun x => y.bind fun y => ofRat (x.val + y.val)

def sub (x y : Double) : Double := x.bind fun x => y.bind fun y => ofRat (x.val - y.val)

def mul (x y : Double) : Double := x.bind fun x => y.bind fun y => ofRat (x.val * y.val)

def neg (x : Double) : Double := x.bind fun x => ofRat (-x.val)

end Double

/-- `_t3_coefficients`, in double precision and from left to right. -/
def t3Coefficients (volumeFactor : Double) : Double × Double × Double × Double :=
  let squared := volumeFactor.mul volumeFactor
  let cubed := squared.mul volumeFactor
  (cubed.neg,
    ((Double.ofRat 3).mul squared).add ((Double.ofRat 3).mul cubed),
    (((Double.ofRat (-6)).mul squared).sub ((Double.ofRat 3).mul volumeFactor)).sub
      ((Double.ofRat 3).mul cubed),
    (((Double.ofRat 1).add ((Double.ofRat 3).mul volumeFactor)).add cubed).add
      ((Double.ofRat 3).mul squared))

/-- `_t3_combine`: an infinite weight leaves no finite sum, as every link is positive. -/
def t3Combine (coefficients : Double × Double × Double × Double)
    (third fourth fifth sixth : Value) : Value :=
  match third, fourth, fifth, sixth with
  | some third, some fourth, some fifth, some sixth =>
    match coefficients with
    | (some sixthWeight, some fifthWeight, some fourthWeight, some thirdWeight) =>
      some (sixthWeight.val * sixth + fifthWeight.val * fifth + fourthWeight.val * fourth +
        thirdWeight.val * third)
    | _ => NAN
  | _, _, _, _ => NAN

structure T3State where
  chain : List RecursiveAverageState

namespace T3State

/-- A state that has seen nothing. -/
def new : T3State := ⟨List.replicate t3Stages .new⟩

/-- What a link of the chain shows. -/
def link (state : T3State) (stage : ℕ) : Value :=
  (state.chain[stage]?.map RecursiveAverageState.current).getD NAN

def current (volumeFactor : Double) (state : T3State) : Value :=
  t3Combine (t3Coefficients volumeFactor) (state.link 2) (state.link 3) (state.link 4)
    (state.link 5)

def update (period : ℕ) (volumeFactor : Double) (state : T3State) (candle : Candle) :
    T3State × Value :=
  let state : T3State := ⟨chainUpdate period state.chain (some candle.close)⟩
  (state, state.current volumeFactor)

theorem final_update (period : ℕ) (volumeFactor : Double) (state : T3State)
    (candles : List Candle) :
    final (update period volumeFactor) state candles =
      ⟨finals period state.chain (closes candles)⟩ := by
  induction candles generalizing state with
  | nil => rw [final_nil, closes, List.map_nil, finals_nil]
  | cons candle candles ih => rw [final_cons, ih, closes_cons, finals_cons]; rfl

/-- A link is defined when enough candles have come through the links before it. -/
theorem link_isSome {period : ℕ} (hperiod : 0 < period) (volumeFactor : Double)
    (candles : List Candle) {stage : ℕ} (hstage : stage < t3Stages) :
    ((final (update period volumeFactor) new candles).link stage).isSome ↔
      (stage + 1) * (period - 1) < candles.length := by
  obtain ⟨state, hget, hwarm⟩ :=
    finals_replicate hperiod (definedFrom_closes candles) t3Stages stage hstage
  rw [Nat.zero_add, length_closes] at hwarm
  rw [final_update, link, new, hget, ← hwarm]
  rfl

end T3State

/-! ### Hull's average -/

/-- The nearest integer to a square root. -/
def roundedSqrt (n : ℕ) : ℕ :=
  if n ≤ n.sqrt * n.sqrt + n.sqrt then n.sqrt else n.sqrt + 1

theorem roundedSqrt_pos {n : ℕ} (h : 0 < n) : 0 < roundedSqrt n := by
  have hsqrt := Nat.sqrt_pos.2 h
  rw [roundedSqrt]
  split
  · exact hsqrt
  · exact Nat.succ_pos _

structure HMAState where
  fast : List Value
  slow : List Value
  smoother : List Value
  value : Value

namespace HMAState

/-- A state that has seen nothing. -/
def new : HMAState := ⟨[], [], [], NAN⟩

def update (period : ℕ) (state : HMAState) (candle : Candle) : HMAState × Value :=
  let quick := WmaWindow.update (period / 2) state.fast (some candle.close)
  let steady := WmaWindow.update period state.slow (some candle.close)
  let value := WmaWindow.update (roundedSqrt period) state.smoother (doubled quick.2 steady.2)
  (⟨quick.1, steady.1, value.1, value.2⟩, value.2)

theorem outputs_update (period : ℕ) (state : HMAState) (candles : List Candle) :
    outputs (update period) state candles =
      outputs (WmaWindow.update (roundedSqrt period)) state.smoother
        (List.zipWith doubled
          (outputs (WmaWindow.update (period / 2)) state.fast (closes candles))
          (outputs (WmaWindow.update period) state.slow (closes candles))) := by
  induction candles generalizing state with
  | nil => rfl
  | cons candle candles ih =>
    rw [outputs_cons, ih]
    rfl

end HMAState

/-! ### The zero-lag average -/

def zlemaLag (period : ℕ) : ℕ := (period - 1) / 2

structure ZLEMAState where
  closes : DelayLine
  average : RecursiveAverageState

namespace ZLEMAState

/-- A state that has seen nothing. -/
def new : ZLEMAState := ⟨[], .new⟩

/-- The close corrected by its change over the lag. -/
def corrected (close earlier : Value) : Value :=
  both (fun close earlier => close + (close - earlier)) close earlier

def update (period : ℕ) (state : ZLEMAState) (candle : Candle) : ZLEMAState × Value :=
  let earlier := DelayLine.update (zlemaLag period) state.closes (some candle.close)
  let average := EmaState.update period state.average
    (corrected (some candle.close) earlier.2)
  (⟨earlier.1, average.1⟩, average.2)

def current (state : ZLEMAState) : Value := state.average.current

/-- The corrected closes of candles. -/
def correctedCloses (period : ℕ) (line : DelayLine) (candles : List Candle) : List Value :=
  List.zipWith corrected (Indicators.closes candles)
    (outputs (DelayLine.update (zlemaLag period)) line (Indicators.closes candles))

theorem outputs_update (period : ℕ) (state : ZLEMAState) (candles : List Candle) :
    outputs (update period) state candles = outputs (EmaState.update period) state.average
      (correctedCloses period state.closes candles) := by
  induction candles generalizing state with
  | nil => rfl
  | cons candle candles ih =>
    rw [outputs_cons, ih]
    rfl

theorem final_average (period : ℕ) (state : ZLEMAState) (candles : List Candle) :
    (final (update period) state candles).average = final (EmaState.update period) state.average
      (correctedCloses period state.closes candles) := by
  induction candles generalizing state with
  | nil => rfl
  | cons candle candles ih =>
    rw [final_cons, ih]
    rfl

end ZLEMAState

/-! ### The triangular average -/

def trimaLengths (period : ℕ) : ℕ × ℕ :=
  if period % 2 = 0 then (period / 2, period / 2 + 1) else ((period + 1) / 2, (period + 1) / 2)

/-- Both lengths are positive and together reach over the period. -/
theorem trimaLengths_spec {period : ℕ} (h : 0 < period) :
    0 < (trimaLengths period).1 ∧ 0 < (trimaLengths period).2 ∧
      (trimaLengths period).1 + (trimaLengths period).2 = period + 1 := by
  rw [trimaLengths]
  split <;> omega

structure TRIMAState where
  inner : SmaState
  outer : SmaState

namespace TRIMAState

/-- A state that has seen nothing. -/
def new : TRIMAState := ⟨.new, .new⟩

def update (period : ℕ) (state : TRIMAState) (candle : Candle) : TRIMAState × Value :=
  let inner := SmaState.update (trimaLengths period).1 state.inner (some candle.close)
  let outer := SmaState.update (trimaLengths period).2 state.outer inner.2
  (⟨inner.1, outer.1⟩, outer.2)

def current (period : ℕ) (state : TRIMAState) : Value :=
  state.outer.current (trimaLengths period).2

theorem outputs_update (period : ℕ) (state : TRIMAState) (candles : List Candle) :
    outputs (update period) state candles =
      outputs (SmaState.update (trimaLengths period).2) state.outer
        (outputs (SmaState.update (trimaLengths period).1) state.inner (closes candles)) := by
  induction candles generalizing state with
  | nil => rfl
  | cons candle candles ih =>
    rw [outputs_cons, ih]
    rfl

end TRIMAState

/-! ### The variable average -/

def vidyaStart (period volatilityPeriod : ℕ) : ℕ := max (period - 1) volatilityPeriod

/-- One step of the recursion, its smoothing scaled by the momentum. -/
def vidyaStep (alpha close : ℚ) (factor value : Value) : Value :=
  both (fun factor value => alpha * |factor| / 100 * close + (1 - alpha * |factor| / 100) * value)
    factor value

structure VIDYAState where
  index : ℤ
  seed : SmaState
  volatility : CMOState
  value : Option Value

namespace VIDYAState

/-- A state that has seen nothing. -/
def new : VIDYAState := ⟨-1, .new, .new, none⟩

def current (state : VIDYAState) : Value := state.value.getD NAN

def update (period volatilityPeriod : ℕ) (state : VIDYAState) (candle : Candle) :
    VIDYAState × Value :=
  let index := state.index + 1
  let average := SmaState.update period state.seed (some candle.close)
  let factor := CMOState.update volatilityPeriod state.volatility candle
  let value := if index < vidyaStart period volatilityPeriod then state.value
    else match state.value with
      | none => some average.2
      | some value => some (vidyaStep (emaAlpha period) candle.close factor.2 value)
  let state : VIDYAState := ⟨index, average.1, factor.1, value⟩
  (state, state.current)

variable {period volatilityPeriod : ℕ}

/-- What a state is after some candles. -/
structure Warming (period volatilityPeriod : ℕ) (seen : List Candle) (state : VIDYAState) :
    Prop where
  index : state.index = (seen.length : ℤ) - 1
  seed : state.seed = final (SmaState.update period) .new (closes seen)
  volatility : state.volatility = final (CMOState.update volatilityPeriod) .new seen
  waiting : seen.length ≤ vidyaStart period volatilityPeriod → state.value = none
  running : vidyaStart period volatilityPeriod < seen.length → ∃ x, state.value = some (some x)

theorem Warming.step (hperiod : 0 < period) (hvolatility : 0 < volatilityPeriod)
    {seen : List Candle} {state : VIDYAState} (h : Warming period volatilityPeriod seen state)
    (candle : Candle) : Warming period volatilityPeriod (seen ++ [candle])
      (update period volatilityPeriod state candle).1 := by
  obtain ⟨index, seed, volatility, value⟩ := state
  obtain ⟨hindex, hseed, hvol, hwaiting, hrunning⟩ := h
  simp only at hindex hseed hvol hwaiting hrunning
  subst hseed hvol
  -- from the start on both the seed average and the momentum are defined
  have hcloses : DefinedFrom 0 (closes seen ++ [some candle.close]) := by
    simpa [closes] using definedFrom_closes (seen ++ [candle])
  have haverage := definedFrom_snd (definedFrom_sma hperiod hcloses)
  have hfactor := definedFrom_snd (definedFrom_cmo hvolatility (seen ++ [candle]))
  rw [length_closes] at haverage
  have hplace : index + 1 < (vidyaStart period volatilityPeriod : ℤ) ↔
      seen.length < vidyaStart period volatilityPeriod := by
    rw [hindex, sub_add_cancel, Nat.cast_lt]
  refine ⟨?_, ?_, (final_concat _ _ _ _).symm, fun hle => ?_, fun hlt => ?_⟩
  · simp [update, hindex]
  · simp [update, closes, final_concat]
  · rw [List.length_append, List.length_singleton] at hle
    simp only [update, if_pos (hplace.2 hle)]
    exact hwaiting (by omega)
  · rw [List.length_append, List.length_singleton] at hlt
    have hfrom : vidyaStart period volatilityPeriod ≤ seen.length := by omega
    obtain ⟨hlong, hmoved⟩ := max_le_iff.1 hfrom
    obtain ⟨x, hx⟩ := Option.isSome_iff_exists.1 (haverage.2 (by omega))
    obtain ⟨y, hy⟩ := Option.isSome_iff_exists.1 (hfactor.2 hmoved)
    simp only [update, if_neg (hplace.not.2 hfrom.not_gt), hx, hy]
    by_cases hfirst : seen.length ≤ vidyaStart period volatilityPeriod
    · rw [hwaiting hfirst]
      exact ⟨x, rfl⟩
    · obtain ⟨z, hz⟩ := hrunning (by omega)
      rw [hz]
      exact ⟨_, rfl⟩

theorem warming (hperiod : 0 < period) (hvolatility : 0 < volatilityPeriod)
    (candles : List Candle) : Warming period volatilityPeriod candles
      (final (update period volatilityPeriod) new candles) := by
  induction candles using List.reverseRecOn with
  | nil => exact ⟨rfl, rfl, rfl, fun _ => rfl, fun h => absurd h (Nat.not_lt_zero _)⟩
  | append_singleton seen candle ih =>
    rw [final_concat]
    exact ih.step hperiod hvolatility candle

end VIDYAState

end Indicators
end TradingSystem
