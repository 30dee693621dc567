import TradingSystem.Engine.RunInvariant

/-!
# Executing runs

`simulate` performs a number of steps of a run and checks the state before each of them,
so the states it ends in are reachable (`reachable_of_simulate`), and reachable by runs
that lose nothing at a float when the check is `keepsQuantity`.

`hourly` is the smallest market to run on: hourly bars of one price each, no series, no
funding feed. Its bars are given by hour and price, with gaps where hours are missing.
-/

namespace TradingSystem

open Numeric Logic

namespace Engine

variable {input : RunInput}

/-! ### Simulation -/

/-- The next state of a run. -/
def stepState (input : RunInput) (state : RunState) : Option RunState :=
  match stepPhase input state.1 state.2 with
  | .ok phase s => some (phase, s)
  | .error _ _ => none

/-- Perform steps, checking the state before each of them. -/
def simulate (input : RunInput) (check : RunState → Bool) : ℕ → RunState → Option RunState
  | 0, state => some state
  | steps + 1, state =>
    if check state then (stepState input state).bind (simulate input check steps) else none

/-- The state a run starts from. -/
def startState (input : RunInput) : Option RunState :=
  match checkedCash input.config.initialCapital "run initialization", input.evaluation with
  | .ok cash, first :: rest =>
    match prepare input (initialState input cash) with
    | .ok _ s => some (.beforeOpen ⟨0, first, rest⟩, s)
    | .error _ _ => none
  | _, _ => none

theorem isStart_of_startState {state : RunState} (h : startState input = some state) :
    IsStart input state := by
  unfold startState at h
  cases hcash : checkedCash input.config.initialCapital "run initialization" with
  | error fault =>
    rw [hcash] at h
    cases h
  | ok cash =>
  cases hevaluation : input.evaluation with
  | nil =>
    rw [hcash, hevaluation] at h
    cases h
  | cons first rest =>
    rw [hcash, hevaluation] at h
    -- a start needs a capital, a bar to evaluate, and a preparation that returns
    cases hprepare : prepare input (initialState input cash) with
    | error fault s =>
      simp only [hprepare] at h
      cases h
    | ok u s =>
      simp only [hprepare] at h
      cases h
      exact ⟨cash, first, rest, hcash, hevaluation, rfl, hprepare⟩

theorem step_of_stepState {state state' : RunState} (h : stepState input state = some state') :
    (system input).step state state' := by
  unfold stepState at h
  cases hrun : stepPhase input state.1 state.2 with
  | ok phase s =>
    rw [hrun] at h
    cases h
    exact hrun
  | error fault s =>
    rw [hrun] at h
    cases h

/-- The states a run passes through. -/
def simulated (input : RunInput) (check : RunState → Bool) (steps : ℕ) : Option RunState :=
  (startState input).bind (simulate input check steps)

open TransitionSystem

variable {check : RunState → Bool} {guard : RunState → Prop} {steps : ℕ}
  {state state' : RunState}

private theorem reachableVia_of_simulate (hcheck : ∀ state, check state = true → guard state)
    (hreach : (system input).ReachableVia guard state)
    (h : simulate input check steps state = some state') :
    (system input).ReachableVia guard state' := by
  induction steps generalizing state with
  | zero =>
    cases h
    exact hreach
  | succ steps ih =>
    unfold simulate at h
    by_cases hc : check state = true
    · rw [if_pos hc, Option.bind_eq_some_iff] at h
      obtain ⟨next, hnext, hrest⟩ := h
      exact ih (hreach.step (hcheck state hc) (step_of_stepState hnext)) hrest
    · rw [if_neg hc] at h
      cases h

/-- **Simulated states are reachable**, by steps from states that passed the check. -/
theorem reachableVia_of_simulated (hcheck : ∀ state, check state = true → guard state)
    (h : simulated input check steps = some state) :
    (system input).ReachableVia guard state := by
  unfold simulated at h
  rw [Option.bind_eq_some_iff] at h
  obtain ⟨start, hstart, hsimulate⟩ := h
  exact reachableVia_of_simulate hcheck (ReachableVia.init (isStart_of_startState hstart)) hsimulate

/-- A simulation that checks nothing. -/
theorem reachable_of_simulated (h : simulated input (fun _ => true) steps = some state) :
    (system input).Reachable state :=
  reachableVia_of_simulated (fun _ _ => trivial) h

/-- A test of the state a simulation ends in. -/
theorem exists_of_simulated (input : RunInput) (check : RunState → Bool) (steps : ℕ)
    (test : RunState → Bool)
    (h : (simulated input check steps).any test = true) :
    ∃ state, simulated input check steps = some state ∧ test state = true := by
  cases hs : simulated input check steps with
  | none =>
    rw [hs] at h
    cases h
  | some state =>
    rw [hs] at h
    exact ⟨state, rfl, h⟩

/-- Every position of the run's symbol survives the float of its exit. -/
def keepsQuantity (input : RunInput) (state : RunState) : Bool :=
  match positionOf input state.2.book with
  | .ok (some position) => decide (IsMoney position.quantity ∧ 0 < position.quantity ∧
      exitQuantity position.quantity = position.quantity)
  | _ => true

theorem closesLossless_of_keepsQuantity (h : keepsQuantity input state = true) :
    ClosesLossless input state := by
  intro _ position hposition
  unfold keepsQuantity at h
  rw [hposition] at h
  simp only [decide_eq_true_eq] at h
  exact (exitQuantity_eq_iff h.1 h.2.1).1 h.2.2

/-! ### Hourly markets -/

/-- A positive float. -/
abbrev Price := { value : Binary64 // Binary64.zero < value }

def oneHour : Timeframe := ⟨1, .hours, Nat.one_pos⟩

/-- The bar of one price that opens at an hour. -/
def hourlyCandle (bar : ℕ × Price) : Candle :=
  Candle.flat "BTCUSDT" oneHour (bar.1 * Instant.hour) bar.2.val bar.2.property

theorem hourlyCandle_wholeMillisecond (bar : ℕ × Price) :
    WholeMillisecond (hourlyCandle bar).openTime := by
  unfold WholeMillisecond
  change (bar.1 * Instant.hour : ℤ) % Instant.millisecond = 0
  simp only [Instant.hour, Instant.minute, Instant.second, Instant.millisecond]
  omega

theorem increasing_hourly {bars : List (ℕ × Price)}
    (h : bars.Pairwise fun left right => left.1 < right.1) :
    Increasing (bars.map hourlyCandle) := by
  unfold Increasing
  rw [List.pairwise_map]
  refine h.imp fun hlt => ?_
  change (_ * Instant.hour : ℤ) < _ * Instant.hour
  have : (0 : ℤ) < Instant.hour := by decide
  nlinarith

theorem zero_le_one_float : Binary64.zero ≤ Binary64.ofRat 1 :=
  (Binary64.lt_def.1 (Binary64.zero_lt_ofRat le_rfl)).le

theorem btcusdt_ne : "BTCUSDT" ≠ "" := by decide

theorem oneDollar_pos : Binary64.zero < Binary64.ofRat 1 := Binary64.zero_lt_ofRat le_rfl

theorem twoDollars_pos : Binary64.zero < Binary64.ofRat 2 :=
  Binary64.zero_lt_ofRat (by norm_num)

theorem noLeverage_pos : ∀ value ∈ (none : Option ℕ), 0 < value := by simp

/-- A signal for the hourly market. -/
def hourlySignal (marketType : MarketType) (price : Price) (stopLoss takeProfit : Option Price)
    (leverage : Option ℕ) (requestedQuantity : Option Binary64)
    (hleverage : ∀ value ∈ leverage, 0 < value) : TradingSignal where
  symbol := "BTCUSDT"
  timestamp := 0
  confidence := Binary64.zero
  price := price.val
  stopLoss := stopLoss.map Subtype.val
  takeProfit := takeProfit.map Subtype.val
  marketType := marketType
  leverage := leverage
  reason := "signal"
  requestedQuantity := requestedQuantity
  confidence_nonneg := le_refl (Binary64.zero.val)
  confidence_le_one := zero_le_one_float
  price_pos := price.property
  stopLoss_pos := by
    intro level hlevel
    rw [Option.mem_map] at hlevel
    obtain ⟨stop, -, rfl⟩ := hlevel
    exact stop.property
  takeProfit_pos := by
    intro level hlevel
    rw [Option.mem_map] at hlevel
    obtain ⟨target, -, rfl⟩ := hlevel
    exact target.property
  leverage_pos := hleverage

/-- The run over an hourly market with the default costs. -/
def hourly (marketType : MarketType) (initialCapital : Decimal) (sizing : SizingMethod)
    (bars : List (ℕ × Price)) (answers : ℕ → StrategyAnswer) (hcapital : 0 < initialCapital)
    (hsizing : sizing.Valid) (hbars : bars.Pairwise fun left right => left.1 < right.1) :
    RunInput where
  config := {
    symbol := "BTCUSDT"
    timeframe := oneHour
    marketType := marketType
    start := 0
    stop := 1000 * Instant.hour
    initialCapital := initialCapital
    sizing := sizing
    symbol_ne := btcusdt_ne
    start_lt_stop := by decide
    initialCapital_pos := hcapital
    sizing_valid := hsizing }
  costModel := BacktestCostModel.standard marketType
  history := bars.map hourlyCandle
  minuteHistory := []
  funding _ := none
  series := {
    symbol := "BTCUSDT"
    timeframe := oneHour
    start := 0
    specs := []
    warmup _ := 0
    histories _ := []
    references _ := [] }
  hasPolicy := false
  answers := answers
  history_increasing := increasing_hourly hbars
  history_symbol := by
    intro candle hcandle
    rw [List.mem_map] at hcandle
    obtain ⟨bar, -, rfl⟩ := hcandle
    exact ⟨rfl, rfl⟩
  history_milliseconds := by
    intro candle hcandle
    rw [List.mem_map] at hcandle
    obtain ⟨bar, -, rfl⟩ := hcandle
    exact hourlyCandle_wholeMillisecond bar
  costModel_marketType := rfl

end Engine
end TradingSystem
