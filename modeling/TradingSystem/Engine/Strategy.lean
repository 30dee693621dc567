import TradingSystem.Engine.Ledger

/-!
# From a strategy's answer to the pending queue

The second half of a bar: the answer becomes a signal (through the policy, when it
is a decision without sizing), the signal an intent, and the intent at most two
orders for the next bar. Only orders for a contiguous next candle are queued.

A bar whose successor in the history is missing or not contiguous queues nothing
and records why: `NextBar`.
-/

namespace TradingSystem

open Numeric Logic

namespace Engine

variable (input : RunInput)

/-! ### Decision rows -/

def recordActionDecision (decisionId signalId : ℕ) (candle : Candle) (action : DecisionKind)
    (side : PositionSide) (quantity : Binary64) (planned : Option ℤ)
    (signal : Option TradingSignal) (stopDistance : Option Binary64) : EngineProgram PUnit :=
  record input (.decision {
    decisionId := decisionId
    signalId := some signalId
    decisionTs := candle.closeTime
    action := action
    skipReason := none
    intendedSide := some side
    intendedQty := some quantity
    stopPrice := signal.bind (·.stopLoss)
    takeProfitPrice := signal.bind (·.takeProfit)
    riskAmount := stopDistance.map fun distance => distance.mul quantity
    stopDistance := stopDistance
    frameworkCompliant := input.config.sizing.isRiskBased
    plannedExecutionTs := planned })

def recordSkipDecision (decisionId : ℕ) (signalId : Option ℕ) (candle : Candle)
    (reason : String) : EngineProgram PUnit :=
  record input (.decision {
    decisionId := decisionId
    signalId := signalId
    decisionTs := candle.closeTime
    action := .skip
    skipReason := some reason
    intendedSide := none
    intendedQty := none
    stopPrice := none
    takeProfitPrice := none
    riskAmount := none
    stopDistance := none
    frameworkCompliant := input.config.sizing.isRiskBased
    plannedExecutionTs := none })

def recordHoldDecision (candle : Candle) (decision : DecisionIntent) : EngineProgram PUnit := do
  let decisionId ← next .decision
  recordSkipDecision input decisionId none candle decision.reason

def recordBlockedCandidate (candle : Candle) (side : PositionSide) (reason : String) :
    EngineProgram PUnit := do
  let candidateId ← next .candidate
  record input (.candidate {
    candidateId := candidateId
    ts := candle.closeTime
    symbol := candle.symbol
    triggerRule := reason
    passedFilters := []
    blockedBy := some reason
    wouldBeSide := side
    wouldBeQty := none
    realized := false
    linkedTradeId := none })

/-! ### Intent, size and requests -/

/-- The protection level a signal is read by, and the side it implies: a stop lies
below a long entry, a target above it. -/
def impliedSide (signal : TradingSignal) : Option (Binary64 × PositionSide) :=
  match signal.stopLoss, signal.takeProfit with
  | some protection, _ => some (protection, if protection < signal.price then .long else .short)
  | none, some protection =>
    some (protection, if signal.price < protection then .long else .short)
  | none, none => none

def deriveIntent (signal : TradingSignal) (position : Option Position) :
    Except Fault (Intent × Option PositionSide) :=
  match impliedSide signal with
  | none => .ok (.exit, none)
  | some (protection, side) => do
    require (protection ≠ signal.price)
      (.valueError "protection level cannot equal signal price")
    let reverses := position.any fun held => decide (held.side ≠ side)
    return (if reverses then .reverse else .enter, some side)

/-- `_size`: the float quantity of an entry and its stop distance. -/
def size (signal : TradingSignal) : EngineProgram (Binary64 × Binary64) :=
  match impliedSide signal with
  | none => throw (.valueError "entry sizing requires a protection level")
  | some (protection, _) => do
    let stopDistance := (signal.price.sub protection).abs
    raiseUnless (Binary64.zero < stopDistance)
      (.valueError "entry sizing requires a positive stop distance")
    match input.config.sizing, signal.requestedQuantity with
    | .riskBased _, some requested => return (requested, stopDistance)
    | .riskBased risk, none => do
      let equity ← currentEquity input
      let quantity ← runPure (riskSize risk (toFloat equity) stopDistance)
      return (quantity, stopDistance)
    | .pct fraction, _ => do
      let state ← get
      let notional ← runPure (walletPctSize (toFloat state.cash) fraction)
      return (notional.div signal.price, stopDistance)

def entryRequest (signal : TradingSignal) (side : PositionSide) (quantity : Binary64) :
    Except Fault OrderRequest :=
  { symbol := signal.symbol
    side := if side = .long then .buy else .sell
    orderType := .market
    quantity := quantity
    price := some signal.price
    stopPrice := signal.stopLoss
    marketType := signal.marketType
    positionSide := side
    reduceOnly := false
    closePosition := false : OrderRequest }.postInit

/-- `_exit_request`: the decimal quantity of the position passes through a float. -/
def exitRequest (position : Position) : Except Fault OrderRequest :=
  { symbol := position.symbol
    side := if position.side = .long then .sell else .buy
    orderType := .market
    quantity := toFloat position.quantity
    price := none
    stopPrice := none
    marketType := position.marketType
    positionSide := position.side
    reduceOnly := true
    closePosition := false : OrderRequest }.postInit

/-! ### The next bar -/

/-- What follows a candle in the history. -/
inductive NextBar
  | contiguous (next : Candle)
  | gap
  | endOfData

/-- Why no order is queued for the next bar. -/
def NextBar.skipReason : NextBar → String
  | contiguous _ => ""
  | gap => "next_candle_gap"
  | endOfData => "end_of_data"

def nextCandle (candle : Candle) : Except Fault (Option Candle) :=
  match input.history.dropWhile fun other => other ≠ candle with
  | [] => .error (.valueError "decision candle is absent from Engine history")
  | _ :: rest => .ok rest.head?

/-- The next bar, when it opens as the candle closes. -/
def nextBar (candle : Candle) : Except Fault NextBar := do
  match ← nextCandle input candle with
  | none => return .endOfData
  | some next => return if next.openTime = candle.closeTime then .contiguous next else .gap

/-- When an order decided at a candle's close executes. -/
def plannedExecution (candle next : Candle) : ℤ :=
  max next.openTime (candle.closeTime + Instant.millisecond)

/-! ### Queueing -/

/-- Append an order to the pending queue. -/
def enqueue (pending : PendingOrder) : EngineProgram PUnit :=
  modify fun state => { state with pending := state.pending ++ [pending] }

/-- Queue the order that closes a position. -/
def enqueueExit (position : Position) (decisionId : ℕ) (candle : Candle) (reason : ExitReason)
    (signal : TradingSignal) : EngineProgram PUnit := do
  let request ← runPure (exitRequest position)
  enqueue {
    request := request
    decisionId := decisionId
    decisionCandle := candle
    featureTs := epochMilliseconds candle.closeTime
    decisionTs := epochMilliseconds candle.closeTime
    exitReason := some reason
    signal := some signal
    candidateId := none }

/-- Queue an entry. -/
def enqueueEntry (side : PositionSide) (quantity : Binary64) (decisionId candidateId : ℕ)
    (candle : Candle) (signal : TradingSignal) : EngineProgram PUnit := do
  let request ← runPure (entryRequest signal side quantity)
  enqueue {
    request := request
    decisionId := decisionId
    decisionCandle := candle
    featureTs := epochMilliseconds candle.closeTime
    decisionTs := epochMilliseconds candle.closeTime
    exitReason := none
    signal := some signal
    candidateId := some candidateId }

/-- The exit branch of `_handle_signal`. -/
def handleExit (candle : Candle) (signal : TradingSignal) (signalId decisionId : ℕ)
    (position : Option Position) (bar : NextBar) : EngineProgram PUnit :=
  match position, bar with
  | none, _ => recordSkipDecision input decisionId (some signalId) candle "no_position"
  | some position, .contiguous next => do
    recordActionDecision input decisionId signalId candle .exit position.side
      (toFloat position.quantity) (some (plannedExecution candle next)) none none
    enqueueExit position decisionId candle .signalExit signal
  | some _, bar => recordSkipDecision input decisionId (some signalId) candle bar.skipReason

/-- Skip an entry and record its candidate as blocked. -/
def blockEntry (candle : Candle) (signal : TradingSignal) (signalId decisionId candidateId : ℕ)
    (side : PositionSide) (quantity : Binary64) (reason : String) : EngineProgram PUnit := do
  recordSkipDecision input decisionId (some signalId) candle reason
  record input (.candidate {
    candidateId := candidateId
    ts := candle.closeTime
    symbol := signal.symbol
    triggerRule := signal.reason
    passedFilters := []
    blockedBy := some reason
    wouldBeSide := side
    wouldBeQty := some (toDecimal quantity)
    realized := false
    linkedTradeId := none })

/-- Queue an entry, after the exit of the opposite position if there is one. -/
def queueEntry (candle next : Candle) (signal : TradingSignal)
    (signalId decisionId candidateId : ℕ) (side : PositionSide)
    (sized : Binary64 × Binary64) (position : Option Position) : EngineProgram PUnit := do
  recordActionDecision input decisionId signalId candle
    (if position.isSome then .reverse else .enter) side sized.1
    (some (plannedExecution candle next)) (some signal) (some sized.2)
  forEach position.toList fun held => enqueueExit held decisionId candle .reversal signal
  enqueueEntry side sized.1 decisionId candidateId candle signal

/-- The entry branch of `_handle_signal`. The three exposure limits are the same
check of the same numbers. -/
def handleEntry (candle : Candle) (signal : TradingSignal) (signalId decisionId : ℕ)
    (side : PositionSide) (position : Option Position) (bar : NextBar) :
    EngineProgram PUnit := do
  if position.any fun held => decide (held.side = side) then do
    recordSkipDecision input decisionId (some signalId) candle "pyramiding_disabled"
    recordBlockedCandidate input candle side "pyramiding_disabled"
  else do
    let sized ← size input signal
    let within ← runPure (withinLimit [input.config.riskFraction] onePercent)
    let candidateId ← next .candidate
    match within, bar with
    | true, .contiguous next =>
      queueEntry input candle next signal signalId decisionId candidateId side sized position
    | true, bar =>
      blockEntry input candle signal signalId decisionId candidateId side sized.1 bar.skipReason
    | false, _ =>
      blockEntry input candle signal signalId decisionId candidateId side sized.1
        "exposure_limit"

def handleSignal (candle : Candle) (signal : TradingSignal) : EngineProgram PUnit := do
  let position ← currentPosition input
  let derived ← runPure (deriveIntent signal position)
  let signalId ← next .signal
  record input (.signal {
    signalId := signalId
    decisionTs := candle.closeTime
    candleOpenTime := candle.openTime
    candleCloseTime := candle.closeTime
    signal := signal
    derivedIntent := derived.1
    derivedSide := derived.2 })
  let decisionId ← next .decision
  let bar ← runPure (nextBar input candle)
  match derived.2 with
  | none => handleExit input candle signal signalId decisionId position bar
  | some side => handleEntry input candle signal signalId decisionId side position bar

/-! ### Answers -/

theorem no_level_pos : ∀ level ∈ (none : Option Binary64), Binary64.zero < level := by simp

theorem unit_leverage_pos : ∀ value ∈ some 1, 0 < value := by simp

theorem plan_leverage_pos (plan : EntryPlan) :
    ∀ value ∈ some plan.requestedLeverage, 0 < value := by
  intro value hvalue
  cases hvalue
  exact plan.requestedLeverage_pos

/-- The signal of an exit decision. -/
def exitSignal (decision : DecisionIntent) : TradingSignal where
  symbol := decision.symbol
  timestamp := decision.timestamp
  confidence := decision.confidence
  price := decision.referencePrice
  stopLoss := none
  takeProfit := none
  marketType := input.config.marketType
  leverage := some 1
  reason := decision.reason
  requestedQuantity := none
  confidence_nonneg := decision.confidence_nonneg
  confidence_le_one := decision.confidence_le_one
  price_pos := decision.referencePrice_pos
  stopLoss_pos := no_level_pos
  takeProfit_pos := no_level_pos
  leverage_pos := unit_leverage_pos

/-- The signal of an entry decision under a plan. -/
def plannedSignal (decision : DecisionIntent) (plan : EntryPlan) : TradingSignal where
  symbol := decision.symbol
  timestamp := decision.timestamp
  confidence := decision.confidence
  price := decision.referencePrice
  stopLoss := plan.stopLoss
  takeProfit := plan.takeProfit
  marketType := input.config.marketType
  leverage := some plan.requestedLeverage
  reason := decision.reason
  requestedQuantity := some plan.requestedQuantity
  confidence_nonneg := decision.confidence_nonneg
  confidence_le_one := decision.confidence_le_one
  price_pos := decision.referencePrice_pos
  stopLoss_pos := plan.stopLoss_pos
  takeProfit_pos := plan.takeProfit_pos
  leverage_pos := plan_leverage_pos plan

/-- An entry decision: the policy's plan, or its rejection. -/
def handlePlan (candle : Candle) (decision : DecisionIntent) (side : PositionSide)
    (plan : Option EntryPlan) : EngineProgram PUnit :=
  match plan with
  | none => recordBlockedCandidate input candle side "money_management_rejected"
  | some plan => do
    let _ ← currentEquity input
    let _ ← runPure (maintenanceMarginRate input)
    handleSignal input candle (plannedSignal input decision plan)

/-- An entry decision without a policy raises; a policy's rejection is recorded. -/
def handleDecision (candle : Candle) (decision : DecisionIntent) (plan : Option EntryPlan) :
    EngineProgram PUnit := do
  raiseUnless (decision.timestamp ≤ candle.closeTime)
    (.valueError "strategy decision cannot be later than the confirmed candle")
  match decision.action with
  | .hold => recordHoldDecision input candle decision
  | .exit => handleSignal input candle (exitSignal input decision)
  | .enterLong => do
    raiseUnless (input.hasPolicy = true)
      (.valueError "strategy entry requires a money-management policy")
    handlePlan input candle decision .long plan
  | .enterShort => do
    raiseUnless (input.hasPolicy = true)
      (.valueError "strategy entry requires a money-management policy")
    handlePlan input candle decision .short plan

/-- The second half of `step_close`. -/
def handleAnswer (candle : Candle) (answer : StrategyAnswer) : EngineProgram PUnit :=
  match answer with
  | .nothing => pure ⟨⟩
  | .decision decision plan => handleDecision input candle decision plan
  | .signal signal => do
    raiseUnless (signal.timestamp ≤ candle.closeTime)
      (.valueError "strategy signal cannot be later than the confirmed candle")
    handleSignal input candle signal

end Engine
end TradingSystem
