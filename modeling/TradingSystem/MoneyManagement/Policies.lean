import TradingSystem.Types.Enums
import TradingSystem.Types.Signal
import TradingSystem.Costs.Liquidation

/-!
# Money-management policies

The deployed policies of the plugin repository, over rational numbers. A policy turns an entry
decision into a plan: a stop at a multiple of the volatility, the quantity that the risk budget
buys at that distance, and a leverage.

* `Refusal` — a plan is refused by the policy, or one of its values by a constructor.
* `ManualMoneyManagement`, `TurtleMoneyManagement`, `SignalExitAtrMoneyManagement` — the policies,
  each with its own `planEntry`.
* `Policy.planEntry` — the entry point, over the three of them.
-/

namespace TradingSystem

open Logic

namespace MoneyManagement

/-! ### Inputs -/

/-- The finalized market facts at decision time. -/
structure MarketSnapshot where
  referencePrice : ℚ
  volatility : ℚ
  volatilityName : String
  volatilityTimestamp : ℤ
  referencePrice_pos : 0 < referencePrice
  volatility_pos : 0 < volatility
  volatilityName_ne : volatilityName ≠ ""

/-- The account facts available to one calculation. -/
structure AccountRiskSnapshot where
  equity : ℚ
  availableCash : ℚ
  marketType : MarketType
  equity_pos : 0 < equity
  availableCash_pos : 0 < availableCash

/-- Global limits that a policy may use but never increase. -/
structure RiskLimits where
  riskPerTrade : ℚ
  maintenanceMarginRate : ℚ
  maxLeverage : ℕ
  riskPerTrade_pos : 0 < riskPerTrade
  riskPerTrade_le : riskPerTrade ≤ 1 / 100
  maintenanceMarginRate_nonneg : 0 ≤ maintenanceMarginRate
  maintenanceMarginRate_lt : maintenanceMarginRate < 1
  maxLeverage_pos : 0 < maxLeverage

/-! ### Plans -/

/-- Why there is no plan: a `MoneyManagementError`, or the fault of a constructor. -/
inductive Refusal
  | moneyManagementError (message : String)
  | fault (fault : Fault)
deriving DecidableEq, Repr

/-- `raise MoneyManagementError` unless the condition holds. -/
def refuseUnless (condition : Prop) [Decidable condition] (message : String) :
    Except Refusal Unit :=
  if condition then .ok () else .error (.moneyManagementError message)

theorem refuseUnless_eq_ok {condition : Prop} [Decidable condition] {message : String} {u : Unit} :
    refuseUnless condition message = .ok u ↔ condition := by
  unfold refuseUnless
  split <;> simp_all

/-- What a policy reports beside its plan. -/
structure Diagnostics where
  policyId : String
  policyVersion : String
  volatilityName : String
  volatility : ℚ
  volatilityTimestamp : ℤ
  stopDistance : ℚ
  riskBudget : ℚ
  requestedNotional : Option ℚ
  liquidationPrice : Option ℚ
  liquidationSafe : Bool
deriving DecidableEq

/-- The request that the risk and execution layers still have to approve. -/
structure MoneyManagementPlan where
  stopLoss : ℚ
  takeProfit : Option ℚ
  requestedQuantity : ℚ
  requestedLeverage : ℕ
  initialRiskAmount : ℚ
  diagnostics : Diagnostics
deriving DecidableEq

/-- The check of a plan's number. -/
def positive (value : ℚ) (name : String) : Except Refusal Unit :=
  if 0 < value then .ok ()
  else .error (.fault (.valueError (name ++ " must be a finite positive float")))

/-- The constructor of a plan. -/
def MoneyManagementPlan.postInit (plan : MoneyManagementPlan) :
    Except Refusal MoneyManagementPlan := do
  positive plan.stopLoss "stop_loss"
  (match plan.takeProfit with
    | none => .ok ()
    | some takeProfit => positive takeProfit "take_profit")
  positive plan.requestedQuantity "requested_quantity"
  positive plan.initialRiskAmount "initial_risk_amount"
  if 0 < plan.requestedLeverage then .ok plan
  else .error (.fault (.valueError "requested_leverage must be a positive integer"))

theorem MoneyManagementPlan.postInit_eq_ok {plan plan' : MoneyManagementPlan}
    (h : plan.postInit = .ok plan') : plan' = plan := by
  unfold MoneyManagementPlan.postInit at h
  simp only [Except.bind_eq_ok] at h
  obtain ⟨-, -, -, -, -, -, -, -, h⟩ := h
  by_cases hleverage : 0 < plan.requestedLeverage
  · rw [if_pos hleverage] at h
    cases h
    rfl
  · rw [if_neg hleverage] at h
    cases h

/-! ### The common contract -/

def entrySide (decision : DecisionIntent) : Except Refusal ℤ :=
  match decision.action with
  | .enterLong => .ok 1
  | .enterShort => .ok (-1)
  | .exit => .error (.moneyManagementError "money management accepts entry decisions only")
  | .hold => .error (.moneyManagementError "money management accepts entry decisions only")

/-- `MoneyManagementBase.risk_inputs`: the risk budget and the quantity it buys. -/
def riskInputs (market : MarketSnapshot) (account : AccountRiskSnapshot) (limits : RiskLimits)
    (stopDistance : ℚ) : Except Refusal (ℚ × ℚ) := do
  refuseUnless (0 < stopDistance) "stop distance must be finite and positive"
  let riskBudget := account.equity * limits.riskPerTrade
  let quantity := riskBudget / stopDistance
  refuseUnless (0 < quantity) "requested quantity must be finite and positive"
  refuseUnless (0 < market.referencePrice * quantity) "requested notional must be positive"
  return (riskBudget, quantity)

/-- `_liquidation_price` of the policies that check it. -/
def liquidationPriceAt (price : ℚ) (leverage : ℕ) (mmr : ℚ) (side : ℤ) : ℚ :=
  if 0 < side then price * (1 - 1 / leverage + mmr) else price * (1 + 1 / leverage - mmr)

/-- A liquidation price strictly beyond a stop, on the losing side. -/
def Beyond (side : ℤ) (liquidation stop : ℚ) : Prop :=
  if 0 < side then liquidation < stop else stop < liquidation

instance (side : ℤ) (liquidation stop : ℚ) : Decidable (Beyond side liquidation stop) :=
  inferInstanceAs (Decidable (if 0 < side then liquidation < stop else stop < liquidation))

/-! ### The deployed policies -/

/-- `ManualMoneyManagement`: the legacy stop, target and leverage. -/
structure ManualMoneyManagement where
  leverage : ℕ
  rewardRisk : ℚ
  atrStopMultiple : ℚ
  leverage_pos : 1 ≤ leverage
  leverage_le : leverage ≤ 100
  le_rewardRisk : 1 / 10 ≤ rewardRisk
  rewardRisk_le : rewardRisk ≤ 10
  le_atrStopMultiple : 1 / 10 ≤ atrStopMultiple
  atrStopMultiple_le : atrStopMultiple ≤ 10

def ManualMoneyManagement.planEntry (policy : ManualMoneyManagement) (decision : DecisionIntent)
    (market : MarketSnapshot) (account : AccountRiskSnapshot) (limits : RiskLimits) :
    Except Refusal MoneyManagementPlan := do
  let side ← entrySide decision
  let stopDistance := market.volatility * policy.atrStopMultiple
  let inputs ← riskInputs market account limits stopDistance
  let stopLoss := market.referencePrice - side * stopDistance
  let takeProfit := market.referencePrice + side * stopDistance * policy.rewardRisk
  refuseUnless (¬(stopLoss ≤ 0 ∨ takeProfit ≤ 0)) "manual protection prices must remain positive"
  let leverage := if account.marketType = .futures then policy.leverage else 1
  refuseUnless (leverage ≤ limits.maxLeverage) "manual leverage exceeds the global maximum"
  { stopLoss := stopLoss
    takeProfit := some takeProfit
    requestedQuantity := inputs.2
    requestedLeverage := leverage
    initialRiskAmount := inputs.1
    diagnostics := {
      policyId := "manual"
      policyVersion := "1.0.0"
      volatilityName := market.volatilityName
      volatility := market.volatility
      volatilityTimestamp := market.volatilityTimestamp
      stopDistance := stopDistance
      riskBudget := inputs.1
      requestedNotional := none
      liquidationPrice := none
      liquidationSafe := true } : MoneyManagementPlan }.postInit

/-- `TurtleMoneyManagement`: sizing by the daily N. -/
structure TurtleMoneyManagement where
  stopNMultiple : ℚ
  leverageCap : ℕ
  le_stopNMultiple : 1 / 10 ≤ stopNMultiple
  stopNMultiple_le : stopNMultiple ≤ 10
  leverageCap_pos : 1 ≤ leverageCap
  leverageCap_le : leverageCap ≤ 100

def TurtleMoneyManagement.planEntry (policy : TurtleMoneyManagement) (decision : DecisionIntent)
    (market : MarketSnapshot) (account : AccountRiskSnapshot) (limits : RiskLimits) :
    Except Refusal MoneyManagementPlan := do
  let side ← entrySide decision
  let stopDistance := market.volatility * policy.stopNMultiple
  let inputs ← riskInputs market account limits stopDistance
  let stopLoss := market.referencePrice - side * stopDistance
  refuseUnless (0 < stopLoss) "turtle stop price must remain positive"
  let notional := market.referencePrice * inputs.2
  let requestedLeverage := max 1 ⌈notional / account.availableCash⌉₊
  let leverageLimit := min policy.leverageCap limits.maxLeverage
  (match account.marketType with
    | .spot => refuseUnless (requestedLeverage ≤ 1) "turtle spot plan exceeds available cash"
    | .futures =>
      refuseUnless (requestedLeverage ≤ leverageLimit)
        "turtle plan requires leverage above the configured cap")
  let leverage := if account.marketType = .spot then 1 else requestedLeverage
  let liquidation := liquidationPriceAt market.referencePrice leverage
    limits.maintenanceMarginRate side
  refuseUnless (Beyond side liquidation stopLoss) "liquidation would occur before the turtle stop"
  { stopLoss := stopLoss
    takeProfit := none
    requestedQuantity := inputs.2
    requestedLeverage := leverage
    initialRiskAmount := inputs.1
    diagnostics := {
      policyId := "turtle"
      policyVersion := "1.0.0"
      volatilityName := market.volatilityName
      volatility := market.volatility
      volatilityTimestamp := market.volatilityTimestamp
      stopDistance := stopDistance
      riskBudget := inputs.1
      requestedNotional := some notional
      liquidationPrice := some liquidation
      liquidationSafe := decide (Beyond side liquidation stopLoss) } :
        MoneyManagementPlan }.postInit

/-- `SignalExitAtrMoneyManagement`: a stop, and every exit left to the strategy. -/
structure SignalExitAtrMoneyManagement where
  atrStopMultiple : ℚ
  leverageCap : ℕ
  le_atrStopMultiple : 1 / 10 ≤ atrStopMultiple
  atrStopMultiple_le : atrStopMultiple ≤ 10
  leverageCap_pos : 1 ≤ leverageCap
  leverageCap_le : leverageCap ≤ 100

/-- `SignalExitAtrMoneyManagement.plan_entry`: spot plans are refused by their notional, not by
a rounded leverage. -/
def SignalExitAtrMoneyManagement.planEntry (policy : SignalExitAtrMoneyManagement)
    (decision : DecisionIntent) (market : MarketSnapshot) (account : AccountRiskSnapshot)
    (limits : RiskLimits) : Except Refusal MoneyManagementPlan := do
  let side ← entrySide decision
  let stopDistance := market.volatility * policy.atrStopMultiple
  let inputs ← riskInputs market account limits stopDistance
  let stopLoss := market.referencePrice - side * stopDistance
  refuseUnless (0 < stopLoss) "stop price must remain positive"
  let notional := market.referencePrice * inputs.2
  let needed := max 1 ⌈notional / account.availableCash⌉₊
  (match account.marketType with
    | .spot => refuseUnless (notional ≤ account.availableCash) "spot plan exceeds available cash"
    | .futures =>
      refuseUnless (needed ≤ min policy.leverageCap limits.maxLeverage)
        "plan requires leverage above the cap")
  let leverage := if account.marketType = .spot then 1 else needed
  let liquidation := liquidationPriceAt market.referencePrice leverage
    limits.maintenanceMarginRate side
  refuseUnless (Beyond side liquidation stopLoss) "liquidation would occur before the stop"
  { stopLoss := stopLoss
    takeProfit := none
    requestedQuantity := inputs.2
    requestedLeverage := leverage
    initialRiskAmount := inputs.1
    diagnostics := {
      policyId := "signal-exit-atr"
      policyVersion := "1.0.0"
      volatilityName := market.volatilityName
      volatility := market.volatility
      volatilityTimestamp := market.volatilityTimestamp
      stopDistance := stopDistance
      riskBudget := inputs.1
      requestedNotional := some notional
      liquidationPrice := some liquidation
      liquidationSafe := decide (Beyond side liquidation stopLoss) } :
        MoneyManagementPlan }.postInit

/-- A deployed policy. -/
inductive Policy
  | manual (policy : ManualMoneyManagement)
  | turtle (policy : TurtleMoneyManagement)
  | signalExitAtr (policy : SignalExitAtrMoneyManagement)

/-- `plan_entry` of a deployed policy. -/
def Policy.planEntry : Policy → DecisionIntent → MarketSnapshot → AccountRiskSnapshot →
    RiskLimits → Except Refusal MoneyManagementPlan
  | .manual policy => policy.planEntry
  | .turtle policy => policy.planEntry
  | .signalExitAtr policy => policy.planEntry

/-! ### What an accepted plan is -/

variable {decision : DecisionIntent} {market : MarketSnapshot} {account : AccountRiskSnapshot}
  {limits : RiskLimits} {plan : MoneyManagementPlan}

/-- The side of an entry decision. -/
theorem entrySide_eq_ok {side : ℤ} (h : entrySide decision = .ok side) : side = 1 ∨ side = -1 := by
  unfold entrySide at h
  cases haction : decision.action with
  | enterLong =>
    rw [haction] at h
    cases h
    exact Or.inl rfl
  | enterShort =>
    rw [haction] at h
    cases h
    exact Or.inr rfl
  | exit =>
    rw [haction] at h
    cases h
  | hold =>
    rw [haction] at h
    cases h

/-- A manual plan: the configured leverage, the stop at a multiple of the volatility, and a
report of safety in any case. -/
theorem ManualMoneyManagement.planEntry_eq_ok {policy : ManualMoneyManagement}
    (h : policy.planEntry decision market account limits = .ok plan) :
    ∃ side, entrySide decision = .ok side ∧
      plan.stopLoss =
        market.referencePrice - side * (market.volatility * policy.atrStopMultiple) ∧
      plan.requestedLeverage = (if account.marketType = .futures then policy.leverage else 1) ∧
      plan.diagnostics.liquidationSafe = true := by
  unfold ManualMoneyManagement.planEntry at h
  simp only [Except.bind_eq_ok] at h
  obtain ⟨side, hside, inputs, -, -, -, -, -, h⟩ := h
  obtain rfl := MoneyManagementPlan.postInit_eq_ok h
  exact ⟨side, hside, rfl, rfl, rfl⟩

/-- A checked plan: the liquidation price at its leverage is beyond its stop. -/
structure IsChecked (decision : DecisionIntent) (market : MarketSnapshot) (limits : RiskLimits)
    (plan : MoneyManagementPlan) : Prop where
  beyond : ∃ side, entrySide decision = .ok side ∧ Beyond side
    (liquidationPriceAt market.referencePrice plan.requestedLeverage limits.maintenanceMarginRate
      side) plan.stopLoss
  reported : plan.diagnostics.liquidationSafe = true

theorem TurtleMoneyManagement.planEntry_eq_ok {policy : TurtleMoneyManagement}
    (h : policy.planEntry decision market account limits = .ok plan) :
    IsChecked decision market limits plan := by
  unfold TurtleMoneyManagement.planEntry at h
  simp only [Except.bind_eq_ok, refuseUnless_eq_ok] at h
  obtain ⟨side, hside, inputs, -, -, -, -, -, -, hbeyond, h⟩ := h
  obtain rfl := MoneyManagementPlan.postInit_eq_ok h
  exact ⟨⟨side, hside, hbeyond⟩, decide_eq_true hbeyond⟩

theorem SignalExitAtrMoneyManagement.planEntry_eq_ok {policy : SignalExitAtrMoneyManagement}
    (h : policy.planEntry decision market account limits = .ok plan) :
    IsChecked decision market limits plan := by
  unfold SignalExitAtrMoneyManagement.planEntry at h
  simp only [Except.bind_eq_ok, refuseUnless_eq_ok] at h
  obtain ⟨side, hside, inputs, -, -, -, -, -, -, hbeyond, h⟩ := h
  obtain rfl := MoneyManagementPlan.postInit_eq_ok h
  exact ⟨⟨side, hside, hbeyond⟩, decide_eq_true hbeyond⟩

end MoneyManagement
end TradingSystem
