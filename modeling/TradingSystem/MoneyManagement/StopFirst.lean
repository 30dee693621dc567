import TradingSystem.MoneyManagement.Policies
import Mathlib.Tactic.FieldSimp
import Mathlib.Tactic.Linarith

/-!
# The stop before the liquidation

A stop beyond the liquidation price is never honoured, since the position is liquidated first.
Two of the deployed policies refuse such a plan. The manual policy takes its leverage from the
configuration and reports every plan as safe.

* `StopHonoured` — the liquidation price at the planned leverage is strictly beyond the stop.
* `LeverageFits` — for the manual policy, the stop distance and the maintenance margin fit into
  the margin of the leverage.
* `stopHonoured_iff` — the accepted plans of a policy honour their stop exactly then.
* `not_stopHonoured_of_hundred` — an accepted manual plan at leverage one hundred.
-/

namespace TradingSystem

open Logic Numeric

namespace MoneyManagement

variable {policy : Policy} {decision : DecisionIntent} {market : MarketSnapshot}
  {account : AccountRiskSnapshot} {limits : RiskLimits} {plan : MoneyManagementPlan}

/-- **The stop is honoured**: the liquidation price at the planned leverage lies strictly beyond
the planned stop, on the losing side. -/
def StopHonoured (decision : DecisionIntent) (market : MarketSnapshot) (limits : RiskLimits)
    (plan : MoneyManagementPlan) : Prop :=
  ∀ side, entrySide decision = .ok side → Beyond side
    (liquidationPriceAt market.referencePrice plan.requestedLeverage limits.maintenanceMarginRate
      side) plan.stopLoss

/-- Safety is reported only of a plan whose stop is honoured. -/
def SafetyReported (decision : DecisionIntent) (market : MarketSnapshot) (limits : RiskLimits)
    (plan : MoneyManagementPlan) : Prop :=
  plan.diagnostics.liquidationSafe = true → StopHonoured decision market limits plan

/-- The stop distance and the maintenance margin fit into the margin of a leverage. -/
def Fits (market : MarketSnapshot) (limits : RiskLimits) (multiple : ℚ) (leverage : ℕ) : Prop :=
  market.volatility * multiple + limits.maintenanceMarginRate * market.referencePrice <
    market.referencePrice / leverage

/-- What the manual policy does not check, and the others need not be asked. -/
def LeverageFits (market : MarketSnapshot) (limits : RiskLimits) : Policy → Prop
  | .manual policy => Fits market limits policy.atrStopMultiple policy.leverage
  | .turtle _ => True
  | .signalExitAtr _ => True

/-- **Beyond the stop**, by the margin: on either side the liquidation price is the margin of the
leverage away, less the maintenance margin. -/
theorem beyond_iff_fits {side : ℤ} {multiple : ℚ} {leverage : ℕ} (hside : side = 1 ∨ side = -1) :
    Beyond side (liquidationPriceAt market.referencePrice leverage limits.maintenanceMarginRate
        side) (market.referencePrice - side * (market.volatility * multiple)) ↔
      Fits market limits multiple leverage := by
  have hmargin : market.referencePrice / leverage = market.referencePrice * (1 / leverage) := by
    rw [mul_one_div]
  unfold Beyond liquidationPriceAt Fits
  rw [hmargin]
  rcases hside with rfl | rfl
  · rw [if_pos one_pos, if_pos one_pos]
    push_cast
    constructor <;> intro h <;> linarith
  · rw [if_neg (by decide), if_neg (by decide)]
    push_cast
    constructor <;> intro h <;> linarith

theorem IsChecked.stopHonoured (h : IsChecked decision market limits plan) :
    StopHonoured decision market limits plan := by
  obtain ⟨side, hside, hbeyond⟩ := h.beyond
  intro side' hside'
  rw [hside] at hside'
  cases hside'
  exact hbeyond

/-- **The accepted futures plans honour their stop** exactly when the policy checks it, or the
configured leverage leaves room for the stop and the maintenance margin. -/
theorem stopHonoured_iff (hfutures : account.marketType = .futures)
    (h : policy.planEntry decision market account limits = .ok plan) :
    (StopHonoured decision market limits plan ∧ SafetyReported decision market limits plan) ↔
      LeverageFits market limits policy := by
  cases policy with
  | manual manual =>
    obtain ⟨side, hside, hstop, hleverage, -⟩ := ManualMoneyManagement.planEntry_eq_ok h
    rw [if_pos hfutures] at hleverage
    -- the manual policy takes the configured leverage without asking where the stop is
    have hfits : StopHonoured decision market limits plan ↔
        LeverageFits market limits (.manual manual) := by
      change _ ↔ Fits market limits manual.atrStopMultiple manual.leverage
      rw [← beyond_iff_fits (entrySide_eq_ok hside)]
      unfold StopHonoured
      rw [hside, hstop, hleverage]
      simp only [Except.ok.injEq, forall_eq']
    constructor
    · intro hboth
      exact hfits.1 hboth.1
    · intro hcondition
      exact ⟨hfits.2 hcondition, fun _ => hfits.2 hcondition⟩
  | turtle turtle =>
    -- the other policies refuse a plan whose stop is not reached first
    have hstop := (TurtleMoneyManagement.planEntry_eq_ok h).stopHonoured
    exact ⟨fun _ => trivial, fun _ => ⟨hstop, fun _ => hstop⟩⟩
  | signalExitAtr signalExitAtr =>
    have hstop := (SignalExitAtrMoneyManagement.planEntry_eq_ok h).stopHonoured
    exact ⟨fun _ => trivial, fun _ => ⟨hstop, fun _ => hstop⟩⟩

/-! ### A manual plan at leverage one hundred -/

theorem hundred_pos : Binary64.zero < Binary64.ofRat 100 :=
  Binary64.zero_lt_ofRat (by norm_num)

theorem zero_le_certainty : Binary64.zero ≤ Binary64.ofRat 1 :=
  (Binary64.lt_def.1 (Binary64.zero_lt_ofRat le_rfl)).le

theorem certainty_le : Binary64.ofRat 1 ≤ Binary64.ofRat 1 := Binary64.le_def.2 le_rfl

/-- A decision to enter long at a hundred. -/
def longDecision : DecisionIntent where
  action := .enterLong
  symbol := "BTCUSDT"
  timestamp := 0
  referencePrice := Binary64.ofRat 100
  confidence := Binary64.ofRat 1
  reason := ""
  confidence_nonneg := zero_le_certainty
  confidence_le_one := certainty_le
  referencePrice_pos := hundred_pos

theorem hundred_pos_rat : (0 : ℚ) < 100 := by norm_num

theorem two_pos_rat : (0 : ℚ) < 2 := by norm_num

theorem volatilityName_ne : "ATR" ≠ "" := by decide

/-- A market at a hundred with a volatility of two. -/
def hundredMarket : MarketSnapshot :=
  ⟨100, 2, "ATR", 0, hundred_pos_rat, two_pos_rat, volatilityName_ne⟩

/-- A futures account of one hundred. -/
def hundredAccount : AccountRiskSnapshot := ⟨100, 100, .futures, hundred_pos_rat, hundred_pos_rat⟩

theorem risk_pos : (0 : ℚ) < 1 / 100 := by norm_num

theorem rate_nonneg : (0 : ℚ) ≤ 4 / 1000 := by norm_num

theorem rate_lt : (4 / 1000 : ℚ) < 1 := by norm_num

/-- The global limits at the default maintenance margin rate. -/
def defaultLimits : RiskLimits :=
  ⟨1 / 100, 4 / 1000, 100, risk_pos, le_rfl, rate_nonneg, rate_lt, Nat.succ_pos 99⟩

theorem tenth_le_two : (1 / 10 : ℚ) ≤ 2 := by norm_num

theorem two_le_ten : (2 : ℚ) ≤ 10 := by norm_num

/-- The manual policy with its default multiples. -/
def manualAt (leverage : ℕ) (hpos : 1 ≤ leverage) (hle : leverage ≤ 100) :
    ManualMoneyManagement :=
  ⟨leverage, 2, 2, hpos, hle, tenth_le_two, two_le_ten, tenth_le_two, two_le_ten⟩

/-- At leverage ten the stop of four and the rate fit into the margin of ten. -/
theorem stopHonoured_of_ten : ∃ plan,
    (Policy.manual (manualAt 10 (by decide) (by decide))).planEntry longDecision hundredMarket
      hundredAccount defaultLimits = .ok plan ∧
    StopHonoured longDecision hundredMarket defaultLimits plan ∧
      SafetyReported longDecision hundredMarket defaultLimits plan := by
  obtain ⟨plan, hplan, -⟩ := exists_of_returnsWith (show returnsWith
    ((Policy.manual (manualAt 10 (by decide) (by decide))).planEntry longDecision hundredMarket
      hundredAccount defaultLimits) (fun _ => true) = true by decide +kernel)
  refine ⟨plan, hplan, (stopHonoured_iff (show hundredAccount.marketType = .futures from rfl)
    hplan).2 ?_⟩
  change (2 * 2 + 4 / 1000 * 100 : ℚ) < 100 / (10 : ℕ)
  norm_num

/-- **At leverage one hundred** the plan is accepted and reported as safe. Its liquidation price
is 99.4, above its stop of 96. -/
theorem not_stopHonoured_of_hundred : ∃ plan,
    (Policy.manual (manualAt 100 (by decide) (by decide))).planEntry longDecision hundredMarket
      hundredAccount defaultLimits = .ok plan ∧ plan.diagnostics.liquidationSafe = true ∧
      ¬StopHonoured longDecision hundredMarket defaultLimits plan := by
  obtain ⟨plan, hplan, htest⟩ := exists_of_returnsWith (show returnsWith
    ((Policy.manual (manualAt 100 (by decide) (by decide))).planEntry longDecision hundredMarket
      hundredAccount defaultLimits) (fun plan => plan.diagnostics.liquidationSafe &&
        decide (¬Beyond 1 (liquidationPriceAt 100 plan.requestedLeverage (4 / 1000) 1)
          plan.stopLoss)) = true by decide +kernel)
  rw [Bool.and_eq_true, decide_eq_true_eq] at htest
  exact ⟨plan, hplan, htest.1, fun hstop => htest.2 (hstop 1 rfl)⟩

end MoneyManagement
end TradingSystem
