import TradingSystem.Types.Candle

/-!
# Strategy answers

What a strategy returns for a confirmed bar: nothing, a decision without sizing
that a money-management policy turns into a signal, or a finished signal. The
constructors' checks are fields, so a signal with a non-positive price or
protection level cannot be built.
-/

namespace TradingSystem

open Numeric

/-- A decision with evidence and proposed protection levels. `requestedQuantity`
is `metadata["money_management"]["requested_quantity"]` when it is a number. -/
@[ext] structure TradingSignal where
  symbol : String
  timestamp : ℤ
  confidence : Binary64
  price : Binary64
  stopLoss : Option Binary64
  takeProfit : Option Binary64
  marketType : MarketType
  leverage : Option ℕ
  reason : String
  requestedQuantity : Option Binary64
  confidence_nonneg : Binary64.zero ≤ confidence
  confidence_le_one : confidence ≤ Binary64.ofRat 1
  price_pos : Binary64.zero < price
  stopLoss_pos : ∀ level ∈ stopLoss, Binary64.zero < level
  takeProfit_pos : ∀ level ∈ takeProfit, Binary64.zero < level
  leverage_pos : ∀ value ∈ leverage, 0 < value

instance : DecidableEq TradingSignal := fun _ _ => decidable_of_iff' _ TradingSignal.ext_iff

/-- The explicit action selected by a strategy. -/
inductive DecisionAction
  | enterLong | enterShort | exit | hold
deriving DecidableEq, Repr

/-- A strategy decision without sizing or leverage. -/
@[ext] structure DecisionIntent where
  action : DecisionAction
  symbol : String
  timestamp : ℤ
  referencePrice : Binary64
  confidence : Binary64
  reason : String
  confidence_nonneg : Binary64.zero ≤ confidence
  confidence_le_one : confidence ≤ Binary64.ofRat 1
  referencePrice_pos : Binary64.zero < referencePrice

instance : DecidableEq DecisionIntent := fun _ _ => decidable_of_iff' _ DecisionIntent.ext_iff

/-- What a policy's `plan_entry` proposes for an entry decision. -/
@[ext] structure EntryPlan where
  stopLoss : Option Binary64
  takeProfit : Option Binary64
  requestedLeverage : ℕ
  requestedQuantity : Binary64
  stopLoss_pos : ∀ level ∈ stopLoss, Binary64.zero < level
  takeProfit_pos : ∀ level ∈ takeProfit, Binary64.zero < level
  requestedLeverage_pos : 0 < requestedLeverage

instance : DecidableEq EntryPlan := fun _ _ => decidable_of_iff' _ EntryPlan.ext_iff

/-- The answer to one confirmed bar. With an entry decision comes the policy's
plan; `none` in its place is a `MoneyManagementError`. -/
inductive StrategyAnswer
  | nothing
  | signal (signal : TradingSignal)
  | decision (decision : DecisionIntent) (plan : Option EntryPlan)
deriving DecidableEq

end TradingSystem
