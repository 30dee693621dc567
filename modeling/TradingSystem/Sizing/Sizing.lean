import TradingSystem.Types.Enums
import TradingSystem.Numeric.Binary64

/-!
# Sizing

Float sizing of an entry and the aggregate exposure limit. Sizing happens at the
decision, in floats; the matcher caps the result in decimals one bar later.
-/

namespace TradingSystem

open Numeric

/-- The float `0.01`: `MAX_RISK_PER_TRADE` and every exposure limit. -/
def onePercent : Binary64 := Binary64.ofRat (1 / 100)

/-- `risk_money.size`: risk fraction of the equity over the stop distance. -/
def riskSize (riskPerTrade equity stopDistance : Binary64) : Except Fault Binary64 := do
  require (Binary64.zero < riskPerTrade ∧ riskPerTrade ≤ onePercent)
    (.valueError "risk_per_trade must be in (0, 0.01]")
  require (Binary64.zero < equity ∧ Binary64.zero < stopDistance)
    (.valueError "equity and stop_distance must be positive")
  return (riskPerTrade.mul equity).div stopDistance

/-- `wallet_pct.size`: a fraction of the available balance. -/
def walletPctSize (availableBalance positionSizePct : Binary64) : Except Fault Binary64 := do
  require (Binary64.zero ≤ availableBalance)
    (.valueError "available_balance must be non-negative")
  require (Binary64.zero ≤ positionSizePct ∧ positionSizePct ≤ Binary64.ofRat 1)
    (.valueError "position_size_pct must be between zero and one")
  return availableBalance.mul positionSizePct

/-- `nextafter(value, inf)` of a positive float. -/
def nextAfter (value : Binary64) : Binary64 :=
  Binary64.ofRat (value.val + binary64.ulp value.val)

/-- `_within_limit`: the exactly rounded sum of the risks against the next float
above the limit. The limits by market, correlation group and direction are this
one check. -/
def withinLimit (risks : List Binary64) (limit : Binary64) : Except Fault Bool := do
  require (Binary64.zero ≤ limit) (.valueError "limit must be finite and non-negative")
  require (∀ risk ∈ risks, Binary64.zero ≤ risk)
    (.valueError "risk contributions must be finite and non-negative")
  return decide (Binary64.ofRat (risks.map Binary64.val).sum ≤ nextAfter limit)

end TradingSystem
