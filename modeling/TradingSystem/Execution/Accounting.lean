import TradingSystem.Types.DecimalContext
import TradingSystem.Types.Position

/-!
# Equity accounting

Equity is cash plus the value of the open position: margin and unrealized profit
for futures, quantity at the current price for spot.
-/

namespace TradingSystem

/-- The position term of the equity identity. -/
def positionValue (position : Option Position) : Decimal :=
  match position with
  | none => quantizeAmount 0
  | some position =>
    match position.marketType with
    | .futures => quantizeAmount (position.margin + position.unrealizedPnl)
    | .spot => quantizeAmount (position.quantity * position.currentPrice)

/-- Equity as normalized cash plus the position term. -/
def recompute (cash : Decimal) (position : Option Position) : Decimal :=
  quantizeAmount (cash + positionValue position)

/-- The position term in a decimal context. -/
def positionValueIn (context : DecimalContext) (position : Option Position) :
    Except Fault Decimal :=
  match position with
  | none => context.quantize 0
  | some position =>
    match position.marketType with
    | .futures => context.quantize (context.round (position.margin + position.unrealizedPnl))
    | .spot => context.quantize (context.round (position.quantity * position.currentPrice))

/-- Equity in a decimal context. -/
def recomputeIn (context : DecimalContext) (cash : Decimal) (position : Option Position) :
    Except Fault Decimal := do
  let value ← positionValueIn context position
  context.quantize (context.round (cash + value))

/-- The equity of the books is that without a limit. -/
theorem recompute_eq (cash : Decimal) (position : Option Position) :
    recomputeIn exactContext cash position = .ok (recompute cash position) := by
  unfold recomputeIn recompute positionValueIn positionValue
  cases position with
  | none => rfl
  | some position =>
    dsimp only
    cases position.marketType <;> rfl

end TradingSystem
