import TradingSystem.Types.Position

/-!
# Isolated liquidation

The liquidation price of a fresh position from its leverage, of a running one
from the margin funding has left it, and the trigger that compares an adverse
extreme with the stored price.
-/

namespace TradingSystem

/-- The level of an entry at a fraction of margin, before it is quantized: each operation is
rounded to the context. -/
def liquidationResult (entry fraction mmr : Decimal) (side : PositionSide) : Decimal :=
  if side = .long then contextRound (entry * contextRound (contextRound (1 - fraction) + mmr))
  else contextRound (entry * contextRound (contextRound (1 + fraction) - mmr))

/-- `liquidation.price`: from the entry price and the leverage. A leverage need not divide one, so
the term is rounded to the context. -/
def liquidationPrice (entry : Decimal) (leverage : ℕ) (mmr : Decimal) (side : PositionSide) :
    Except Fault Decimal := do
  require (0 < entry) (.valueError "entry must be positive")
  require (0 < leverage) (.valueError "leverage must be positive")
  require (0 ≤ mmr ∧ mmr < 1) (.valueError "mmr must be between zero and one")
  let leverageTerm := contextRound (1 / leverage)
  match side with
  | .long => return quantizePrice (liquidationResult entry leverageTerm mmr .long)
  | .short => return quantizePrice (liquidationResult entry leverageTerm mmr .short)
  | .both => throw (.valueError "liquidation direction is ambiguous for PositionSide.BOTH")

/-- `liquidation.is_triggered`: whether an adverse extreme reaches a level. -/
def liquidationTriggered (side : PositionSide) (level marketPrice : Decimal) :
    Except Fault Bool :=
  match side with
  | .long => .ok (marketPrice ≤ level)
  | .short => .ok (level ≤ marketPrice)
  | .both => .error (.valueError "liquidation direction is ambiguous for PositionSide.BOTH")

/-- `liquidation.price_from_margin`: after funding has changed the margin. The notional of a
position that the tables hold has fewer than 28 digits. -/
def liquidationPriceFromMargin (position : Position) (mmr : Decimal) : Except Fault Decimal := do
  require (0 ≤ mmr ∧ mmr < 1) (.valueError "mmr must be between zero and one")
  require (0 < position.quantity ∧ 0 < position.entryPrice)
    (.valueError "an open position is required")
  require (0 ≤ position.margin) (.valueError "isolated margin must not be negative")
  let notional := position.quantity * position.entryPrice
  let marginFraction := contextRound (position.margin / notional)
  match position.side with
  | .long =>
    return quantizePrice (max 0 (liquidationResult position.entryPrice marginFraction mmr .long))
  | .short =>
    return quantizePrice (max 0 (liquidationResult position.entryPrice marginFraction mmr .short))
  | .both => throw (.valueError "liquidation direction is ambiguous for PositionSide.BOTH")

end TradingSystem
