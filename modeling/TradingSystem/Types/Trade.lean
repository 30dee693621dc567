import TradingSystem.Types.Order

/-!
# Completed trades

The record of one closed position and the checks of its constructor: positive
prices and quantities, the liquidation flag paired with the exit reason, and net
profit equal to gross profit minus every cost. `Trade.Valid` collects what an
accepted trade satisfies.
-/

namespace TradingSystem

open Numeric Logic

/-- A completed trade, suitable for profit and R-multiple analysis. -/
structure Trade where
  symbol : String
  side : OrderSide
  marketType : MarketType
  entryPrice : Decimal
  entryQuantity : Decimal
  entryTime : ℤ
  exitPrice : Decimal
  exitQuantity : Decimal
  exitTime : ℤ
  exitReason : ExitReason
  grossPnl : Decimal
  totalFee : Decimal
  slippage : Decimal
  fundingCost : Decimal
  liquidationPenalty : Decimal
  netPnl : Decimal
  returnPct : Decimal
  r0 : Option Decimal
  leverage : ℕ
  liquidated : Bool
  holdDurationSeconds : ℤ
  signalConfidence : Binary64
  reason : String
deriving DecidableEq

namespace Trade

/-- The constructor: quantize every decimal, then check. The source type is
always `backtest`. -/
def postInit (trade : Trade) : Except Fault Trade := do
  let trade := { trade with
    entryPrice := quantizePrice trade.entryPrice
    entryQuantity := quantizeAmount trade.entryQuantity
    exitPrice := quantizePrice trade.exitPrice
    exitQuantity := quantizeAmount trade.exitQuantity
    grossPnl := quantizeAmount trade.grossPnl
    totalFee := quantizeAmount trade.totalFee
    slippage := quantizeAmount trade.slippage
    fundingCost := quantizeAmount trade.fundingCost
    liquidationPenalty := quantizeAmount trade.liquidationPenalty
    netPnl := quantizeAmount trade.netPnl
    returnPct := quantizePercent trade.returnPct
    r0 := trade.r0.map quantizeAmount }
  require (0 < trade.entryPrice ∧ 0 < trade.exitPrice)
    (.valueError "trade prices must be positive")
  require (0 < trade.entryQuantity ∧ 0 < trade.exitQuantity)
    (.valueError "trade quantities must be positive")
  require (0 ≤ trade.totalFee ∧ 0 ≤ trade.slippage)
    (.valueError "fees and slippage must be non-negative")
  require (0 ≤ trade.liquidationPenalty)
    (.valueError "liquidation_penalty must be non-negative")
  require (∀ value ∈ trade.r0, 0 ≤ value) (.valueError "r0 must be non-negative or None")
  require (0 < trade.leverage) (.valueError "leverage must be positive")
  require (trade.liquidated = true ↔ trade.exitReason = .liquidation)
    (.valueError "liquidated must pair with exit_reason LIQUIDATION")
  require (trade.liquidated = false → trade.liquidationPenalty = 0)
    (.valueError "non-liquidated trades must have zero liquidation_penalty")
  require (trade.netPnl = quantizeAmount (trade.grossPnl - trade.totalFee - trade.slippage -
      trade.fundingCost - trade.liquidationPenalty))
    (.valueError "net_pnl must equal gross_pnl minus fee, slippage, funding, and penalty")
  require (trade.entryTime ≤ trade.exitTime) (.valueError "exit_time must not precede entry_time")
  require (0 ≤ trade.holdDurationSeconds)
    (.valueError "hold_duration_seconds must be non-negative")
  require (Binary64.zero ≤ trade.signalConfidence ∧ trade.signalConfidence ≤ Binary64.ofRat 1)
    (.valueError "signal_confidence must be between 0 and 1")
  return trade

/-- The decimals of a trade, quantized. -/
def quantized (trade : Trade) : Trade :=
  { trade with
    entryPrice := quantizePrice trade.entryPrice
    entryQuantity := quantizeAmount trade.entryQuantity
    exitPrice := quantizePrice trade.exitPrice
    exitQuantity := quantizeAmount trade.exitQuantity
    grossPnl := quantizeAmount trade.grossPnl
    totalFee := quantizeAmount trade.totalFee
    slippage := quantizeAmount trade.slippage
    fundingCost := quantizeAmount trade.fundingCost
    liquidationPenalty := quantizeAmount trade.liquidationPenalty
    netPnl := quantizeAmount trade.netPnl
    returnPct := quantizePercent trade.returnPct
    r0 := trade.r0.map quantizeAmount }

/-- What the constructor checks. -/
structure Valid (trade : Trade) : Prop where
  entryPrice_pos : 0 < trade.entryPrice
  exitPrice_pos : 0 < trade.exitPrice
  entryQuantity_pos : 0 < trade.entryQuantity
  exitQuantity_pos : 0 < trade.exitQuantity
  totalFee_nonneg : 0 ≤ trade.totalFee
  slippage_nonneg : 0 ≤ trade.slippage
  liquidationPenalty_nonneg : 0 ≤ trade.liquidationPenalty
  r0_nonneg : ∀ value ∈ trade.r0, 0 ≤ value
  leverage_pos : 0 < trade.leverage
  liquidated_iff : trade.liquidated = true ↔ trade.exitReason = .liquidation
  /-- The accounting identity of a completed trade. -/
  netPnl_eq : trade.netPnl = quantizeAmount (trade.grossPnl - trade.totalFee - trade.slippage -
    trade.fundingCost - trade.liquidationPenalty)
  entryTime_le : trade.entryTime ≤ trade.exitTime
  holdDurationSeconds_nonneg : 0 ≤ trade.holdDurationSeconds
  confidence : Binary64.zero ≤ trade.signalConfidence ∧ trade.signalConfidence ≤ Binary64.ofRat 1

/-- The constructor returns the quantized trade, and it is valid. -/
theorem postInit_eq_ok {trade result : Trade} (h : trade.postInit = .ok result) :
    result = trade.quantized ∧ result.Valid := by
  unfold postInit at h
  simp only [Except.bind_eq_ok, require_eq_ok] at h
  obtain ⟨-, ⟨h1, h2⟩, -, ⟨h3, h4⟩, -, ⟨h5, h6⟩, -, h7, -, h8, -, h9, -, h10, -, -, -, h11, -, h12,
    -, h13, -, h14, h⟩ := h
  cases h
  exact ⟨rfl, ⟨h1, h2, h3, h4, h5, h6, h7, h8, h9, h10, h11, h12, h13, h14⟩⟩

end Trade
end TradingSystem
