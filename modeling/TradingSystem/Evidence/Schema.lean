import TradingSystem.Engine.State

/-!
# The evidence tables

Decimals are stored as integers scaled by `10^8`, instants as epoch milliseconds.
`store` is that normalization for an EXECUTION and a TRADE row; `Checks` are the
CHECK constraints of the two tables on the stored columns, those on enumerated
text columns apart, which hold by the types of the rows.
-/

namespace TradingSystem

open Numeric Logic

/-! ### Scaled decimals -/

def decimalScale : Decimal := 100000000

def maxSqliteInteger : ℤ := 2 ^ 63 - 1

def scaleDecimal (value : Decimal) : Except Fault ℤ := do
  let scaled := value * decimalScale
  require (scaled = ⌊scaled⌋)
    (.valueError "Evidence Decimal values must be quantized to 8 places")
  require (|⌊scaled⌋| ≤ maxSqliteInteger)
    (.overflowError "scaled Evidence value exceeds SQLite INTEGER range")
  return ⌊scaled⌋

theorem decimalScale_mul_qAmount : decimalScale * qAmount = 1 := by
  norm_num [decimalScale, qAmount]

/-- Scaling counts units of `10^(-8)`. -/
theorem scaleDecimal_eq_ok {value : Decimal} {n : ℤ} :
    scaleDecimal value = .ok n ↔ value = n * qAmount ∧ |n| ≤ maxSqliteInteger := by
  have hunits : ∀ m : ℤ, value * decimalScale = m ↔ value = m * qAmount := by
    intro m
    have h := decimalScale_mul_qAmount
    constructor
    · intro hm
      rw [← hm, mul_assoc, h, mul_one]
    · rintro rfl
      rw [mul_assoc, mul_comm qAmount, h, mul_one]
  unfold scaleDecimal
  simp only [Except.bind_eq_ok, require_eq_ok]
  constructor
  · rintro ⟨-, hgrid, -, hrange, h⟩
    cases h
    exact ⟨(hunits _).1 hgrid, hrange⟩
  · rintro ⟨hvalue, hrange⟩
    -- on the grid the scaled value is its own floor
    have hfloor : ⌊value * decimalScale⌋ = n := by
      rw [(hunits n).2 hvalue, Int.floor_intCast]
    refine ⟨⟨⟩, ?_, ⟨⟩, ?_, ?_⟩
    · rw [hfloor]
      exact (hunits n).2 hvalue
    · rw [hfloor]
      exact hrange
    · rw [hfloor]
      rfl

/-- A scaled value is positive exactly when the value is. -/
theorem scaleDecimal_pos_iff {value : Decimal} {n : ℤ} (h : scaleDecimal value = .ok n) :
    0 < n ↔ 0 < value := by
  rw [(scaleDecimal_eq_ok.1 h).1, mul_pos_iff_of_pos_right qAmount_pos, Int.cast_pos]

theorem scaleDecimal_nonneg_iff {value : Decimal} {n : ℤ} (h : scaleDecimal value = .ok n) :
    0 ≤ n ↔ 0 ≤ value := by
  rw [(scaleDecimal_eq_ok.1 h).1, mul_nonneg_iff_of_pos_right qAmount_pos, Int.cast_nonneg_iff]

/-! ### EXECUTION -/

/-- A stored EXECUTION row. -/
structure StoredExecution where
  executionId : ℕ
  decisionId : Option ℕ
  orderId : OrderId
  executionTs : ℤ
  symbol : String
  side : OrderSide
  positionSide : PositionSide
  referencePrice : ℤ
  price : ℤ
  quantity : ℤ
  notional : ℤ
  fee : ℤ
  slippage : ℤ
  reduceOnly : Bool
  exitReason : Option ExitReason
  gapFilled : Bool
  qtyTruncated : Bool
deriving DecidableEq

/-- The normalization of an EXECUTION row. -/
def ExecutionRow.store (row : ExecutionRow) : Except Fault StoredExecution := do
  let referencePrice ← scaleDecimal row.referencePrice
  let price ← scaleDecimal row.price
  let quantity ← scaleDecimal row.quantity
  let notional ← scaleDecimal row.notional
  let fee ← scaleDecimal row.fee
  let slippage ← scaleDecimal row.slippage
  return {
    executionId := row.executionId
    decisionId := row.decisionId
    orderId := row.orderId
    executionTs := wholeMilliseconds row.executionTs
    symbol := row.symbol
    side := row.side
    positionSide := row.positionSide
    referencePrice := referencePrice
    price := price
    quantity := quantity
    notional := notional
    fee := fee
    slippage := slippage
    reduceOnly := row.reduceOnly
    exitReason := row.exitReason
    gapFilled := row.gapFilled
    qtyTruncated := row.qtyTruncated }

/-- The CHECK constraints of EXECUTION. -/
structure StoredExecution.Checks (row : StoredExecution) : Prop where
  referencePrice_pos : 0 < row.referencePrice
  price_pos : 0 < row.price
  quantity_pos : 0 < row.quantity
  notional_pos : 0 < row.notional
  fee_nonneg : 0 ≤ row.fee
  slippage_nonneg : 0 ≤ row.slippage
  /-- Only the exit at the end of the data has no decision. -/
  decided : row.decisionId.isSome ∨ row.exitReason = some .endOfData

/-- The columns of a stored row are the scaled values of the recorded one. -/
theorem ExecutionRow.store_eq_ok {row : ExecutionRow} {stored : StoredExecution}
    (h : row.store = .ok stored) :
    scaleDecimal row.referencePrice = .ok stored.referencePrice ∧
      scaleDecimal row.price = .ok stored.price ∧
      scaleDecimal row.quantity = .ok stored.quantity ∧
      scaleDecimal row.notional = .ok stored.notional ∧
      scaleDecimal row.fee = .ok stored.fee ∧ scaleDecimal row.slippage = .ok stored.slippage ∧
      stored.decisionId = row.decisionId ∧ stored.exitReason = row.exitReason := by
  unfold ExecutionRow.store at h
  simp only [Except.bind_eq_ok] at h
  obtain ⟨_, h1, _, h2, _, h3, _, h4, _, h5, _, h6, h⟩ := h
  cases h
  exact ⟨h1, h2, h3, h4, h5, h6, rfl, rfl⟩

/-! ### TRADE -/

/-- A stored TRADE row of a completed trade. -/
structure StoredTrade where
  tradeId : ℕ
  side : PositionSide
  marketType : MarketType
  symbol : String
  entryExecutionId : ℕ
  exitExecutionId : ℕ
  entryPrice : ℤ
  entryQuantity : ℤ
  entryTime : ℤ
  exitPrice : ℤ
  exitQuantity : ℤ
  exitTime : ℤ
  exitReason : ExitReason
  grossPnl : ℤ
  totalFee : ℤ
  slippage : ℤ
  liquidationPenalty : ℤ
  fundingCost : ℤ
  netPnl : ℤ
  returnPct : Binary64
  r0 : Option ℤ
  rMultiple : Option Binary64
  leverage : ℕ
  liquidated : Bool
  holdDurationSeconds : ℤ
  signalConfidence : Binary64
  reason : String
deriving DecidableEq

/-- Scale an optional decimal; NULL stays NULL. -/
def scaleOption (value : Option Decimal) : Except Fault (Option ℤ) :=
  match value with
  | none => .ok none
  | some value => do
    let scaled ← scaleDecimal value
    return some scaled

/-- The normalization of a TRADE row. -/
def TradeRow.store (row : TradeRow) : Except Fault StoredTrade := do
  let trade := row.trade
  let entryPrice ← scaleDecimal trade.entryPrice
  let entryQuantity ← scaleDecimal trade.entryQuantity
  let exitPrice ← scaleDecimal trade.exitPrice
  let exitQuantity ← scaleDecimal trade.exitQuantity
  let grossPnl ← scaleDecimal trade.grossPnl
  let totalFee ← scaleDecimal trade.totalFee
  let slippage ← scaleDecimal trade.slippage
  let liquidationPenalty ← scaleDecimal trade.liquidationPenalty
  let fundingCost ← scaleDecimal trade.fundingCost
  let netPnl ← scaleDecimal trade.netPnl
  let r0 ← scaleOption trade.r0
  return {
    tradeId := row.tradeId
    side := row.side
    marketType := trade.marketType
    symbol := trade.symbol
    entryExecutionId := row.entryExecutionId
    exitExecutionId := row.exitExecutionId
    entryPrice := entryPrice
    entryQuantity := entryQuantity
    entryTime := wholeMilliseconds trade.entryTime
    exitPrice := exitPrice
    exitQuantity := exitQuantity
    exitTime := wholeMilliseconds trade.exitTime
    exitReason := trade.exitReason
    grossPnl := grossPnl
    totalFee := totalFee
    slippage := slippage
    liquidationPenalty := liquidationPenalty
    fundingCost := fundingCost
    netPnl := netPnl
    returnPct := toFloat trade.returnPct
    r0 := r0
    rMultiple := row.rMultiple
    leverage := trade.leverage
    liquidated := trade.liquidated
    holdDurationSeconds := trade.holdDurationSeconds
    signalConfidence := trade.signalConfidence
    reason := trade.reason }

/-- The CHECK constraints of TRADE for a completed trade; a NULL `r0` passes. -/
structure StoredTrade.Checks (row : StoredTrade) : Prop where
  entryPrice_pos : 0 < row.entryPrice
  entryQuantity_pos : 0 < row.entryQuantity
  exitPrice_pos : 0 < row.exitPrice
  exitQuantity_pos : 0 < row.exitQuantity
  totalFee_nonneg : 0 ≤ row.totalFee
  slippage_nonneg : 0 ≤ row.slippage
  liquidationPenalty_nonneg : 0 ≤ row.liquidationPenalty
  r0_pos : ∀ value ∈ row.r0, 0 < value
  one_le_leverage : 1 ≤ row.leverage
  holdDurationSeconds_nonneg : 0 ≤ row.holdDurationSeconds
  confidence : Binary64.zero ≤ row.signalConfidence ∧ row.signalConfidence ≤ Binary64.ofRat 1
  entryTime_lt_exitTime : row.entryTime < row.exitTime
  netPnl_eq : row.netPnl = row.grossPnl - row.totalFee - row.slippage - row.fundingCost -
    row.liquidationPenalty
  liquidated_iff : row.liquidated = true ↔ row.exitReason = .liquidation

end TradingSystem
