import TradingSystem.Evidence.Schema
import TradingSystem.Execution.Fills
import TradingSystem.Engine.Ledger

/-!
# The slippage audit

The audit recomputes the slippage cost of every EXECUTION row from its rounded
price and compares it with the recorded one. The matcher rounds twice: the amount
per fill, then the price per unit. The second rounding error is multiplied by the
quantity in the recomputation, so the two agree only while that product stays
small: `Reproducible` says exactly when.

With the quantity `k` and the cost of the order `s` in units of `10^(-8)`, the price
moves by the integer nearest to `s * 10^8 / k`; the error of that, times `k`, is the
distance of `s * 10^8` from the nearest multiple of `k`.
-/

namespace TradingSystem

open Numeric Logic Matcher

/-! ### The audit -/

/-- A finding of the audit. -/
structure SlippageFailure where
  executionId : ℕ
  stored : ℤ
  expected : ℤ
  scaledUnitDelta : ℤ
deriving DecidableEq

/-- The cost recomputed from a stored row. -/
def expectedSlippage (row : StoredExecution) : ℤ :=
  roundHalfEven (((|row.price - row.referencePrice| * row.quantity : ℤ) : Decimal) / decimalScale)

/-- `_slippage_failures`: rows whose cost is off by more than one unit. -/
def slippageFailures (rows : List StoredExecution) : List SlippageFailure :=
  rows.filterMap fun row =>
    let expected := expectedSlippage row
    let delta := |row.slippage - expected|
    if 1 < delta then
      some {
        executionId := row.executionId
        stored := row.slippage
        expected := expected
        scaledUnitDelta := delta }
    else none

theorem slippageFailures_singleton_eq_nil {row : StoredExecution} :
    slippageFailures [row] = [] ↔ |expectedSlippage row - row.slippage| ≤ 1 := by
  rw [abs_sub_comm]
  unfold slippageFailures
  by_cases h : 1 < |row.slippage - expectedSlippage row|
  · simp [h]
  · simp [h, not_lt.1 h]

/-! ### When the recomputation agrees -/

/-- The distance of `t` from the nearest multiple of `k`. -/
def multipleDistance (t k : ℤ) : ℤ := min (t % k) (k - t % k)

/-- The slippage cost of a reference notional at a rate, in units. -/
def costUnits (referencePrice quantity rate : Decimal) : ℤ :=
  roundHalfEven (quantizeAmount (referencePrice * quantity) * rate / qAmount)

/-- The cost of filling `quantity` at `referencePrice` with slippage `rate` can be
recomputed from a price rounded to eight places: in units, the cost scaled up lies
within one and a half scales of a multiple of the quantity. -/
def Reproducible (referencePrice quantity rate : Decimal) : Prop :=
  let s := costUnits referencePrice quantity rate
  let distance := multipleDistance (s * 100000000) ⌊quantity * decimalScale⌋
  2 * distance < 300000000 ∨ (2 * distance = 300000000 ∧ Odd s)

instance (referencePrice quantity rate : Decimal) :
    Decidable (Reproducible referencePrice quantity rate) := by
  unfold Reproducible
  infer_instance

theorem floor_units (n : ℤ) : ⌊(n : Decimal) * qAmount * decimalScale⌋ = n := by
  rw [mul_assoc, mul_comm qAmount, decimalScale_mul_qAmount, mul_one, Int.floor_intCast]

/-- **Small quantities are always reproducible**: up to three units of the asset the
distance to a multiple never exceeds one and a half scales. -/
theorem reproducible_of_lt_three {referencePrice quantity rate : Decimal} (hpos : 0 < quantity)
    (hq : IsMoney quantity) (h : quantity < 3) : Reproducible referencePrice quantity rate := by
  obtain ⟨k, rfl⟩ := hq
  left
  rw [floor_units]
  have hk : (k : Decimal) < 300000000 := by
    have hu : qAmount = 1 / 100000000 := rfl
    rw [hu] at h
    linarith
  have hk' : k < 300000000 := by exact_mod_cast hk
  have hk0 : 0 < k := by
    have := pos_of_mul_pos_left hpos qAmount_pos.le
    exact_mod_cast this
  unfold multipleDistance
  have h0 := Int.emod_nonneg (costUnits referencePrice (k * qAmount) rate * 100000000) hk0.ne'
  omega

section Recompute

variable {a s k : ℤ}

/-- The price of a fill in units: the reference price plus the amount spread over the
quantity. -/
private theorem units_of_price (side : OrderSide) (hk : 0 < k) :
    (a * qAmount + adverse side (s * qAmount) / (k * qAmount)) / qAmount =
      a + adverse side (((s * 100000000 : ℤ) : Decimal) / k) := by
  have hk' : (k : Decimal) ≠ 0 := by exact_mod_cast hk.ne'
  have hu : qAmount ≠ 0 := qAmount_pos.ne'
  cases side with
  | buy =>
    simp only [adverse_buy, qAmount]
    push_cast
    field_simp
  | sell =>
    simp only [adverse_sell, qAmount]
    push_cast
    field_simp

/-- The recomputed cost misses the amount by the rounding error of the price, times the
quantity. -/
private theorem abs_recomputed_sub (side : OrderSide) (hk : 0 < k) (hs : 0 ≤ s) {p : ℤ}
    (hp : p = roundHalfEven (a + adverse side (((s * 100000000 : ℤ) : Decimal) / k))) :
    |((|p - a| * k : ℤ) : Decimal) / decimalScale - s| =
      multipleDistance (s * 100000000) k / decimalScale := by
  have hk' : (0 : Decimal) < k := by exact_mod_cast hk
  set x : Decimal := ((s * 100000000 : ℤ) : Decimal) / k with hx
  have hx0 : 0 ≤ x := div_nonneg (by exact_mod_cast by omega) hk'.le
  have hxk : x * k = s * 100000000 := by
    rw [hx, div_mul_cancel₀ _ hk'.ne']
    push_cast
    rfl
  -- the distance of the price from the reference price is the rounded `x`
  have herr : |(|p - a| : Decimal) - x| * k = multipleDistance (s * 100000000) k := by
    have hround : |x - roundHalfEven x| * k = multipleDistance (s * 100000000) k :=
      abs_sub_roundHalfEven_div hk
    rw [← hround]
    congr 1
    cases side with
    | buy =>
      have hpa : a ≤ p := by
        rw [hp, ← roundHalfEven_intCast (α := Decimal) a]
        exact roundHalfEven_mono (by rw [roundHalfEven_intCast, adverse_buy]; linarith)
      have hpa' : (0 : Decimal) ≤ p - a := by
        have : (a : Decimal) ≤ p := by exact_mod_cast hpa
        linarith
      rw [abs_of_nonneg hpa', ← abs_sub_roundHalfEven_intCast_add a x, abs_sub_comm, hp]
      congr 1
      rw [adverse_buy]
      ring
    | sell =>
      have hpa : p ≤ a := by
        rw [hp, ← roundHalfEven_intCast (α := Decimal) a]
        exact roundHalfEven_mono (by rw [roundHalfEven_intCast, adverse_sell]; linarith)
      have hpa' : (p : Decimal) - a ≤ 0 := by
        have : (p : Decimal) ≤ a := by exact_mod_cast hpa
        linarith
      rw [abs_of_nonpos hpa', ← abs_neg_sub_roundHalfEven x,
        ← abs_sub_roundHalfEven_intCast_add a (-x), hp]
      congr 1
      rw [adverse_sell]
      ring
  have hscale : (0 : Decimal) < decimalScale := by norm_num [decimalScale]
  rw [eq_div_iff hscale.ne', ← herr]
  calc |((|p - a| * k : ℤ) : Decimal) / decimalScale - s| * decimalScale
      = |(((|p - a| * k : ℤ) : Decimal) / decimalScale - s) * decimalScale| := by
        rw [abs_mul, abs_of_pos hscale]
    _ = |((|p - a| : Decimal) - x) * k| := by
        congr 1
        rw [sub_mul, sub_mul, div_mul_cancel₀ _ hscale.ne', hxk]
        push_cast
        rfl
    _ = |(|p - a| : Decimal) - x| * k := by rw [abs_mul, abs_of_pos hk']

end Recompute

/-- **The audit of a recorded fill.** The row of a fill passes exactly when its slippage
cost can be recomputed from the rounded price. -/
theorem slippageFailures_execution_iff {order : Order} {referencePrice quantity : Decimal}
    {timestamp : ℤ} {costModel : BacktestCostModel} {gapFilled : Bool}
    {exitReason : Option ExitReason} {fill : Fill}
    (h : IsExecution order referencePrice quantity timestamp costModel gapFilled exitReason fill)
    (href : IsMoney referencePrice) (hquantity : IsMoney quantity)
    {executionId : ℕ} {decisionId : Option ℕ} {stored : StoredExecution}
    (hstored : (Engine.executionRow executionId decisionId fill).store = .ok stored) :
    slippageFailures [stored] = [] ↔
      Reproducible referencePrice quantity (slippageRate order quantity costModel gapFilled) := by
  obtain ⟨hsr, hsp, hsq, -, -, hss, -⟩ := ExecutionRow.store_eq_ok hstored
  have hr := (scaleDecimal_eq_ok.1 hsr).1
  have hp := (scaleDecimal_eq_ok.1 hsp).1
  have hq := (scaleDecimal_eq_ok.1 hsq).1
  have hs := (scaleDecimal_eq_ok.1 hss).1
  change fill.referencePrice = _ at hr
  change fill.price = _ at hp
  change fill.quantity = _ at hq
  change fill.slippage = _ at hs
  rw [h.referencePrice_eq, href.quantizeAmount_eq] at hr
  have hqpos := fill.quantity_pos
  rw [hq, mul_pos_iff_of_pos_right qAmount_pos] at hqpos
  rw [h.quantity_eq, hquantity.quantizeAmount_eq] at hq
  have hamount : slippageAmount order referencePrice quantity costModel gapFilled =
      stored.slippage * qAmount := by
    rw [← hs, h.slippage_eq, abs_of_nonneg h.slippageAmount_nonneg]
  have hunits : costUnits referencePrice quantity
      (slippageRate order quantity costModel gapFilled) = stored.slippage := by
    have hround : (costUnits referencePrice quantity
        (slippageRate order quantity costModel gapFilled) : Decimal) * qAmount =
          stored.slippage * qAmount := hamount
    exact_mod_cast mul_right_cancel₀ qAmount_pos.ne' hround
  have hk : 0 < stored.quantity := by exact_mod_cast hqpos
  have hs0 : 0 ≤ stored.slippage := (scaleDecimal_nonneg_iff hss).2 fill.slippage_nonneg
  -- the stored price is the rounded one, in units
  have hprice : stored.price = roundHalfEven (stored.referencePrice +
      adverse order.side (((stored.slippage * 100000000 : ℤ) : Decimal) / stored.quantity)) := by
    have hround : fill.price = roundHalfEven ((referencePrice + adverse order.side
        (slippageAmount order referencePrice quantity costModel gapFilled) / quantity) /
          qAmount) * qAmount := h.price_eq
    rw [hamount, hr, hq, units_of_price order.side hk, hp] at hround
    exact_mod_cast mul_right_cancel₀ qAmount_pos.ne' hround
  rw [slippageFailures_singleton_eq_nil, expectedSlippage, abs_roundHalfEven_sub_le_one_iff,
    abs_recomputed_sub order.side hk hs0 hprice]
  unfold Reproducible
  rw [hunits, hq, floor_units]
  have hscale : (0 : Decimal) < decimalScale := by norm_num [decimalScale]
  rw [div_lt_iff₀ hscale, div_eq_iff hscale.ne']
  have h32 : 3 / 2 * decimalScale = 150000000 := by norm_num [decimalScale]
  rw [h32]
  refine or_congr ?_ (and_congr ?_ Iff.rfl)
  · rw [show (150000000 : Decimal) = ((150000000 : ℤ) : Decimal) by norm_num, Int.cast_lt]
    omega
  · rw [show (150000000 : Decimal) = ((150000000 : ℤ) : Decimal) by norm_num, Int.cast_inj]
    omega

/-- A fresh market buy. -/
def marketBuy (quantity : Decimal) : Order where
  id := .broker 1
  orderType := .market
  side := .buy
  symbol := "DOGEUSDT"
  quantity := quantity
  price := none
  filledQuantity := 0
  averageFilledPrice := none
  status := .new
  fee := 0
  marketType := .futures
  positionSide := .long
  reduceOnly := false
  closePosition := false
  stopPrice := none

/-- Whether a market buy fills, can be stored and passes the audit as expected. -/
private def auditsTo (referencePrice quantity : Decimal) (passes : Bool) : Bool :=
  endsWith (fillOrder referencePrice quantity 1000 (.standard .futures) false false none
    (marketBuy quantity)) fun fill _ =>
      returnsWith (Engine.executionRow 1 (some 1) fill).store fun stored =>
        decide (slippageFailures [stored] = []) == passes

private theorem exists_of_auditsTo (referencePrice quantity : Decimal) (passes : Bool)
    (h : auditsTo referencePrice quantity passes = true) :
    ∃ fill order' stored,
      fillOrder referencePrice quantity 1000 (.standard .futures) false false none
        (marketBuy quantity) = .ok fill order' ∧
      (Engine.executionRow 1 (some 1) fill).store = .ok stored ∧
      decide (slippageFailures [stored] = []) = passes := by
  obtain ⟨fill, order', hfill, h⟩ := exists_of_endsWith h
  obtain ⟨stored, hstored, h⟩ := exists_of_returnsWith h
  exact ⟨fill, order', stored, hfill, hstored, beq_iff_eq.1 h⟩

end TradingSystem
