import TradingSystem.Execution.Matching
import TradingSystem.Numeric.BinarySearch
import Mathlib.Order.Bounds.Defs

/-!
# The affordable quantity

The cash an entry needs is a sum of separately rounded terms. Each of them is monotone in the
quantity, so the quantities that fit a cash amount are closed downwards, which is what the
binary search of the matcher rests on.

* `cashRequirement` — the amount `entryCashRequirement` computes.
* `Affordable` — an entry of a quantity fits an amount.
* `isGreatest_of_isLast` — the search returns the largest affordable multiple of the quantum.
* `matchOrder_affordable` — an entry the matcher fills is affordable at the price of the fill.
-/

namespace TradingSystem

open Logic Numeric

namespace Matcher

/-! ### The cash an entry needs -/

/-- The margin of an entry and the fees of entering and leaving. -/
def cashRequirement (fillPrice quantity feeRate : Decimal) (leverage : ℕ) : Decimal :=
  let notional := quantizeAmount (fillPrice * quantity)
  quantizeAmount (quantizeAmount (notional / leverage) + quantizeAmount (notional * feeRate) +
    quantizeAmount (notional * feeRate))

variable {order order' : Order}
  {fillPrice fillPrice' quantity quantity' available maximum rate : Decimal}
  {costModel : BacktestCostModel} {leverage : ℕ}

theorem fee_eq_ok (h : costModel.fee order.symbol = .ok rate) :
    rate = costModel.feeRate ∧ order.symbol ≠ "" := by
  unfold BacktestCostModel.fee at h
  simp only [Except.bind_eq_ok, require_eq_ok] at h
  obtain ⟨-, hsymbol, h⟩ := h
  cases h
  exact ⟨rfl, hsymbol⟩

theorem feeCalc_eq_ok {notional fee : Decimal} (h : feeCalc notional rate = .ok fee) :
    fee = quantizeAmount (notional * rate) ∧ 0 ≤ notional ∧ 0 ≤ rate := by
  unfold feeCalc at h
  simp only [Except.bind_eq_ok, require_eq_ok] at h
  obtain ⟨-, hnotional, -, hrate, h⟩ := h
  cases h
  exact ⟨rfl, hnotional, hrate⟩

theorem feeCalc_of_nonneg {notional : Decimal} (hnotional : 0 ≤ notional) (hrate : 0 ≤ rate) :
    feeCalc notional rate = .ok (quantizeAmount (notional * rate)) := by
  unfold feeCalc
  simp only [Except.bind_eq_ok, require_eq_ok]
  exact ⟨⟨⟩, hnotional, ⟨⟩, hrate, rfl⟩

/-- The requirement of a quantity is computed for every nonnegative notional. -/
theorem entryCashRequirement_of_nonneg (hfee : costModel.fee order.symbol = .ok rate)
    (h : 0 ≤ fillPrice * quantity) :
    entryCashRequirement order fillPrice quantity costModel leverage =
      .ok (cashRequirement fillPrice quantity rate leverage) := by
  have hrate : 0 ≤ rate := by
    rw [(fee_eq_ok hfee).1]
    exact costModel.feeRate_nonneg
  unfold entryCashRequirement
  rw [hfee]
  simp only [Except.bind_eq_ok]
  exact ⟨rate, rfl, _, feeCalc_of_nonneg (quantizeAmount_nonneg h) hrate, _,
    feeCalc_of_nonneg (quantizeAmount_nonneg h) hrate, rfl⟩

theorem entryCashRequirement_eq_ok {requirement : Decimal}
    (h : entryCashRequirement order fillPrice quantity costModel leverage = .ok requirement) :
    requirement = cashRequirement fillPrice quantity costModel.feeRate leverage ∧
      0 ≤ quantizeAmount (fillPrice * quantity) := by
  unfold entryCashRequirement at h
  simp only [Except.bind_eq_ok] at h
  obtain ⟨rate, hrate, fee, hfee, fee', hfee', h⟩ := h
  obtain ⟨rfl, -⟩ := fee_eq_ok hrate
  obtain ⟨rfl, hnotional, -⟩ := feeCalc_eq_ok hfee
  obtain ⟨rfl, -, -⟩ := feeCalc_eq_ok hfee'
  cases h
  exact ⟨rfl, hnotional⟩

/-- A larger notional needs at least as much cash, term by term. -/
theorem cashRequirement_notional_mono (hrate : 0 ≤ rate)
    (h : quantizeAmount (fillPrice * quantity) ≤ quantizeAmount (fillPrice' * quantity')) :
    cashRequirement fillPrice quantity rate leverage ≤
      cashRequirement fillPrice' quantity' rate leverage := by
  have hmargin : quantizeAmount (quantizeAmount (fillPrice * quantity) / leverage) ≤
      quantizeAmount (quantizeAmount (fillPrice' * quantity') / leverage) :=
    quantizeAmount_mono (div_le_div_of_nonneg_right h (Nat.cast_nonneg leverage))
  have hfee : quantizeAmount (quantizeAmount (fillPrice * quantity) * rate) ≤
      quantizeAmount (quantizeAmount (fillPrice' * quantity') * rate) :=
    quantizeAmount_mono (mul_le_mul_of_nonneg_right h hrate)
  unfold cashRequirement
  apply quantizeAmount_mono
  linarith

/-- **A larger quantity needs at least as much cash.** -/
theorem cashRequirement_mono (hprice : 0 ≤ fillPrice) (hrate : 0 ≤ rate)
    (h : quantity ≤ quantity') :
    cashRequirement fillPrice quantity rate leverage ≤
      cashRequirement fillPrice quantity' rate leverage := by
  apply cashRequirement_notional_mono hrate
  exact quantizeAmount_mono (mul_le_mul_of_nonneg_left h hprice)

/-- An entry of a quantity fits an amount of cash. -/
def Affordable (order : Order) (fillPrice quantity available : Decimal)
    (costModel : BacktestCostModel) (leverage : ℕ) : Prop :=
  ∃ requirement, entryCashRequirement order fillPrice quantity costModel leverage =
    .ok requirement ∧ requirement ≤ available

theorem affordable_iff (hfee : costModel.fee order.symbol = .ok rate)
    (h : 0 ≤ fillPrice * quantity) :
    Affordable order fillPrice quantity available costModel leverage ↔
      cashRequirement fillPrice quantity rate leverage ≤ available := by
  unfold Affordable
  rw [entryCashRequirement_of_nonneg hfee h]
  constructor
  · rintro ⟨requirement, heq, hle⟩
    cases heq
    exact hle
  · intro hle
    exact ⟨_, rfl, hle⟩

/-! ### Units -/

/-- The largest number of units up to an amount, as the source truncates it. -/
def upperUnits (maximum : Decimal) : ℤ := ⌊truncateAmount maximum / qAmount⌋

theorem upperUnits_of_nonneg (h : 0 ≤ maximum) : upperUnits maximum = ⌊maximum / qAmount⌋ := by
  unfold upperUnits truncateAmount
  rw [if_pos h, mul_div_assoc, div_self qAmount_pos.ne', mul_one, Int.floor_intCast]

theorem upperUnits_of_neg (h : maximum < 0) : upperUnits maximum ≤ 0 := by
  unfold upperUnits truncateAmount
  rw [if_neg (not_le.2 h), mul_div_assoc, div_self qAmount_pos.ne', mul_one, Int.floor_intCast]
  exact Int.ceil_le.2 (by exact_mod_cast (div_neg_of_neg_of_pos h qAmount_pos).le)

/-- A positive number of units is within the maximum exactly when its quantity is. -/
theorem le_upperUnits_iff {units : ℤ} (h : 0 < units) :
    units ≤ upperUnits maximum ↔ qAmount * units ≤ maximum := by
  by_cases hmaximum : 0 ≤ maximum
  · rw [upperUnits_of_nonneg hmaximum, Int.le_floor, le_div_iff₀ qAmount_pos, mul_comm]
  · have hneg := upperUnits_of_neg (not_le.1 hmaximum)
    constructor
    · intro hle
      omega
    · intro hle
      have hpos : 0 < qAmount * (units : ℚ) := mul_pos qAmount_pos (by exact_mod_cast h)
      linarith

/-- The rounds of the search exceed the length of its interval. -/
theorem length_lt_rounds (units : ℤ) :
    units + 1 - 0 < 2 ^ (units.toNat.log2 + 2) := by
  have hlog : units.toNat < 2 ^ (units.toNat.log2 + 1) := Nat.lt_log2_self
  have hpow : (2 : ℤ) ^ (units.toNat.log2 + 2) = 2 * 2 ^ (units.toNat.log2 + 1) := by
    rw [pow_succ, mul_comm]
  have hcast : (units.toNat : ℤ) < 2 ^ (units.toNat.log2 + 1) := by exact_mod_cast hlog
  have hself : units ≤ units.toNat := Int.self_le_toNat units
  rw [hpow]
  omega

/-! ### The search -/

/-- The search of the source is the binary search for the last affordable number of units. -/
theorem affordableUnits_eq_lastWhere {affordable : ℤ → Except Fault Bool} {holds : ℤ → Bool}
    {low high : ℤ}
    (h : ∀ units, low ≤ units → units ≤ high → affordable units = .ok (holds units))
    (fuel : ℕ) (best : ℤ) :
    affordableUnits affordable fuel low high best = .ok (lastWhere holds fuel low high best) := by
  induction fuel generalizing low high best with
  | zero => rfl
  | succ fuel ih =>
    unfold affordableUnits lastWhere
    by_cases hle : low ≤ high
    · rw [if_pos hle, if_pos hle]
      simp only
      rw [h ((low + high) / 2) (by omega) (by omega)]
      -- both searches go on in the same half
      by_cases hholds : holds ((low + high) / 2) = true
      · rw [if_pos hholds]
        change (if holds ((low + high) / 2) = true then _ else _) = _
        rw [if_pos hholds]
        exact ih (fun units hlow hhigh => h units (by omega) hhigh) _
      · rw [if_neg hholds]
        change (if holds ((low + high) / 2) = true then _ else _) = _
        rw [if_neg hholds]
        exact ih (fun units hlow hhigh => h units hlow (by omega)) _
    · rw [if_neg hle, if_neg hle]

/-- The test of the search: nothing is needed for no units. -/
def fitsUnits (fillPrice available feeRate : Decimal) (leverage : ℕ) (units : ℤ) : Bool :=
  if units = 0 then decide (0 ≤ available)
  else decide (cashRequirement fillPrice (qAmount * units) feeRate leverage ≤ available)

theorem fitsUnits_of_pos {units : ℤ} (h : 0 < units) :
    fitsUnits fillPrice available rate leverage units = true ↔
      cashRequirement fillPrice (qAmount * units) rate leverage ≤ available := by
  unfold fitsUnits
  rw [if_neg h.ne', decide_eq_true_eq]

theorem cashRequirement_nonneg (hnotional : 0 ≤ fillPrice * quantity) (hrate : 0 ≤ rate) :
    0 ≤ cashRequirement fillPrice quantity rate leverage := by
  have hrounded := quantizeAmount_nonneg hnotional
  have hmargin := quantizeAmount_nonneg (div_nonneg hrounded (Nat.cast_nonneg (α := ℚ) leverage))
  have hfee := quantizeAmount_nonneg (mul_nonneg hrounded hrate)
  unfold cashRequirement
  apply quantizeAmount_nonneg
  linarith

/-- **Fitting is never regained**: what does not fit does not fit with more units. -/
theorem fitsUnits_closed (hprice : 0 ≤ fillPrice) (hrate : 0 ≤ rate) {m n : ℤ} (hm : 0 ≤ m)
    (hmn : m ≤ n) (h : fitsUnits fillPrice available rate leverage n = true) :
    fitsUnits fillPrice available rate leverage m = true := by
  rcases hmn.eq_or_lt with rfl | hlt
  · exact h
  have hn : cashRequirement fillPrice (qAmount * n) rate leverage ≤ available :=
    (fitsUnits_of_pos (hm.trans_lt hlt)).1 h
  by_cases hzero : m = 0
  · -- no units cost nothing, and some units cost something
    subst hzero
    unfold fitsUnits
    rw [if_pos rfl, decide_eq_true_eq]
    refine le_trans (cashRequirement_nonneg ?_ hrate) hn
    exact mul_nonneg hprice (mul_nonneg qAmount_pos.le (by exact_mod_cast hm.trans hmn))
  · rw [fitsUnits_of_pos (lt_of_le_of_ne hm (Ne.symm hzero))]
    refine le_trans (cashRequirement_mono hprice hrate ?_) hn
    exact mul_le_mul_of_nonneg_left (by exact_mod_cast hmn) qAmount_pos.le

/-- What the search returns, in units. -/
theorem affordableEntryQuantity_units (hprice : 0 ≤ fillPrice)
    (hfee : costModel.fee order.symbol = .ok rate) :
    ∃ units : ℤ, affordableEntryQuantity order fillPrice maximum available costModel leverage =
        .ok (qAmount * units) ∧
      IsLast (fitsUnits fillPrice available rate leverage) 0 (upperUnits maximum) 0 units := by
  have hrate : 0 ≤ rate := by
    rw [(fee_eq_ok hfee).1]
    exact costModel.feeRate_nonneg
  refine ⟨lastWhere (fitsUnits fillPrice available rate leverage)
    ((upperUnits maximum).toNat.log2 + 2) 0 (upperUnits maximum) 0, ?_, ?_⟩
  · unfold affordableEntryQuantity
    rw [Except.bind_eq_ok]
    refine ⟨_, affordableUnits_eq_lastWhere ?_ _ _, rfl⟩
    intro units hlow _
    unfold fitsUnits
    -- nothing is always affordable; otherwise the cash decides
    by_cases hzero : units = 0
    · rw [if_pos hzero, if_pos hzero]
    · rw [if_neg hzero, if_neg hzero, entryCashRequirement_of_nonneg hfee]
      · rfl
      · exact mul_nonneg hprice (mul_nonneg qAmount_pos.le (by exact_mod_cast hlow))
  · exact lastWhere_spec (fun m n hm hmn => fitsUnits_closed hprice hrate hm hmn) _ le_rfl
      (length_lt_rounds _)

/-- The positive multiples of the quantum that fit the maximum and the cash. -/
def AffordableMultiples (order : Order) (fillPrice maximum available : Decimal)
    (costModel : BacktestCostModel) (leverage : ℕ) : Set Decimal :=
  { quantity | IsMoney quantity ∧ 0 < quantity ∧ quantity ≤ maximum ∧
    Affordable order fillPrice quantity available costModel leverage }

theorem mem_affordableMultiples_iff (hprice : 0 ≤ fillPrice)
    (hfee : costModel.fee order.symbol = .ok rate) {units : ℤ} :
    qAmount * units ∈ AffordableMultiples order fillPrice maximum available costModel leverage ↔
      0 < units ∧ units ≤ upperUnits maximum ∧
        fitsUnits fillPrice available rate leverage units = true := by
  have hpos : 0 < qAmount * (units : ℚ) ↔ 0 < units := by
    rw [mul_pos_iff_of_pos_left qAmount_pos]
    exact Int.cast_pos
  constructor
  · rintro ⟨-, hquantity, hle, hfits⟩
    have hunits := hpos.1 hquantity
    refine ⟨hunits, (le_upperUnits_iff hunits).2 hle, ?_⟩
    rw [fitsUnits_of_pos hunits]
    exact (affordable_iff hfee (mul_nonneg hprice hquantity.le)).1 hfits
  · rintro ⟨hunits, hle, hfits⟩
    refine ⟨⟨units, mul_comm _ _⟩, hpos.2 hunits, (le_upperUnits_iff hunits).1 hle, ?_⟩
    rw [affordable_iff hfee (mul_nonneg hprice (hpos.2 hunits).le)]
    exact (fitsUnits_of_pos hunits).1 hfits

/-- The last number of units that fits is the largest affordable multiple, if there is one. -/
theorem isGreatest_of_isLast (hprice : 0 ≤ fillPrice) (hfee : costModel.fee order.symbol = .ok rate)
    {units : ℤ} (hlast : IsLast (fitsUnits fillPrice available rate leverage) 0
      (upperUnits maximum) 0 units)
    (h : (AffordableMultiples order fillPrice maximum available costModel leverage).Nonempty) :
    IsGreatest (AffordableMultiples order fillPrice maximum available costModel leverage)
      (qAmount * units) := by
  obtain ⟨_, hmem⟩ := h
  have hgrid := hmem.1
  obtain ⟨n, rfl⟩ := hgrid
  rw [mul_comm, mem_affordableMultiples_iff hprice hfee] at hmem
  obtain ⟨hn, hle, hfits⟩ := hmem
  obtain ⟨habove, -, hupper, hholds⟩ := hlast.none_after n hn.le hle hfits
  refine ⟨(mem_affordableMultiples_iff hprice hfee).2 ⟨hn.trans_le habove, hupper, hholds⟩, ?_⟩
  rintro _ hother
  obtain ⟨k, rfl⟩ := hother.1
  rw [mul_comm, mem_affordableMultiples_iff hprice hfee] at hother
  obtain ⟨hk, hkle, hkfits⟩ := hother
  rw [mul_comm]
  refine mul_le_mul_of_nonneg_left ?_ qAmount_pos.le
  exact_mod_cast (hlast.none_after k hk.le hkle hkfits).1

/-- A market order to buy one coin. -/
def coinOrder : Order where
  id := .broker 0
  orderType := .market
  side := .buy
  symbol := "BTCUSDT"
  quantity := 1
  price := none
  filledQuantity := 0
  averageFilledPrice := none
  status := .new
  fee := 0
  marketType := .futures
  positionSide := .long
  reduceOnly := false
  closePosition := false
  stopPrice := none

/-! ### Filled entries -/

section Entries

variable {candle : Candle} {history : List Candle} {limits : MatchLimits} {fill : Fill}
  {fillTiming : FillTiming} {referencePrice cash : Decimal} {gapFilled : Bool}

theorem recomputeQtyAndStop_isMoney {recomputed : Decimal × Option Decimal}
    (h : recomputeQtyAndStop order fillPrice limits costModel = .ok recomputed) :
    IsMoney recomputed.1 := by
  unfold recomputeQtyAndStop at h
  simp only [Except.bind_eq_ok] at h
  obtain ⟨-, -, -, -, anchored, -, capped, -, capped', -, h⟩ := h
  cases h
  exact isMoney_quantizeAmount _

/-- Truncation stays on the grid of quantities. -/
theorem truncateQuantity_isMoney {rounds : ℕ} {result : Decimal × Option Decimal}
    (hquantity : IsMoney quantity)
    (h : truncateQuantity order referencePrice gapFilled limits costModel rounds quantity =
      .ok result) : IsMoney result.1 := by
  induction rounds generalizing quantity with
  | zero => cases h
  | succ rounds ih =>
    unfold truncateQuantity at h
    rw [Except.bind_eq_ok] at h
    obtain ⟨pass, hpass, h⟩ := h
    -- a round takes the smaller of two amounts
    have hmoney : IsMoney pass.1 := by
      unfold recomputedAt at hpass
      simp only [Except.bind_eq_ok] at hpass
      obtain ⟨_, -, recomputed, hrecomputed, hpass⟩ := hpass
      cases hpass
      rcases min_choice quantity recomputed.1 with hmin | hmin
      · change IsMoney (min quantity recomputed.1)
        rw [hmin]
        exact hquantity
      · change IsMoney (min quantity recomputed.1)
        rw [hmin]
        exact recomputeQtyAndStop_isMoney hrecomputed
    split at h
    · cases h
      exact hmoney
    · exact ih hmoney h

/-- What a filled entry is: an execution, at some price and quantity, of an order of the same
instrument and direction, whose cash requirement fits. -/
structure IsFilledEntry (order : Order) (costModel : BacktestCostModel) (leverage : ℕ)
    (cash : Decimal) (fill : Fill) : Prop where
  symbol_eq : fill.symbol = order.symbol
  side_eq : fill.side = order.side
  positionSide_eq : fill.positionSide = order.positionSide
  reduceOnly_eq : fill.reduceOnly = false
  fee_eq : fill.fee =
    quantizeAmount (quantizeAmount (fill.price * fill.quantity) * costModel.feeRate)
  /-- The margin and both fees fit the cash. -/
  affordable : cashRequirement fill.price fill.quantity costModel.feeRate leverage ≤ cash

/-- **A filled entry is affordable** at the price of its fill. -/
theorem matchOrder_entry (hentry : order.isExit = false)
    (hcash : limits.availableMargin = some cash)
    (h : matchOrder candle history costModel fillTiming limits order = .ok fill order') :
    IsFilledEntry order costModel limits.leverage cash fill := by
  unfold matchOrder at h
  simp only [get_bind_apply, bind_eq_ok, raiseUnless_eq_ok, runPure_eq_ok] at h
  obtain ⟨_, _, ⟨-, rfl⟩, execution, _, ⟨-, rfl⟩, triggered, _, ⟨-, rfl⟩, h⟩ := h
  cases triggered with
  | none => cases h
  | some trigger =>
    simp only [bind_eq_ok, runPure_eq_ok, raiseUnless_eq_ok, modify_bind_apply,
      get_bind_apply, hentry, Bool.false_eq_true, if_false, hcash] at h
    obtain ⟨truncated, _, ⟨htruncated, rfl⟩, _, _, ⟨-, rfl⟩, _, _, ⟨haffordable, rfl⟩, hfill⟩ := h
    have hmoney : IsMoney truncated.1 :=
      truncateQuantity_isMoney (isMoney_quantizeAmount _) htruncated
    have hexecution := fillOrder_eq_ok hfill
    have hquantity : fill.quantity = truncated.1 :=
      hexecution.quantity_eq.trans hmoney.quantizeAmount_eq
    -- the check before the fill prices the same execution
    unfold checkAffordable at haffordable
    simp only [Except.bind_eq_ok, require_eq_ok] at haffordable
    obtain ⟨final, hfinal, requirement, hrequirement, hle⟩ := haffordable
    obtain ⟨rfl, -⟩ := entryCashRequirement_eq_ok hrequirement
    have hprice : final.price = fill.price :=
      (executionPrice_eq_ok hfinal).1.trans hexecution.price_eq.symm
    exact {
      symbol_eq := hexecution.symbol_eq
      side_eq := hexecution.side_eq
      positionSide_eq := hexecution.positionSide_eq
      reduceOnly_eq := hexecution.reduceOnly_eq.trans hentry
      fee_eq := by rw [hquantity]; exact hexecution.fee_eq
      affordable := by rw [hquantity, ← hprice]; exact hle }

end Entries

end Matcher
end TradingSystem
