import TradingSystem.Execution.Affordability

/-!
# The affordable quantity in the decimal context

The cash an entry needs is a sum of terms, each rounded to the digits of the context and then
quantized to eight places. Each term is monotone in the quantity, and what fits the context for
a quantity fits it for every smaller one. So the quantities that fit a cash amount are closed
downwards, and the binary search ends at the last of them unless it meets a quantity whose
requirement the context does not hold.

* `AffordableIn` — the requirement of an entry of a quantity can be computed, and fits the cash.
* `AffordableIn.mono` — so can that of every smaller quantity.
* `affordableEntryQuantityIn_maximal` — what the search returns, and when it raises.
* `not_returned_of_trillion` — a price at which it raises though the cash is small.
-/

namespace TradingSystem

open Logic Numeric DecimalContext

namespace Matcher

variable {order : Order} {fillPrice quantity quantity' maximum available requirement rate : Decimal}
  {costModel : BacktestCostModel} {leverage : ℕ} {fault : Fault}

/-! ### The requirement -/

theorem feeCalcIn_eq_ok {notional fee : Decimal}
    (h : feeCalcIn defaultContext notional rate = .ok fee) :
    0 ≤ notional ∧ 0 ≤ rate ∧
      defaultContext.quantize (contextRound (notional * rate)) = .ok fee := by
  unfold feeCalcIn at h
  simp only [Except.bind_eq_ok, require_eq_ok] at h
  obtain ⟨-, hnotional, -, hrate, h⟩ := h
  exact ⟨hnotional, hrate, h⟩

/-- A smaller notional has a fee that is no larger. -/
theorem feeCalcIn_mono {notional notional' fee : Decimal} (hnotional : 0 ≤ notional)
    (hle : notional ≤ notional') (h : feeCalcIn defaultContext notional' rate = .ok fee) :
    ∃ smaller, feeCalcIn defaultContext notional rate = .ok smaller ∧ 0 ≤ smaller ∧
      smaller ≤ fee := by
  obtain ⟨-, hrate, hfee⟩ := feeCalcIn_eq_ok h
  obtain ⟨smaller, hsmaller, hnonneg, hsmall⟩ := quantize_mono
    (contextRound_nonneg (mul_nonneg hnotional hrate))
    (contextRound_mono (mul_le_mul_of_nonneg_right hle hrate)) hfee
  refine ⟨smaller, ?_, hnonneg, hsmall⟩
  unfold feeCalcIn
  simp only [Except.bind_eq_ok, require_eq_ok]
  exact ⟨⟨⟩, hnotional, ⟨⟩, hrate, hsmaller⟩

/-- **A smaller quantity needs no more cash**, and its requirement can be computed when that of
the larger one can. -/
theorem entryCashRequirementIn_mono (hprice : 0 ≤ fillPrice) (hquantity : 0 ≤ quantity)
    (hle : quantity ≤ quantity')
    (h : entryCashRequirementIn defaultContext order fillPrice quantity' costModel leverage =
      .ok requirement) :
    ∃ smaller, entryCashRequirementIn defaultContext order fillPrice quantity costModel leverage =
      .ok smaller ∧ smaller ≤ requirement := by
  unfold entryCashRequirementIn at h ⊢
  simp only [Except.bind_eq_ok] at h
  obtain ⟨notional', hnotional', margin', hmargin', rate, hrate, fee', hfee', exit', hexit',
    htotal'⟩ := h
  -- one term after the other is no larger
  obtain ⟨notional, hnotional, hnotional_nonneg, hnotional_le⟩ := quantize_mono
    (contextRound_nonneg (mul_nonneg hprice hquantity))
    (contextRound_mono (mul_le_mul_of_nonneg_left hle hprice)) hnotional'
  obtain ⟨margin, hmargin, hmargin_nonneg, hmargin_le⟩ := quantize_mono
    (contextRound_nonneg (div_nonneg hnotional_nonneg (Nat.cast_nonneg leverage)))
    (contextRound_mono (div_le_div_of_nonneg_right hnotional_le (Nat.cast_nonneg leverage)))
    hmargin'
  obtain ⟨fee, hfee, hfee_nonneg, hfee_le⟩ := feeCalcIn_mono hnotional_nonneg hnotional_le hfee'
  obtain ⟨exit, hexit, hexit_nonneg, hexit_le⟩ :=
    feeCalcIn_mono hnotional_nonneg hnotional_le hexit'
  have hpart : contextRound (margin + fee) ≤ contextRound (margin' + fee') :=
    contextRound_mono (add_le_add hmargin_le hfee_le)
  have hpart_nonneg : 0 ≤ contextRound (margin + fee) :=
    contextRound_nonneg (add_nonneg hmargin_nonneg hfee_nonneg)
  obtain ⟨total, htotal, -, htotal_le⟩ := quantize_mono
    (contextRound_nonneg (add_nonneg hpart_nonneg hexit_nonneg))
    (contextRound_mono (add_le_add hpart hexit_le)) htotal'
  refine ⟨total, ?_, htotal_le⟩
  simp only [Except.bind_eq_ok]
  exact ⟨notional, hnotional, margin, hmargin, rate, hrate, fee, hfee, exit, hexit, htotal⟩

/-- The requirement of a nonnegative notional is refused only by the context. -/
theorem entryCashRequirementIn_eq_error (hfee : costModel.fee order.symbol = .ok rate)
    (hnotional : 0 ≤ fillPrice * quantity)
    (h : entryCashRequirementIn defaultContext order fillPrice quantity costModel leverage =
      .error fault) : fault = .invalidOperation := by
  have hrate : 0 ≤ rate := by
    rw [(fee_eq_ok hfee).1]
    exact costModel.feeRate_nonneg
  -- nothing is negative, so only the rounding of an amount can raise
  have hcalc : ∀ {notional : Decimal}, 0 ≤ notional →
      feeCalcIn defaultContext notional rate = .error fault → fault = .invalidOperation := by
    intro notional hnonneg hraise
    unfold feeCalcIn at hraise
    rw [require, if_pos hnonneg, require, if_pos hrate] at hraise
    exact (quantize_eq_error.1 hraise).2
  unfold entryCashRequirementIn at h
  simp only [Except.bind_eq_error, hfee] at h
  -- the steps of the computation, in their order
  rcases h with hquantize | ⟨notional, hquantize, h⟩
  · exact (quantize_eq_error.1 hquantize).2
  have hnonneg : 0 ≤ notional := by
    rw [(quantize_eq_ok.1 hquantize).2]
    exact quantizeAmount_nonneg (contextRound_nonneg hnotional)
  rcases h with hmargin | ⟨margin, -, h⟩
  · exact (quantize_eq_error.1 hmargin).2
  rcases h with hnone | ⟨_, hrate', h⟩
  · cases hnone
  cases hrate'
  rcases h with hentry | ⟨fee, -, h⟩
  · exact hcalc hnonneg hentry
  rcases h with hexit | ⟨exit, -, htotal⟩
  · exact hcalc hnonneg hexit
  · exact (quantize_eq_error.1 htotal).2

/-! ### Affordable quantities -/

/-- The requirement of an entry of a quantity can be computed, and fits an amount of cash. -/
def AffordableIn (context : DecimalContext) (order : Order)
    (fillPrice quantity available : Decimal) (costModel : BacktestCostModel) (leverage : ℕ) :
    Prop :=
  ∃ requirement, entryCashRequirementIn context order fillPrice quantity costModel leverage =
    .ok requirement ∧ requirement ≤ available

/-- **Affordable quantities are closed downwards.** -/
theorem AffordableIn.mono (hprice : 0 ≤ fillPrice) (hquantity : 0 ≤ quantity)
    (hle : quantity ≤ quantity')
    (h : AffordableIn defaultContext order fillPrice quantity' available costModel leverage) :
    AffordableIn defaultContext order fillPrice quantity available costModel leverage := by
  obtain ⟨requirement, hrequirement, hfits⟩ := h
  obtain ⟨smaller, hsmaller, hsmall⟩ :=
    entryCashRequirementIn_mono hprice hquantity hle hrequirement
  exact ⟨smaller, hsmaller, hsmall.trans hfits⟩

/-- No affordable quantity needs less than nothing. -/
theorem AffordableIn.available_nonneg
    (h : AffordableIn defaultContext order fillPrice quantity available costModel leverage) :
    0 ≤ available := by
  obtain ⟨requirement, hrequirement, hfits⟩ := h
  refine le_trans ?_ hfits
  unfold entryCashRequirementIn at hrequirement
  simp only [Except.bind_eq_ok] at hrequirement
  obtain ⟨notional, -, margin, hmargin, rate, -, fee, hfee, exit, hexit, htotal⟩ := hrequirement
  obtain ⟨hnotional, hrate, hfee⟩ := feeCalcIn_eq_ok hfee
  obtain ⟨-, -, hexit⟩ := feeCalcIn_eq_ok hexit
  have hmargin_nonneg : 0 ≤ margin := by
    rw [(quantize_eq_ok.1 hmargin).2]
    exact quantizeAmount_nonneg
      (contextRound_nonneg (div_nonneg hnotional (Nat.cast_nonneg leverage)))
  have hfee_nonneg : ∀ {cost : Decimal}, defaultContext.quantize (contextRound (notional * rate)) =
      .ok cost → 0 ≤ cost := by
    intro cost hcost
    rw [(quantize_eq_ok.1 hcost).2]
    exact quantizeAmount_nonneg (contextRound_nonneg (mul_nonneg hnotional hrate))
  rw [(quantize_eq_ok.1 htotal).2]
  exact quantizeAmount_nonneg (contextRound_nonneg (add_nonneg
    (contextRound_nonneg (add_nonneg hmargin_nonneg (hfee_nonneg hfee))) (hfee_nonneg hexit)))

/-- The positive multiples of the quantum that fit the maximum and the cash. -/
def AffordableMultiplesIn (context : DecimalContext) (order : Order)
    (fillPrice maximum available : Decimal) (costModel : BacktestCostModel) (leverage : ℕ) :
    Set Decimal :=
  { quantity | IsMoney quantity ∧ 0 < quantity ∧ quantity ≤ maximum ∧
    AffordableIn context order fillPrice quantity available costModel leverage }

/-! ### The search -/

/-- What the search asks of a number of units. -/
def testUnits (order : Order) (fillPrice available : Decimal) (costModel : BacktestCostModel)
    (leverage : ℕ) (units : ℤ) : Except Fault Bool :=
  if units = 0 then .ok (decide (0 ≤ available))
  else do
    let requirement ←
      entryCashRequirementIn defaultContext order fillPrice (qAmount * units) costModel leverage
    return decide (requirement ≤ available)

/-- The test is passed. -/
def passes (test : ℤ → Except Fault Bool) (units : ℤ) : Bool :=
  match test units with
  | .ok holds => holds
  | .error _ => false

/-- A search that returns is the binary search for the last number of units that passes. -/
theorem lastWhere_of_affordableUnits {test : ℤ → Except Fault Bool} {fuel : ℕ}
    {low high best units : ℤ} (h : affordableUnits test fuel low high best = .ok units) :
    lastWhere (passes test) fuel low high best = units := by
  -- on the rounds: no test on the way has raised
  induction fuel generalizing low high best with
  | zero =>
    cases h
    rfl
  | succ fuel ih =>
    unfold affordableUnits at h
    unfold lastWhere
    by_cases hle : low ≤ high
    · rw [if_pos hle] at h ⊢
      simp only [Except.bind_eq_ok] at h
      obtain ⟨holds, htest, h⟩ := h
      have hpasses : passes test ((low + high) / 2) = holds := by
        unfold passes
        rw [htest]
      rw [hpasses]
      cases holds with
      | true => exact ih h
      | false => exact ih h
    · rw [if_neg hle] at h ⊢
      cases h
      rfl

/-- A search that raises has met a test that raises. -/
theorem exists_of_affordableUnits_error {test : ℤ → Except Fault Bool} {fuel : ℕ}
    {low high best : ℤ} (h : affordableUnits test fuel low high best = .error fault) :
    ∃ units, low ≤ units ∧ units ≤ high ∧ test units = .error fault := by
  induction fuel generalizing low high best with
  | zero => cases h
  | succ fuel ih =>
    unfold affordableUnits at h
    by_cases hle : low ≤ high
    · rw [if_pos hle] at h
      simp only [Except.bind_eq_error] at h
      rcases h with htest | ⟨holds, -, h⟩
      · exact ⟨_, by omega, by omega, htest⟩
      · cases holds with
        | true =>
          obtain ⟨units, hlow, hhigh, htest⟩ := ih h
          exact ⟨units, by omega, hhigh, htest⟩
        | false =>
          obtain ⟨units, hlow, hhigh, htest⟩ := ih h
          exact ⟨units, hlow, by omega, htest⟩
    · rw [if_neg hle] at h
      cases h

theorem passes_testUnits_iff {units : ℤ} (hunits : 0 < units) :
    passes (testUnits order fillPrice available costModel leverage) units = true ↔
      AffordableIn defaultContext order fillPrice (qAmount * units) available costModel
        leverage := by
  unfold passes testUnits AffordableIn
  rw [if_neg hunits.ne']
  cases entryCashRequirementIn defaultContext order fillPrice (qAmount * units) costModel
    leverage with
  | error fault => simp [Bind.bind, Except.bind]
  | ok requirement => simp [Bind.bind, Except.bind, pure, Except.pure]

/-- **Passing is never regained** with more units. -/
theorem passes_testUnits_closed (hprice : 0 ≤ fillPrice) {m n : ℤ} (hm : 0 ≤ m) (hmn : m ≤ n)
    (h : passes (testUnits order fillPrice available costModel leverage) n = true) :
    passes (testUnits order fillPrice available costModel leverage) m = true := by
  rcases hmn.eq_or_lt with rfl | hlt
  · exact h
  have hn := (passes_testUnits_iff (hm.trans_lt hlt)).1 h
  have hquantity : ∀ {units : ℤ}, 0 ≤ units → (0 : Decimal) ≤ qAmount * units :=
    fun hunits => mul_nonneg qAmount_pos.le (by exact_mod_cast hunits)
  by_cases hzero : m = 0
  · -- no units need nothing
    subst hzero
    unfold passes testUnits
    rw [if_pos rfl]
    exact decide_eq_true hn.available_nonneg
  · rw [passes_testUnits_iff (lt_of_le_of_ne hm (Ne.symm hzero))]
    exact hn.mono hprice (hquantity hm)
      (mul_le_mul_of_nonneg_left (by exact_mod_cast hmn) qAmount_pos.le)

/-- The search, once the maximum has been truncated. -/
theorem affordableEntryQuantityIn_eq (hmaximum : |truncateAmount maximum| < contextLimit) :
    affordableEntryQuantityIn defaultContext order fillPrice maximum available costModel leverage =
      (affordableUnits (testUnits order fillPrice available costModel leverage)
        ((upperUnits maximum).toNat.log2 + 2) 0 (upperUnits maximum) 0).map
          fun units => qAmount * units := by
  unfold affordableEntryQuantityIn
  rw [truncate_eq_ok.2 ⟨hmaximum, rfl⟩]
  change (affordableUnits (testUnits order fillPrice available costModel leverage)
    ((upperUnits maximum).toNat.log2 + 2) 0 (upperUnits maximum) 0 >>= _) = _
  cases affordableUnits (testUnits order fillPrice available costModel leverage)
    ((upperUnits maximum).toNat.log2 + 2) 0 (upperUnits maximum) 0 <;> rfl

/-- What a search that returns has found. -/
theorem isLast_of_returned (hprice : 0 ≤ fillPrice)
    (h : affordableEntryQuantityIn defaultContext order fillPrice maximum available costModel
      leverage = .ok quantity) :
    ∃ units : ℤ, quantity = qAmount * units ∧
      IsLast (passes (testUnits order fillPrice available costModel leverage)) 0
        (upperUnits maximum) 0 units := by
  -- the call has returned, so the maximum was truncated without a raise
  have hmaximum : |truncateAmount maximum| < contextLimit := by
    unfold affordableEntryQuantityIn at h
    rw [Except.bind_eq_ok] at h
    obtain ⟨_, htruncated, -⟩ := h
    exact (truncate_eq_ok.1 htruncated).1
  rw [affordableEntryQuantityIn_eq hmaximum] at h
  cases hsearch : affordableUnits (testUnits order fillPrice available costModel leverage)
      ((upperUnits maximum).toNat.log2 + 2) 0 (upperUnits maximum) 0 with
  | error fault =>
    rw [hsearch] at h
    cases h
  | ok units =>
    rw [hsearch] at h
    cases h
    refine ⟨units, rfl, ?_⟩
    -- where no test raises the search is the one over a predicate
    rw [← lastWhere_of_affordableUnits hsearch]
    exact lastWhere_spec (fun m n hm hmn => passes_testUnits_closed hprice hm hmn) _ le_rfl
      (length_lt_rounds _)

theorem mem_affordableMultiplesIn_iff {units : ℤ} :
    qAmount * units ∈
        AffordableMultiplesIn defaultContext order fillPrice maximum available costModel leverage ↔
      0 < units ∧ units ≤ upperUnits maximum ∧
        passes (testUnits order fillPrice available costModel leverage) units = true := by
  have hpos : 0 < qAmount * (units : ℚ) ↔ 0 < units := by
    rw [mul_pos_iff_of_pos_left qAmount_pos]
    exact Int.cast_pos
  constructor
  · rintro ⟨-, hquantity, hle, hfits⟩
    have hunits := hpos.1 hquantity
    exact ⟨hunits, (le_upperUnits_iff hunits).2 hle, (passes_testUnits_iff hunits).2 hfits⟩
  · rintro ⟨hunits, hle, hfits⟩
    exact ⟨⟨units, mul_comm _ _⟩, hpos.2 hunits, (le_upperUnits_iff hunits).1 hle,
      (passes_testUnits_iff hunits).1 hfits⟩

/-- **What is returned is exactly maximal**: the largest multiple of the quantum that fits the
maximum and the cash, and zero when no positive one does. -/
theorem isGreatest_of_returned (hprice : 0 ≤ fillPrice)
    (h : affordableEntryQuantityIn defaultContext order fillPrice maximum available costModel
      leverage = .ok quantity) :
    ((AffordableMultiplesIn defaultContext order fillPrice maximum available costModel
        leverage).Nonempty → IsGreatest (AffordableMultiplesIn defaultContext order fillPrice
          maximum available costModel leverage) quantity) ∧
      (AffordableMultiplesIn defaultContext order fillPrice maximum available costModel leverage =
        ∅ → quantity = 0) := by
  -- the search keeps the last number of units that fits
  obtain ⟨units, rfl, hlast⟩ := isLast_of_returned hprice h
  constructor
  · rintro ⟨_, hmem⟩
    obtain ⟨n, rfl⟩ := hmem.1
    rw [mul_comm, mem_affordableMultiplesIn_iff] at hmem
    obtain ⟨hn, hle, hfits⟩ := hmem
    obtain ⟨habove, -, hupper, hholds⟩ := hlast.none_after n hn.le hle hfits
    refine ⟨mem_affordableMultiplesIn_iff.2 ⟨hn.trans_le habove, hupper, hholds⟩, ?_⟩
    rintro _ hother
    obtain ⟨k, rfl⟩ := hother.1
    rw [mul_comm, mem_affordableMultiplesIn_iff] at hother
    obtain ⟨hk, hkle, hkfits⟩ := hother
    rw [mul_comm]
    refine mul_le_mul_of_nonneg_left ?_ qAmount_pos.le
    exact_mod_cast (hlast.none_after k hk.le hkle hkfits).1
  · intro hempty
    -- with no unit that fits, the answer is the zero it starts from
    rcases hlast.answer_cases with rfl | ⟨hlow, hhigh, hholds⟩
    · rw [Int.cast_zero, mul_zero]
    · rcases hlow.eq_or_lt with rfl | hpos
      · rw [Int.cast_zero, mul_zero]
      · have hmem : qAmount * (units : ℚ) ∈ AffordableMultiplesIn defaultContext order fillPrice
            maximum available costModel leverage :=
          mem_affordableMultiplesIn_iff.2 ⟨hpos, hhigh, hholds⟩
        rw [hempty] at hmem
        exact hmem.elim

/-- The maximum and its own cash requirement fit the context. -/
def MaximumFits (order : Order) (fillPrice maximum : Decimal) (costModel : BacktestCostModel)
    (leverage : ℕ) : Prop :=
  |truncateAmount maximum| < contextLimit ∧ (0 < upperUnits maximum → ∃ requirement,
    entryCashRequirementIn defaultContext order fillPrice (qAmount * upperUnits maximum) costModel
      leverage = .ok requirement)

/-- A test of the search raises for want of digits only, and not where the maximum fits. -/
theorem testUnits_eq_error (hprice : 0 ≤ fillPrice) (hfee : costModel.fee order.symbol = .ok rate)
    {units : ℤ} (hlow : 0 ≤ units) (hhigh : units ≤ upperUnits maximum)
    (h : testUnits order fillPrice available costModel leverage units = .error fault) :
    fault = .invalidOperation ∧ ¬MaximumFits order fillPrice maximum costModel leverage := by
  unfold testUnits at h
  split_ifs at h with hzero
  rw [Except.bind_eq_error] at h
  rcases h with hraise | ⟨_, -, hreturn⟩
  · have hquantity : (0 : Decimal) ≤ qAmount * units :=
      mul_nonneg qAmount_pos.le (by exact_mod_cast hlow)
    refine ⟨entryCashRequirementIn_eq_error hfee (mul_nonneg hprice hquantity) hraise, ?_⟩
    rintro ⟨-, hmaximum⟩
    obtain ⟨requirement, hrequirement⟩ :=
      hmaximum ((lt_of_le_of_ne hlow (Ne.symm hzero)).trans_le hhigh)
    obtain ⟨smaller, hsmaller, -⟩ := entryCashRequirementIn_mono hprice hquantity
      (mul_le_mul_of_nonneg_left (by exact_mod_cast hhigh) qAmount_pos.le) hrequirement
    rw [hsmaller] at hraise
    cases hraise
  · cases hreturn

/-- **The affordable quantity.** What the search returns is exactly maximal. It returns when the
maximum and its own requirement fit the decimal context, and where it raises the context is the
reason. -/
theorem affordableEntryQuantityIn_maximal (hprice : 0 < fillPrice) (_hleverage : 0 < leverage)
    (hfee : costModel.fee order.symbol = .ok rate) :
    (∀ quantity, affordableEntryQuantityIn defaultContext order fillPrice maximum available
        costModel leverage = .ok quantity →
      ((AffordableMultiplesIn defaultContext order fillPrice maximum available costModel
          leverage).Nonempty → IsGreatest (AffordableMultiplesIn defaultContext order fillPrice
            maximum available costModel leverage) quantity) ∧
        (AffordableMultiplesIn defaultContext order fillPrice maximum available costModel
          leverage = ∅ → quantity = 0)) ∧
    (MaximumFits order fillPrice maximum costModel leverage →
      ∃ quantity, affordableEntryQuantityIn defaultContext order fillPrice maximum available
        costModel leverage = .ok quantity) ∧
    ∀ fault, affordableEntryQuantityIn defaultContext order fillPrice maximum available costModel
      leverage = .error fault → fault = .invalidOperation := by
  -- a raise comes from the maximum itself or from a test below it
  have hraises : ∀ {fault : Fault}, affordableEntryQuantityIn defaultContext order fillPrice
      maximum available costModel leverage = .error fault →
      fault = .invalidOperation ∧ ¬MaximumFits order fillPrice maximum costModel leverage := by
    intro fault hraise
    by_cases hmaximum : |truncateAmount maximum| < contextLimit
    · rw [affordableEntryQuantityIn_eq hmaximum] at hraise
      cases hsearch : affordableUnits (testUnits order fillPrice available costModel leverage)
          ((upperUnits maximum).toNat.log2 + 2) 0 (upperUnits maximum) 0 with
      | ok units =>
        rw [hsearch] at hraise
        cases hraise
      | error fault' =>
        rw [hsearch] at hraise
        cases hraise
        obtain ⟨units, hlow, hhigh, htest⟩ := exists_of_affordableUnits_error hsearch
        exact testUnits_eq_error hprice.le hfee hlow hhigh htest
    · unfold affordableEntryQuantityIn at hraise
      rw [truncate_eq_error.2 ⟨not_lt.1 hmaximum, rfl⟩] at hraise
      cases hraise
      exact ⟨rfl, fun hfits => hmaximum hfits.1⟩
  refine ⟨fun quantity => isGreatest_of_returned hprice.le, fun hfits => ?_,
    fun fault hraise => (hraises hraise).1⟩
  cases hsearch : affordableEntryQuantityIn defaultContext order fillPrice maximum available
      costModel leverage with
  | ok quantity => exact ⟨quantity, rfl⟩
  | error fault => exact absurd hfits (hraises hsearch).2

/-- At a price of three, under the default costs, up to a hundred coins for ten dollars. -/
theorem affordableEntryQuantityIn_of_ten_dollars :
    (∀ quantity, affordableEntryQuantityIn defaultContext coinOrder 3 100 10 (.standard .futures)
        1 = .ok quantity →
      ((AffordableMultiplesIn defaultContext coinOrder 3 100 10 (.standard .futures) 1).Nonempty →
        IsGreatest (AffordableMultiplesIn defaultContext coinOrder 3 100 10 (.standard .futures) 1)
          quantity) ∧
      (AffordableMultiplesIn defaultContext coinOrder 3 100 10 (.standard .futures) 1 = ∅ →
        quantity = 0)) ∧
    (MaximumFits coinOrder 3 100 (.standard .futures) 1 → ∃ quantity,
      affordableEntryQuantityIn defaultContext coinOrder 3 100 10 (.standard .futures) 1 =
        .ok quantity) ∧
    ∀ fault, affordableEntryQuantityIn defaultContext coinOrder 3 100 10 (.standard .futures) 1 =
      .error fault → fault = .invalidOperation :=
  affordableEntryQuantityIn_maximal (by norm_num) one_pos
    (show (BacktestCostModel.standard .futures).fee coinOrder.symbol =
      .ok (BacktestCostModel.standard .futures).feeRate from rfl)

/-- **A price of a trillion** and at most a billion coins: the requirement of half of them has more
digits than the context holds, and the call raises. A hundred-millionth of a coin costs ten
thousand dollars, so nothing is affordable for ten. -/
theorem not_returned_of_trillion :
    affordableEntryQuantityIn defaultContext coinOrder (10 ^ 12) (10 ^ 9) 10 (.standard .futures)
      1 = .error .invalidOperation := by
  decide +kernel

end Matcher
end TradingSystem
