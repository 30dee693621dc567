import TradingSystem.Engine.Effects

/-!
# What the open of a bar does

The inversion lemmas of the operations of a bar's open, above fills: settlements,
carried orders and triggers. Operations that never touch the money state are described
by `Logs`; the others name the one change they make.
-/

namespace TradingSystem

open Numeric Logic

namespace Engine

variable {input : RunInput} {s s' : EngineState}

/-! ### Settlements -/

/-- A forced liquidation records its decision and applies a liquidation fill. -/
theorem liquidateExhausted_eq_ok {position : Position} {boundary : ℤ} {price : Decimal}
    (h : liquidateExhausted input position boundary price s = .ok ⟨⟩ s') :
    ∃ row s₁ fill, Logs [.decision row] s s₁ ∧ row.action = .exit ∧
      Matcher.liquidationFill position price (boundary + Instant.millisecond) input.costModel =
        .ok fill ∧
      applyFill input fill (some row.decisionId) none none s₁ = .ok ⟨⟩ s' := by
  unfold liquidateExhausted at h
  simp only [bind_eq_ok, runPure_eq_ok] at h
  obtain ⟨decisionId, s₁, hnext, _, s₂, hrecord, fill, _, ⟨hfill, rfl⟩, h⟩ := h
  exact ⟨_, s₂, fill, (next_eq_ok hnext).trans (record_eq_ok hrecord), rfl, hfill, h⟩

/-- What one settlement leaves before any liquidation: the charged position in the book,
the settlement on the active trade. -/
def settled (s : EngineState) (position charged : Position) (active : ActiveTrade)
    (boundary : ℤ) (row : FundingRow) (result : FundingMarginResult) : EngineState :=
  { s with
    book := s.book.update (position.symbol, position.side) (some charged)
    activeTrade := some (ActiveTrade.addFunding active boundary row result) }

/-- **A settlement** charges the held position, books the cost on the active trade and
liquidates an exhausted position. -/
theorem settle_eq_ok {position : Position} {active : ActiveTrade} {boundary : ℤ}
    (h : settle input position active boundary s = .ok ⟨⟩ s') :
    ∃ price cost held result charged row s₁,
      fundingPrice input boundary = .ok price ∧
      settleFunding position (fundingRateAt input boundary).1 price.1 = .ok cost ∧
      s.book (position.symbol, position.side) = some held ∧
      PositionBook.chargeFunding cost input.costModel.maintenanceMarginRate held =
        .ok result charged ∧
      (∃ settlementId, row = fundingRow settlementId active position boundary
        (fundingRateAt input boundary) price result) ∧
      Logs [] (settled s position charged active boundary row result) s₁ ∧
      if result.exhausted then
        ∃ remaining, positionOf input s₁.book = .ok (some remaining) ∧
          liquidateExhausted input remaining boundary price.1 s₁ = .ok ⟨⟩ s'
      else s' = s₁ := by
  unfold settle at h
  simp only [bind_eq_ok, runPure_eq_ok, onBook_eq_ok] at h
  obtain ⟨price, _, ⟨hprice, rfl⟩, cost, _, ⟨hcost, rfl⟩, mmr, _, ⟨hmmr, rfl⟩, result, _,
    ⟨book, hbook, rfl⟩, _, s₁, hbooked, h⟩ := h
  unfold maintenanceMarginRate at hmmr
  simp only [Except.bind_eq_ok, require_eq_ok] at hmmr
  obtain ⟨-, -, hmmr⟩ := hmmr
  cases hmmr
  -- the steps of a settlement one by one: the charge, its row, and the liquidation
  unfold PositionBook.applyFunding at hbook
  obtain ⟨held, charged, hheld, hcharge, rfl⟩ := PositionBook.onPosition_eq_ok.1 hbook
  unfold bookFunding at hbooked
  simp only [bind_eq_ok, modify_apply, EStateM.Result.ok.injEq] at hbooked
  obtain ⟨settlementId, s₂, hnext, -, rfl⟩ := hbooked
  obtain ⟨sequence, rfl⟩ := next_eq_ok hnext
  refine ⟨price, cost, held, result, charged,
    fundingRow settlementId active position boundary (fundingRateAt input boundary) price result,
    _, hprice, hcost, hheld, hcharge, ⟨settlementId, rfl⟩, ⟨sequence, rfl⟩, ?_⟩
  cases hexhausted : result.exhausted with
  | false =>
    simp only [hexhausted, Bool.false_eq_true, if_false] at h ⊢
    cases h
    rfl
  | true =>
    simp only [hexhausted, if_true, bind_eq_ok, currentPosition_eq_ok] at h
    obtain ⟨remaining, _, ⟨hremaining, rfl⟩, h⟩ := h
    cases remaining with
    | none => cases h
    | some remaining => exact ⟨remaining, hremaining, h⟩

/-- A boundary that needs no settlement: the market has none, nothing is open, the entry
came later, or it has been settled. -/
def SettledAt (input : RunInput) (s : EngineState) (boundary : ℤ) : Prop :=
  input.config.marketType = .futures → isBoundary boundary = true →
    ∀ active ∈ s.activeTrade, boundary ≤ active.entryFill.timestamp ∨
      boundary ∈ active.settledBoundaries

/-- A boundary is settled for an open futures position, once, after its entry. -/
theorem settleAtBoundary_eq_ok {boundary : ℤ}
    (h : settleAtBoundary input boundary s = .ok ⟨⟩ s') :
    (s' = s ∧ (positionOf input s.book = .ok none ∨ SettledAt input s boundary)) ∨
      ∃ position active, input.config.marketType = .futures ∧
      isBoundary boundary = true ∧ positionOf input s.book = .ok (some position) ∧
      s.activeTrade = some active ∧ active.entryFill.timestamp < boundary ∧
      boundary ∉ active.settledBoundaries ∧
      settle input position active boundary s = .ok ⟨⟩ s' := by
  -- each early return is a reason for which nothing is settled
  unfold settleAtBoundary at h
  split at h
  · next hmarket =>
    cases h
    refine Or.inl ⟨rfl, Or.inr ?_⟩
    intro hfutures hboundary
    rcases hmarket with hmarket | hmarket
    · exact absurd hfutures hmarket
    · rw [hboundary] at hmarket
      cases hmarket
  next hmarket =>
  rw [not_or, not_ne_iff] at hmarket
  simp only [bind_eq_ok, currentPosition_eq_ok, get_bind_apply] at h
  obtain ⟨held, _, ⟨hheld, rfl⟩, h⟩ := h
  cases held with
  | none =>
    cases h
    exact Or.inl ⟨rfl, Or.inl hheld⟩
  | some position =>
  cases hactive : s.activeTrade with
  | none =>
    rw [hactive] at h
    cases h
    refine Or.inl ⟨rfl, Or.inr ?_⟩
    intro _ _ active hmem
    rw [hactive] at hmem
    cases hmem
  | some active =>
    rw [hactive] at h
    simp only at h
    split at h
    · next hsettled =>
      cases h
      refine Or.inl ⟨rfl, Or.inr ?_⟩
      intro _ _ active' hmem
      rw [hactive] at hmem
      cases hmem
      exact hsettled
    next hopen =>
    rw [not_or, not_le] at hopen
    exact Or.inr ⟨position, active, hmarket.1, by simpa using hmarket.2, hheld, rfl, hopen.1,
      hopen.2, h⟩

/-! ### Carried orders -/

/-- The limits a carried order is matched under. -/
structure IsLimits (input : RunInput) (s : EngineState) (pending : PendingOrder)
    (limits : Matcher.MatchLimits) : Prop where
  availableMargin_eq : limits.availableMargin = some s.cash
  leverage_eq : limits.leverage = leverageOf pending.signal
  /-- The risk budget is a fraction of the current equity, for a risk-based entry. -/
  riskBudget_eq : limits.riskBudget =
    match input.config.sizing, pending.request.reduceOnly with
    | .riskBased risk, false =>
      match positionOf input s.book with
      | .ok held => some (quantizeAmount (recompute s.cash held * toDecimal risk))
      | .error _ => none
    | _, _ => none

/-- A submission numbers the request and matches it. -/
theorem submit_eq_ok {context : ExecutionContext} {request : OrderRequest} {fill : Fill}
    (h : submit input context request s = .ok fill s') :
    ∃ sequence, submitOrder input.costModel context request sequence = .ok fill ∧
      Logs [] s s' := by
  unfold submit at h
  simp only [bind_eq_ok, runPure_eq_ok] at h
  obtain ⟨sequence, s₁, hnext, hfill, rfl⟩ := h
  exact ⟨sequence, hfill, next_eq_ok hnext⟩

/-- **A carried order** is matched in the history under the limits of the state, then
its fill is applied. -/
theorem executePending_eq_ok {candle : Candle} {pending : PendingOrder}
    (h : executePending input candle pending s = .ok ⟨⟩ s') :
    ∃ limits sequence fill s₁, pending.decisionCandle.closeTime = candle.openTime ∧
      IsLimits input s pending limits ∧
      submitOrder input.costModel ⟨pending.decisionCandle, input.history, limits⟩
        pending.request sequence = .ok fill ∧
      Logs [] s s₁ ∧ pending.decisionTs < epochMilliseconds fill.timestamp ∧
      applyFill input (withExitReason fill pending.exitReason) (some pending.decisionId)
        pending.signal pending.candidateId s₁ = .ok ⟨⟩ s' := by
  unfold executePending matchPending at h
  simp only [bind_eq_ok, raiseUnless_eq_ok, get_bind_apply, pure_apply,
    EStateM.Result.ok.injEq] at h
  obtain ⟨_, _, ⟨hclose, rfl⟩, _, _, ⟨budget, s₀, hbudget, fill, s₁, hsubmit, rfl, rfl⟩, _, _,
    ⟨⟨-, hts⟩, rfl⟩, happly⟩ := h
  obtain ⟨sequence, hfill, hlogs⟩ := submit_eq_ok hsubmit
  -- the risk budget is read from the state and leaves it as it is
  have hstate : s₀ = s ∧ budget =
      match input.config.sizing, pending.request.reduceOnly with
      | .riskBased risk, false =>
        match positionOf input s.book with
        | .ok held => some (quantizeAmount (recompute s.cash held * toDecimal risk))
        | .error _ => none
      | _, _ => none := by
    unfold riskBudget currentEquity at hbudget
    cases hsizing : input.config.sizing with
    | pct fraction =>
      rw [hsizing] at hbudget
      cases hbudget
      exact ⟨rfl, rfl⟩
    | riskBased risk =>
    cases hreduce : pending.request.reduceOnly with
    | true =>
      rw [hsizing, hreduce] at hbudget
      cases hbudget
      exact ⟨rfl, rfl⟩
    | false =>
      rw [hsizing, hreduce] at hbudget
      simp only [bind_eq_ok, currentPosition_eq_ok, get_bind_apply, pure_apply,
        EStateM.Result.ok.injEq] at hbudget
      obtain ⟨equity, _, ⟨held, _, ⟨hheld, rfl⟩, rfl, rfl⟩, rfl, rfl⟩ := hbudget
      refine ⟨rfl, ?_⟩
      simp only [hheld]
  obtain ⟨rfl, hbudget⟩ := hstate
  exact ⟨_, sequence, fill, s₁, hclose, ⟨rfl, rfl, hbudget⟩, hfill, hlogs, hts, happly⟩

theorem takePending_eq_ok {carried : List PendingOrder}
    (h : takePending s = .ok carried s') : carried = s.pending ∧ s' = { s with pending := [] } := by
  unfold takePending at h
  simp only [get_bind_apply, set_bind_apply, pure_apply, EStateM.Result.ok.injEq] at h
  obtain ⟨rfl, rfl⟩ := h
  exact ⟨rfl, rfl⟩

/-! ### Triggers -/

/-- The state with the extremes of the active trade updated. -/
def withTracking (input : RunInput) (candle : Candle) (position : Position) (s : EngineState) :
    EngineState :=
  { s with
    activeTrade := s.activeTrade.map
      (tracked candle position (s.board.features input.series.specs)) }

theorem trackExcursions_eq_ok {candle : Candle} {position : Position} {u : PUnit}
    (h : trackExcursions input candle position s = .ok u s') :
    s' = withTracking input candle position s := by
  unfold trackExcursions at h
  simp only [modify_apply, EStateM.Result.ok.injEq] at h
  exact h.2.symm

theorem recordForcedExit_eq_ok {decisionTs planned : ℤ} {position : Position} {decisionId : ℕ}
    (h : recordForcedExit input decisionTs position planned s = .ok decisionId s') :
    ∃ row : DecisionRow, Logs [.decision row] s s' ∧ row.decisionId = decisionId := by
  unfold recordForcedExit at h
  simp only [bind_eq_ok, pure_apply, EStateM.Result.ok.injEq] at h
  obtain ⟨_, s₁, hnext, _, s₂, hrecord, rfl, rfl⟩ := h
  exact ⟨_, (next_eq_ok hnext).trans (record_eq_ok hrecord), rfl⟩

/-- **The end of a bar's open**: nothing, or the exit the bar triggers. -/
theorem protect_eq_ok {candle : Candle} (h : protect input candle s = .ok ⟨⟩ s') :
    ∃ held, positionOf input s.book = .ok held ∧
      ((s' = s ∧ ∀ position ∈ held, Matcher.resolveTriggers position [candle] input.costModel
          s.protection (s.activeTrade.map (·.entryFill.timestamp)) = .ok none) ∨
        ∃ position fill row s₁, held = some position ∧
          Matcher.resolveTriggers position [candle] input.costModel s.protection
            (s.activeTrade.map (·.entryFill.timestamp)) = .ok (some fill) ∧
          Logs [.decision row] (withTracking input candle position s) s₁ ∧
          applyFill input fill (some row.decisionId) none none s₁ = .ok ⟨⟩ s') := by
  unfold protect at h
  simp only [bind_eq_ok, currentPosition_eq_ok] at h
  obtain ⟨held, _, ⟨hheld, rfl⟩, h⟩ := h
  refine ⟨held, hheld, ?_⟩
  cases held with
  | none =>
    cases h
    exact Or.inl ⟨rfl, by simp⟩
  | some position =>
    simp only at h
    unfold applyTrigger walkTriggers at h
    simp only [bind_eq_ok, get_bind_apply, runPure_eq_ok] at h
    obtain ⟨trigger, _, ⟨htrigger, rfl⟩, h⟩ := h
    -- without a trigger the state is untouched; with one its fill is applied
    cases trigger with
    | none =>
      cases h
      refine Or.inl ⟨rfl, ?_⟩
      intro p hp
      cases hp
      exact htrigger
    | some fill =>
      simp only [bind_eq_ok] at h
      obtain ⟨_, s₁, htrack, decisionId, s₂, hforced, happly⟩ := h
      obtain ⟨row, hlogs, rfl⟩ := recordForcedExit_eq_ok hforced
      rw [trackExcursions_eq_ok htrack] at hlogs
      exact Or.inr ⟨position, fill, row, s₂, rfl, htrigger, hlogs, happly⟩

end Engine
end TradingSystem
