import TradingSystem.Engine.Numbering
import TradingSystem.Engine.Preservation

/-!
# The funding of a trade

`Accrued t active` says what an active trade has been charged by an instant: one settlement
for every boundary since its entry, and their sum as its funding. `SettledOnce` says the
same of a completed trade and the FUNDING_SETTLEMENT rows recorded for it, over the time it
was open.

`Funded t n s` holds of a state whose active trade has accrued its funding by `t` and whose
completed trades are settled once; `n` bounds the numbers trades have had. The lemmas of
this module say what each operation of a run does to it: most leave it alone (`Quiet`), a
settlement moves `t` to its boundary, an exit completes the trade at its own time.
-/

namespace TradingSystem

open Numeric Logic

namespace Engine

variable {input : RunInput} {s s' : EngineState} {active active' : ActiveTrade} {t t' : ℤ}
  {cap cap' : Option ℤ} {n n' : ℕ}

/-! ### The rows of a trade -/

/-- The FUNDING_SETTLEMENT rows of the evidence. -/
def fundingRow? : EvidenceRecord → Option FundingRow
  | .funding row => some row
  | _ => none

/-- The settlements recorded for a trade. -/
def settlementsOf (records : List EvidenceRecord) (tradeId : ℕ) : List FundingRow :=
  (records.filterMap fundingRow?).filter fun row => row.tradeId = tradeId

/-- A row that is neither a trade nor a settlement. -/
def Unfunded : EvidenceRecord → Prop
  | .trade _ | .funding _ => False
  | _ => True

/-- A number under which a trade or a settlement is recorded. -/
def Recorded (records : List EvidenceRecord) (tradeId : ℕ) : Prop :=
  (∃ row, .trade row ∈ records ∧ row.tradeId = tradeId) ∨
    ∃ row, .funding row ∈ records ∧ row.tradeId = tradeId

variable {records rows : List EvidenceRecord} {tradeId : ℕ}

theorem mem_fundingRows {row : FundingRow} :
    row ∈ records.filterMap fundingRow? ↔ .funding row ∈ records := by
  rw [List.mem_filterMap]
  constructor
  · rintro ⟨record, hrecord, hrow⟩
    cases record <;> cases hrow
    exact hrecord
  · exact fun h => ⟨.funding row, h, rfl⟩

theorem settlementsOf_append :
    settlementsOf (records ++ rows) tradeId =
      settlementsOf records tradeId ++ settlementsOf rows tradeId := by
  unfold settlementsOf
  rw [List.filterMap_append, List.filter_append]

/-- A trade without a number in the evidence has no settlement there. -/
theorem settlementsOf_eq_nil (h : ¬Recorded records tradeId) :
    settlementsOf records tradeId = [] := by
  unfold settlementsOf
  rw [List.filter_eq_nil_iff]
  intro row hrow
  rw [decide_eq_true_eq]
  exact fun hid => h (Or.inr ⟨row, mem_fundingRows.1 hrow, hid⟩)

theorem recorded_append :
    Recorded (records ++ rows) tradeId ↔ Recorded records tradeId ∨ Recorded rows tradeId := by
  unfold Recorded
  simp only [List.mem_append, or_and_right, exists_or]
  exact or_or_or_comm

theorem not_recorded_of_unfunded (h : ∀ row ∈ rows, Unfunded row) : ¬Recorded rows tradeId := by
  rintro (⟨row, hrow, -⟩ | ⟨row, hrow, -⟩) <;> exact h _ hrow

theorem unfunded_of_clerical {row : EvidenceRecord} (h : Clerical row) : Unfunded row := by
  cases row with
  | trade row => exact h
  | funding row => exact h
  | _ => trivial

/-! ### Accrued funding -/

/-- What an active trade has been charged by `t`. A payment short of the theoretical one
exists at the boundary `cap` only. -/
structure Accrued (input : RunInput) (t : ℤ) (cap : Option ℤ) (active : ActiveTrade) : Prop where
  tradeId_eq : ∀ row ∈ active.fundingRecords, row.tradeId = active.tradeId
  settled_eq : active.fundingRecords.map (·.settledAt) = active.settledBoundaries
  nodup : active.settledBoundaries.Nodup
  mem_iff : ∀ b, b ∈ active.settledBoundaries ↔ input.config.marketType = .futures ∧
    isBoundary b = true ∧ active.entryFill.timestamp < b ∧ b ≤ t
  funding_eq : active.funding = -(active.fundingRecords.map (·.paymentAmount)).sum
  funding_money : IsMoney active.funding
  paid : ∀ row ∈ active.fundingRecords, |row.paymentAmount| ≤ |row.theoreticalPaymentAmount| ∧
    (row.paymentAmount ≠ row.theoreticalPaymentAmount → cap = some row.settledAt)

/-- **Settled once.** A completed trade has one settlement for every boundary in its life,
none outside and none twice; its funding is what they cost. Only a trade that a settlement
liquidates, one millisecond later, pays less than the theoretical amount. -/
structure SettledOnce (row : TradeRow) (settlements : List FundingRow) : Prop where
  nodup : (settlements.map (·.settledAt)).Nodup
  mem_iff : ∀ b, b ∈ settlements.map (·.settledAt) ↔ row.trade.marketType = .futures ∧
    isBoundary b = true ∧ row.trade.entryTime < b ∧ b ≤ row.trade.exitTime
  fundingCost_eq : row.trade.fundingCost = -(settlements.map (·.paymentAmount)).sum
  paid : ∀ settlement ∈ settlements,
    |settlement.paymentAmount| ≤ |settlement.theoreticalPaymentAmount| ∧
      (settlement.paymentAmount ≠ settlement.theoreticalPaymentAmount →
        row.trade.liquidated = true ∧
          row.trade.exitTime = settlement.settledAt + Instant.millisecond)

/-- The order of the settlements is not looked at. -/
theorem SettledOnce.perm {row : TradeRow} {settlements settlements' : List FundingRow}
    (h : SettledOnce row settlements) (hperm : settlements.Perm settlements') :
    SettledOnce row settlements' := by
  refine ⟨(hperm.map _).nodup_iff.1 h.nodup, fun b => ?_, ?_, fun settlement hmem => ?_⟩
  · rw [← (hperm.map _).mem_iff]
    exact h.mem_iff b
  · rw [← (hperm.map _).sum_eq]
    exact h.fundingCost_eq
  · exact h.paid settlement (hperm.mem_iff.2 hmem)

/-- A trade with other costs, buffered positions and extremes. -/
structure SameFunding (active active' : ActiveTrade) : Prop where
  tradeId_eq : active'.tradeId = active.tradeId
  entryFill_eq : active'.entryFill = active.entryFill
  funding_eq : active'.funding = active.funding
  fundingRecords_eq : active'.fundingRecords = active.fundingRecords
  settledBoundaries_eq : active'.settledBoundaries = active.settledBoundaries

theorem SameFunding.refl (active : ActiveTrade) : SameFunding active active :=
  ⟨rfl, rfl, rfl, rfl, rfl⟩

theorem Accrued.same (h : Accrued input t cap active) (hsame : SameFunding active active') :
    Accrued input t cap active' := by
  obtain ⟨hid, hentry, hfunding, hrows, hsettled⟩ := hsame
  refine ⟨?_, ?_, ?_, ?_, ?_, ?_, ?_⟩
  · rw [hrows, hid]
    exact h.tradeId_eq
  · rw [hrows, hsettled]
    exact h.settled_eq
  · rw [hsettled]
    exact h.nodup
  · rw [hsettled, hentry]
    exact h.mem_iff
  · rw [hfunding, hrows]
    exact h.funding_eq
  · rw [hfunding]
    exact h.funding_money
  · rw [hrows]
    exact h.paid

/-- Later, if no boundary has passed that the trade had to pay. -/
theorem Accrued.later (h : Accrued input t cap active) (hle : t ≤ t')
    (hnone : input.config.marketType = .futures → ∀ b, isBoundary b = true → t < b → b ≤ t' →
      b ≤ active.entryFill.timestamp ∨ b ∈ active.settledBoundaries) :
    Accrued input t' cap active := by
  refine { h with mem_iff := fun b => (h.mem_iff b).trans ?_ }
  constructor
  · rintro ⟨hfutures, hboundary, hentry, hbt⟩
    exact ⟨hfutures, hboundary, hentry, hbt.trans hle⟩
  · rintro ⟨hfutures, hboundary, hentry, hbt⟩
    refine ⟨hfutures, hboundary, hentry, ?_⟩
    rcases le_or_gt b t with hpast | hfuture
    · exact hpast
    · rcases hnone hfutures b hboundary hfuture hbt with hbefore | hsettled
      · omega
      · exact ((h.mem_iff b).1 hsettled).2.2.2

/-- A trade entered at `t` or later has nothing to pay by `t`. -/
theorem accrued_started {executionId : ℕ} {fill : Fill} {signal : TradingSignal}
    {candidateId : Option ℕ} {features : Features} (h : t ≤ fill.timestamp) :
    Accrued input t none (startedTrade tradeId executionId fill signal candidateId features) where
  tradeId_eq := fun _ hrow => absurd hrow List.not_mem_nil
  settled_eq := rfl
  nodup := List.nodup_nil
  mem_iff b := by
    constructor
    · exact fun hb => absurd hb List.not_mem_nil
    · rintro ⟨-, -, hentry, hbt⟩
      change fill.timestamp < b at hentry
      omega
  funding_eq := by
    change quantizeAmount 0 = -0
    rw [isMoney_zero.quantizeAmount_eq, neg_zero]
  funding_money := isMoney_quantizeAmount 0
  paid := fun _ hrow => absurd hrow List.not_mem_nil

/-! ### One settlement -/

/-- What a settlement collects is a money value, the theoretical cost unless the margin is
short of it; then the margin is exhausted. -/
theorem chargeFunding_collects {cost mmr : Decimal} {position charged : Position}
    {result : FundingMarginResult} (hopen : IsOpen input position)
    (h : PositionBook.chargeFunding cost mmr position = .ok result charged) :
    IsMoney result.appliedCost ∧ IsMoney result.theoreticalCost ∧
      |result.appliedCost| ≤ |result.theoreticalCost| ∧
      (result.appliedCost ≠ result.theoreticalCost → result.exhausted = true) := by
  obtain ⟨-, -, level, rfl, -, -, happlied, hexhausted⟩ := PositionBook.chargeFunding_eq_ok h
  have htheoretical : result.theoreticalCost = quantizeAmount cost := by
    unfold PositionBook.chargeFunding at h
    simp only [bind_eq_ok, get_apply, set_apply, raiseUnless_eq_ok, runPure_eq_ok, pure_apply,
      EStateM.Result.ok.injEq] at h
    obtain ⟨_, _, -, _, _, -, _, _, -, _, _, -, _, _, -, _, _, -, _, _, -, _, _, -, _, _, -, _, _,
      -, rfl, -⟩ := h
    rfl
  -- a cost that is received is never short
  have hnormalized := isMoney_quantizeAmount cost
  rw [← htheoretical] at happlied hexhausted hnormalized
  by_cases hpos : 0 < result.theoreticalCost
  · rw [if_pos hpos] at happlied
    rcases le_or_gt result.theoreticalCost position.margin with hle | hgt
    · rw [min_eq_left hle] at happlied
      rw [happlied]
      exact ⟨hnormalized, hnormalized, le_rfl, fun hne => absurd rfl hne⟩
    · -- the margin is what there is to collect
      rw [min_eq_right hgt.le] at happlied
      refine ⟨happlied ▸ hopen.margin_money, hnormalized, ?_, fun _ => ?_⟩
      · rw [happlied, abs_of_nonneg hopen.margin_nonneg, abs_of_pos hpos]
        exact hgt.le
      · rw [hexhausted, decide_eq_true_eq]
        refine ⟨hpos, ?_⟩
        change quantizeAmount (position.margin - result.appliedCost) = 0
        rw [happlied, sub_self, isMoney_zero.quantizeAmount_eq]
  · rw [if_neg hpos] at happlied
    rw [happlied]
    exact ⟨hnormalized, hnormalized, le_rfl, fun hne => absurd rfl hne⟩

/-- **A settlement** at the first boundary after `t` accrues it. -/
theorem Accrued.settle {boundary : ℤ} {row : FundingRow} {result : FundingMarginResult}
    (h : Accrued input t none active) (hfutures : input.config.marketType = .futures)
    (hboundary : isBoundary boundary = true) (hentered : active.entryFill.timestamp < boundary)
    (hopen : boundary ∉ active.settledBoundaries)
    (hbetween : ∀ b, isBoundary b = true → t < b → ¬b < boundary)
    (hid : row.tradeId = active.tradeId) (hat : row.settledAt = boundary)
    (hpayment : row.paymentAmount = -result.appliedCost)
    (htheoretical : row.theoreticalPaymentAmount = -result.theoreticalCost)
    (happlied : IsMoney result.appliedCost)
    (hcapped : |result.appliedCost| ≤ |result.theoreticalCost|)
    (hcap : result.appliedCost ≠ result.theoreticalCost → cap = some boundary) :
    Accrued input boundary cap (ActiveTrade.addFunding active boundary row result) where
  tradeId_eq := by
    intro row' hrow'
    rcases List.mem_append.1 hrow' with hold | hnew
    · exact h.tradeId_eq row' hold
    · rw [List.mem_singleton.1 hnew]
      exact hid
  settled_eq := by
    change (active.fundingRecords ++ [row]).map _ = active.settledBoundaries ++ [boundary]
    rw [List.map_append, h.settled_eq, List.map_singleton, hat]
  nodup := by
    change (active.settledBoundaries ++ [boundary]).Nodup
    rw [List.nodup_append]
    refine ⟨h.nodup, List.nodup_singleton _, fun b hb b' hb' => ?_⟩
    rw [List.mem_singleton.1 hb']
    exact ne_of_mem_of_not_mem hb hopen
  mem_iff b := by
    change b ∈ active.settledBoundaries ++ [boundary] ↔ _ ∧ _ ∧ active.entryFill.timestamp < b ∧ _
    -- the boundary was open, so it lies after `t`
    have hlater : t < boundary := by
      by_contra hle
      exact hopen ((h.mem_iff boundary).2 ⟨hfutures, hboundary, hentered, by omega⟩)
    rw [List.mem_append, List.mem_singleton, h.mem_iff]
    constructor
    · rintro (⟨-, hb, hentry, hbt⟩ | rfl)
      · exact ⟨hfutures, hb, hentry, by omega⟩
      · exact ⟨hfutures, hboundary, hentered, le_rfl⟩
    · rintro ⟨-, hb, hentry, hbt⟩
      rcases le_or_gt b t with hpast | hfuture
      · exact Or.inl ⟨hfutures, hb, hentry, hpast⟩
      · have := hbetween b hb hfuture
        exact Or.inr (by omega)
  funding_eq := by
    change quantizeAmount (active.funding + result.appliedCost) =
      -((active.fundingRecords ++ [row]).map _).sum
    rw [(h.funding_money.add happlied).quantizeAmount_eq, List.map_append, List.sum_append,
      List.map_singleton, List.sum_singleton, hpayment, h.funding_eq]
    ring
  funding_money := isMoney_quantizeAmount _
  paid := by
    intro row' hrow'
    rcases List.mem_append.1 hrow' with hold | hnew
    · obtain ⟨hle, hfull⟩ := h.paid row' hold
      exact ⟨hle, fun hne => absurd (hfull hne) (by simp)⟩
    · rw [List.mem_singleton.1 hnew, hpayment, htheoretical, abs_neg, abs_neg, hat]
      exact ⟨hcapped, fun hne => hcap fun heq => hne (congrArg _ heq)⟩

end Engine
end TradingSystem
