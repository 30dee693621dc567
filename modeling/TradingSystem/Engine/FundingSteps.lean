import TradingSystem.Engine.FundingLedger

/-!
# Funding along the operations of a run

`Funded t n s` is kept by what records neither a trade nor a settlement (`Funded.quiet`), by
a trade that is started at `t` or later, and by an exit between whose time and `t` no
boundary lies; `settleAtBoundary_funded` is the one operation that moves `t`.
-/

namespace TradingSystem

open Numeric Logic

namespace Engine

variable {input : RunInput} {s s' : EngineState} {active : ActiveTrade} {t t' : ℤ}
  {cap cap' : Option ℤ} {n n' : ℕ} {exact : Prop} {held : Option Position} {fill : Fill}

/-- **The funding of a run** at `t`: the active trade has accrued its own, the completed
trades are settled once, and no trade has had a number beyond `n`. -/
structure Funded (input : RunInput) (t : ℤ) (cap : Option ℤ) (n : ℕ) (s : EngineState) :
    Prop where
  recorded_le : ∀ tradeId, Recorded s.records tradeId → tradeId ≤ n
  active_le : ∀ active ∈ s.activeTrade, active.tradeId ≤ n
  /-- The rows of the active trade are still buffered. -/
  unrecorded : ∀ active ∈ s.activeTrade, ¬Recorded s.records active.tradeId
  accrued : ∀ active ∈ s.activeTrade, Accrued input t cap active
  settledOnce : ∀ row, .trade row ∈ s.records →
    SettledOnce row (settlementsOf s.records row.tradeId)

theorem Funded.mono (h : Funded input t cap n s) (hle : n ≤ n') : Funded input t cap n' s :=
  { h with
    recorded_le := fun tradeId hrecorded => (h.recorded_le tradeId hrecorded).trans hle
    active_le := fun active hactive => (h.active_le active hactive).trans hle }

/-- A flat run owes nothing at any time. -/
theorem Funded.of_flat (h : Funded input t cap n s) (hflat : s.activeTrade = none) :
    Funded input t' cap' n s := by
  refine { h with accrued := fun active hactive => ?_ }
  rw [hflat] at hactive
  cases hactive

/-- Spot trades owe nothing at any time. -/
theorem Funded.of_spot (h : Funded input t cap n s) (hspot : input.config.marketType ≠ .futures) :
    Funded input t' cap n s := by
  refine { h with accrued := fun active hactive => ?_ }
  have haccrued := h.accrued active hactive
  refine { haccrued with mem_iff := fun b => (haccrued.mem_iff b).trans ?_ }
  exact ⟨fun h => absurd h.1 hspot, fun h => absurd h.1 hspot⟩

/-- Later, if the active trade had no boundary to pay. -/
theorem Funded.later (h : Funded input t cap n s) (hle : t ≤ t')
    (hnone : ∀ active ∈ s.activeTrade, input.config.marketType = .futures → ∀ b,
      isBoundary b = true → t < b → b ≤ t' →
        b ≤ active.entryFill.timestamp ∨ b ∈ active.settledBoundaries) :
    Funded input t' cap n s :=
  { h with
    accrued := fun active hactive => (h.accrued active hactive).later hle (hnone active hactive) }

/-! ### Quiet operations -/

/-- `s'` is `s` with rows that are neither trades nor settlements, and the funding of the
active trade as it was. -/
structure Quiet (s s' : EngineState) : Prop where
  records : ∃ rows, s'.records = s.records ++ rows ∧ ∀ row ∈ rows, Unfunded row
  active : ∀ active' ∈ s'.activeTrade, ∃ active ∈ s.activeTrade, SameFunding active active'

theorem Quiet.refl (s : EngineState) : Quiet s s :=
  ⟨⟨[], (List.append_nil _).symm, by simp⟩, fun active hactive => ⟨active, hactive, .refl _⟩⟩

theorem Quiet.of_active (hrecords : s'.records = s.records)
    (hactive : ∀ active' ∈ s'.activeTrade, ∃ active ∈ s.activeTrade, SameFunding active active') :
    Quiet s s' :=
  ⟨⟨[], by rw [hrecords, List.append_nil], by simp⟩, hactive⟩

theorem Quiet.of_eq (hrecords : s'.records = s.records) (hactive : s'.activeTrade = s.activeTrade) :
    Quiet s s' :=
  .of_active hrecords fun active' h => ⟨active', hactive ▸ h, .refl _⟩

theorem Quiet.trans {s₁ s₂ s₃ : EngineState} (h : Quiet s₁ s₂) (h' : Quiet s₂ s₃) :
    Quiet s₁ s₃ := by
  obtain ⟨rows, hrecords, hrows⟩ := h.records
  obtain ⟨rows', hrecords', hrows'⟩ := h'.records
  refine ⟨⟨rows ++ rows', by rw [hrecords', hrecords, List.append_assoc], fun row hrow => ?_⟩,
    fun active₃ h₃ => ?_⟩
  · exact (List.mem_append.1 hrow).elim (hrows row) (hrows' row)
  · obtain ⟨active₂, h₂, hsame₂⟩ := h'.active active₃ h₃
    obtain ⟨active₁, h₁, hsame₁⟩ := h.active active₂ h₂
    exact ⟨active₁, h₁, hsame₂.1.trans hsame₁.1, hsame₂.2.trans hsame₁.2, hsame₂.3.trans hsame₁.3,
      hsame₂.4.trans hsame₁.4, hsame₂.5.trans hsame₁.5⟩

theorem Quiet.of_logs {rows : List EvidenceRecord} (h : Logs rows s s')
    (hrows : ∀ row ∈ rows, Unfunded row) : Quiet s s' := by
  refine ⟨⟨rows, h.records_eq, hrows⟩, fun active hactive => ⟨active, ?_, .refl _⟩⟩
  rw [← h.activeTrade_eq]
  exact hactive

/-- **Quiet operations** leave the funding of a run alone. -/
theorem Funded.quiet (h : Funded input t cap n s) (hquiet : Quiet s s') :
    Funded input t cap n s' := by
  obtain ⟨rows, hrecords, hrows⟩ := hquiet.records
  have hnothing : ∀ tradeId, ¬Recorded rows tradeId := fun _ => not_recorded_of_unfunded hrows
  have hrecorded : ∀ tradeId, Recorded s'.records tradeId ↔ Recorded s.records tradeId := by
    intro tradeId
    rw [hrecords, recorded_append, or_iff_left (hnothing tradeId)]
  -- the numbers of the evidence and of the active trade are those of before
  refine ⟨fun tradeId hid => h.recorded_le tradeId ((hrecorded tradeId).1 hid), ?_, ?_, ?_, ?_⟩
  · intro active' hactive'
    obtain ⟨active, hactive, hsame⟩ := hquiet.active active' hactive'
    rw [hsame.tradeId_eq]
    exact h.active_le active hactive
  · intro active' hactive'
    obtain ⟨active, hactive, hsame⟩ := hquiet.active active' hactive'
    rw [hsame.tradeId_eq, hrecorded]
    exact h.unrecorded active hactive
  · intro active' hactive'
    obtain ⟨active, hactive, hsame⟩ := hquiet.active active' hactive'
    exact (h.accrued active hactive).same hsame
  · intro row hrow
    rw [hrecords, List.mem_append] at hrow
    rw [hrecords, settlementsOf_append, settlementsOf_eq_nil (hnothing _), List.append_nil]
    exact hrow.elim (h.settledOnce row) fun hnew => (hrows _ hnew).elim

theorem sameFunding_addCosts (active : ActiveTrade) (fill : Fill) :
    SameFunding active (ActiveTrade.addCosts active fill) := ⟨rfl, rfl, rfl, rfl, rfl⟩

/-! ### Completed trades -/

/-- What a completed trade takes over of its active trade and its exit. -/
theorem completedTrade_takes {trade : Trade} (h : completedTrade input active fill = .ok trade) :
    trade.marketType = input.config.marketType ∧
      trade.entryTime = active.entryFill.timestamp ∧ trade.exitTime = fill.timestamp ∧
      trade.fundingCost = quantizeAmount active.funding ∧
      trade.liquidated = decide (fill.exitReason.getD .signalExit = .liquidation) := by
  unfold completedTrade at h
  simp only [Except.bind_eq_ok] at h
  obtain ⟨ratio, -, h⟩ := h
  obtain ⟨rfl, -⟩ := Trade.postInit_eq_ok h
  exact ⟨rfl, rfl, rfl, rfl, rfl⟩

section Completion

variable {executionId : ℕ} {trade : Trade} {features : List EvidenceRecord}
  (hfeatures : ∀ row ∈ features, Unfunded row)
include hfeatures

/-- The rows of a completed trade hold one trade, its own. -/
theorem trade_mem_completionRows {row : TradeRow}
    (h : .trade row ∈ completionRows active executionId trade features) :
    row = tradeRow active executionId trade := by
  unfold completionRows at h
  simp only [List.mem_cons, List.mem_append, List.mem_map, reduceCtorEq, and_false, exists_false,
    false_or, EvidenceRecord.trade.injEq] at h
  exact h.elim id fun hfeature => (hfeatures _ hfeature).elim

/-- They hold the settlements it has buffered. -/
theorem fundingRows_completionRows :
    (completionRows active executionId trade features).filterMap fundingRow? =
      active.fundingRecords := by
  -- of the four parts after the trade only the second holds settlements
  have hnone : ∀ rows : List EvidenceRecord, (∀ row ∈ rows, fundingRow? row = none) →
      rows.filterMap fundingRow? = [] := fun rows h => List.filterMap_eq_nil_iff.2 h
  unfold completionRows
  rw [List.filterMap_cons_none (by rfl), List.filterMap_append, List.filterMap_append,
    List.filterMap_append, hnone _ ?_, hnone (active.candidateId.toList.map _) ?_,
    hnone features ?_, List.filterMap_map, List.nil_append, List.append_nil, List.append_nil]
  · exact List.filterMap_some
  · intro row hrow
    have hquiet := hfeatures row hrow
    cases row with
    | funding row => exact hquiet.elim
    | _ => rfl
  · intro row hrow
    obtain ⟨_, -, rfl⟩ := List.mem_map.1 hrow
    rfl
  · intro row hrow
    obtain ⟨_, -, rfl⟩ := List.mem_map.1 hrow
    rfl

variable (haccrued : Accrued input t cap active)
include haccrued

theorem recorded_completionRows {tradeId : ℕ}
    (h : Recorded (completionRows active executionId trade features) tradeId) :
    tradeId = active.tradeId := by
  rcases h with ⟨row, hrow, rfl⟩ | ⟨row, hrow, rfl⟩
  · rw [trade_mem_completionRows hfeatures hrow]
    rfl
  · rw [← mem_fundingRows, fundingRows_completionRows hfeatures] at hrow
    exact haccrued.tradeId_eq row hrow

/-- **A completed trade is settled once**, if between its exit and `t` no boundary lies. -/
theorem settledOnce_of_accrued (htrade : completedTrade input active fill = .ok trade)
    (hspan : input.config.marketType = .futures → ∀ b, isBoundary b = true →
      (b ≤ t ↔ b ≤ fill.timestamp))
    (hcap : ∀ b ∈ cap, fill.exitReason = some .liquidation ∧
      fill.timestamp = b + Instant.millisecond) :
    SettledOnce (tradeRow active executionId trade)
      (settlementsOf (completionRows active executionId trade features) active.tradeId) := by
  obtain ⟨hmarket, hentry, hexit, hfunding, hliquidated⟩ := completedTrade_takes htrade
  have hrows : settlementsOf (completionRows active executionId trade features) active.tradeId =
      active.fundingRecords := by
    unfold settlementsOf
    rw [fundingRows_completionRows hfeatures, List.filter_eq_self]
    exact fun row hrow => decide_eq_true (haccrued.tradeId_eq row hrow)
  rw [hrows]
  refine ⟨?_, fun b => ?_, ?_, fun settlement hsettlement => ?_⟩
  · rw [haccrued.settled_eq]
    exact haccrued.nodup
  · change _ ↔ trade.marketType = _ ∧ _ ∧ trade.entryTime < b ∧ b ≤ trade.exitTime
    rw [haccrued.settled_eq, haccrued.mem_iff, hmarket, hentry, hexit]
    constructor
    · rintro ⟨hfutures, hboundary, hafter, hbt⟩
      exact ⟨hfutures, hboundary, hafter, (hspan hfutures b hboundary).1 hbt⟩
    · rintro ⟨hfutures, hboundary, hafter, hbt⟩
      exact ⟨hfutures, hboundary, hafter, (hspan hfutures b hboundary).2 hbt⟩
  · change trade.fundingCost = _
    rw [hfunding, haccrued.funding_money.quantizeAmount_eq, haccrued.funding_eq]
  · obtain ⟨hle, hfull⟩ := haccrued.paid settlement hsettlement
    refine ⟨hle, fun hne => ?_⟩
    -- a short payment is the last one, and its liquidation is this exit
    obtain ⟨hreason, htime⟩ := hcap settlement.settledAt (hfull hne)
    refine ⟨?_, hexit.trans htime⟩
    change trade.liquidated = true
    rw [hliquidated, hreason]
    rfl

/-- **Completing the active trade** settles it and leaves the earlier trades alone. -/
theorem Funded.completed {before : ActiveTrade} (h : Funded input t cap n s)
    (hactive : s.activeTrade = some before) (hsame : SameFunding before active)
    (htrade : completedTrade input active fill = .ok trade)
    (hspan : input.config.marketType = .futures → ∀ b, isBoundary b = true →
      (b ≤ t ↔ b ≤ fill.timestamp))
    (hcap : ∀ b ∈ cap, fill.exitReason = some .liquidation ∧
      fill.timestamp = b + Instant.millisecond) (hflat : s'.activeTrade = none)
    (hrecords : s'.records = s.records ++ completionRows active executionId trade features) :
    Funded input t cap n s' := by
  have hfresh : ¬Recorded s.records active.tradeId := by
    rw [hsame.tradeId_eq]
    exact h.unrecorded before hactive
  have hnew : ∀ {tradeId}, Recorded (completionRows active executionId trade features) tradeId →
      tradeId = active.tradeId := recorded_completionRows hfeatures haccrued
  have hnone : ∀ {P : ActiveTrade → Prop}, ∀ active ∈ s'.activeTrade, P active := by
    rw [hflat]
    exact fun _ hmem => absurd hmem (by simp)
  refine ⟨fun tradeId hid => ?_, hnone, hnone, hnone, fun row hrow => ?_⟩
  · rw [hrecords, recorded_append] at hid
    rcases hid with hold | hid
    · exact h.recorded_le tradeId hold
    · rw [hnew hid, hsame.tradeId_eq]
      exact h.active_le before hactive
  · rw [hrecords, List.mem_append] at hrow
    rw [hrecords, settlementsOf_append]
    rcases hrow with hold | hcompletion
    · -- an earlier trade has another number
      have hother : ¬Recorded (completionRows active executionId trade features) row.tradeId :=
        fun hid => hfresh (hnew hid ▸ Or.inl ⟨row, hold, rfl⟩)
      rw [settlementsOf_eq_nil hother, List.append_nil]
      exact h.settledOnce row hold
    · -- the new one has no rows but its own
      rw [trade_mem_completionRows hfeatures hcompletion]
      change SettledOnce _ (settlementsOf s.records active.tradeId ++
        settlementsOf _ active.tradeId)
      rw [settlementsOf_eq_nil hfresh, List.nil_append]
      exact settledOnce_of_accrued hfeatures haccrued htrade hspan hcap

end Completion

/-! ### Fills -/

/-- **An exit** that completes the trade does so with its funding, if between its time and
`t` no boundary lies. -/
theorem applyFill_exit_funded {decisionId candidateId : Option ℕ} {signal : Option TradingSignal}
    (h : Funded input t cap n s) (hreduce : fill.reduceOnly = true)
    (hspan : s'.activeTrade = none → input.config.marketType = .futures → ∀ b,
      isBoundary b = true → (b ≤ t ↔ b ≤ fill.timestamp))
    (hcap : ∀ b ∈ cap, fill.exitReason = some .liquidation ∧
      fill.timestamp = b + Instant.millisecond)
    (hrun : applyFill input fill decisionId signal candidateId s = .ok ⟨⟩ s') :
    Funded input t cap n s' := by
  obtain ⟨before, executionId, s₁, -, hlogs, hbranch⟩ := applyFill_eq_ok hrun
  rw [if_pos hreduce] at hbranch
  have h₁ := h.quiet (.of_logs hlogs (by simp [Unfunded]))
  obtain ⟨position, active, cash, released, book, remaining, -, hactive, -, -, -, -, hend⟩ :=
    applyExit_eq_ok hreduce hbranch
  have hsame := sameFunding_addCosts active fill
  rcases hend with ⟨kept, -, rfl⟩ | ⟨-, trade, features, htrade, hrows, hcompleted⟩
  · -- a remainder keeps its trade
    refine h₁.quiet (.of_active rfl fun active' hactive' => ?_)
    cases hactive'
    exact ⟨active, hactive, hsame⟩
  · have hfeatures : ∀ row ∈ features, Unfunded row := by
      refine forall_of_forall₂ hrows ?_
      rintro _ _ ⟨feature, rfl, -⟩
      trivial
    have hflat : s'.activeTrade = none := hcompleted.activeTrade_eq
    exact Funded.completed hfeatures ((h₁.accrued active hactive).same hsame) h₁ hactive hsame
      htrade (hspan hflat) hcap hflat hcompleted.records_eq

/-- **An entry** at `t` or later starts a trade under a fresh number, if it starts one. -/
theorem applyFill_entry_funded {decisionId candidateId : Option ℕ} {signal : Option TradingSignal}
    (h : Funded input t none n s) (hentry : fill.reduceOnly = false) (htime : t ≤ fill.timestamp)
    (hle : n ≤ n')
    (hfresh : ∀ active' ∈ s'.activeTrade, (∃ active ∈ s.activeTrade,
      active'.tradeId = active.tradeId) ∨ (n < active'.tradeId ∧ active'.tradeId ≤ n'))
    (hrun : applyFill input fill decisionId signal candidateId s = .ok ⟨⟩ s') :
    Funded input t none n' s' := by
  obtain ⟨before, executionId, s₁, -, hlogs, hbranch⟩ := applyFill_eq_ok hrun
  rw [hentry, if_neg (by decide)] at hbranch
  have h₁ := h.quiet (.of_logs hlogs (by simp [Unfunded]))
  obtain ⟨-, book, -, -, -, -, -, -, hcases⟩ := applyEntry_eq_ok hbranch.2
  rcases hcases with ⟨active, hactive, rfl⟩ | ⟨hflat, origin, tradeId, -, hstarted⟩
  · -- a position that is held takes the costs
    refine Funded.mono ?_ hle
    refine h₁.quiet (.of_active rfl fun active' hactive' => ?_)
    cases hactive'
    exact ⟨active, hactive, sameFunding_addCosts active fill⟩
  -- the number of the new trade lies beyond all numbers of the evidence
  have hnumber : n < tradeId ∧ tradeId ≤ n' := by
    rcases hfresh _ hstarted.activeTrade_eq with ⟨active, hactive, -⟩ | hnew
    · rw [← hlogs.activeTrade_eq, hflat] at hactive
      cases hactive
    · exact hnew
  refine Funded.quiet ?_ (.of_logs hstarted (by simp))
  refine ⟨fun tradeId hid => (h₁.recorded_le tradeId hid).trans hle, ?_, ?_, ?_, h₁.settledOnce⟩
  · intro active' hactive'
    cases hactive'
    exact hnumber.2
  · intro active' hactive' hrecorded
    cases hactive'
    have := h₁.recorded_le tradeId hrecorded
    omega
  · intro active' hactive'
    cases hactive'
    exact accrued_started htime

/-! ### Settlements -/

/-- Boundaries are hours apart. -/
theorem boundary_le_of_le_add {b c : ℤ} (hb : isBoundary b = true) (hc : isBoundary c = true)
    (h : b ≤ c + Instant.millisecond) : b ≤ c := by
  rw [isBoundary_iff] at hb hc
  simp only [Instant.hour, Instant.minute, Instant.second, Instant.millisecond] at hb hc h
  omega

/-- A settlement of the open position. -/
theorem settle_funded {boundary : ℤ} {position : Position}
    (hcoherent : Coherent input exact (some position) s) (h : Funded input t none n s)
    (hfutures : input.config.marketType = .futures) (hboundary : isBoundary boundary = true)
    (hactive : s.activeTrade = some active) (hentered : active.entryFill.timestamp < boundary)
    (hopen : boundary ∉ active.settledBoundaries)
    (hbetween : ∀ b, isBoundary b = true → t < b → ¬b < boundary)
    (hrun : settle input position active boundary s = .ok ⟨⟩ s') :
    Funded input boundary none n s' := by
  obtain ⟨price, cost, filed, result, charged, row, s₁, -, -, hfiled, hcharge, ⟨settlementId, hrow⟩,
    hlogs, hexhausted⟩ := settle_eq_ok hrun
  obtain ⟨-, -, hget⟩ := hcoherent.files.get
  rw [hget] at hfiled
  cases hfiled
  obtain ⟨happlied, htheoretical, hcapped, hshort⟩ :=
    chargeFunding_collects (hcoherent.isOpen position rfl) hcharge
  have hpayment : row.paymentAmount = -result.appliedCost := by
    rw [hrow]
    exact happlied.neg.quantizeAmount_eq
  have hamount : row.theoreticalPaymentAmount = -result.theoreticalCost := by
    rw [hrow]
    exact htheoretical.neg.quantizeAmount_eq
  -- the state between the charge and the liquidation, if there is one
  have hsettled : ∀ cap, (result.appliedCost ≠ result.theoreticalCost → cap = some boundary) →
      Funded input boundary cap n s₁ := by
    intro cap hcap
    refine Funded.quiet ?_ (.of_logs hlogs (by simp))
    refine ⟨h.recorded_le, ?_, ?_, ?_, h.settledOnce⟩
    · intro active' hactive'
      cases hactive'
      exact h.active_le active hactive
    · intro active' hactive'
      cases hactive'
      exact h.unrecorded active hactive
    · intro active' hactive'
      cases hactive'
      exact (h.accrued active hactive).settle hfutures hboundary hentered hopen hbetween
        (by rw [hrow]; rfl) (by rw [hrow]; rfl) hpayment hamount happlied hcapped hcap
  by_cases hexhaust : result.exhausted = true
  · rw [if_pos hexhaust] at hexhausted
    obtain ⟨remaining, hremaining, hliquidate⟩ := hexhausted
    have hcharged : Coherent input exact (some charged) s₁ :=
      (hcoherent.settled hactive hcharge).logs hlogs (by simp)
    rw [hcharged.files.positionOf_eq] at hremaining
    cases hremaining
    have hclosed := liquidateExhausted_keeps hcharged hboundary (fun active' hactive' => by
      rw [hlogs.activeTrade_eq] at hactive'
      cases hactive'
      exact hentered) hliquidate
    obtain ⟨decision, s₂, fill, hdecision, -, hfill, happly⟩ := liquidateExhausted_eq_ok hliquidate
    obtain ⟨order, -, hexecution, hexit, -⟩ :=
      Matcher.liquidationFill_eq_ok (hcharged.isOpen charged rfl).quantity_money hfill
    have htime := hexecution.timestamp_eq
    have hmillisecond : (0 : ℤ) < Instant.millisecond := by decide
    -- the liquidation ends the trade at the boundary that exhausted it
    have hend := applyFill_exit_funded ((hsettled (some boundary) fun _ => rfl).quiet
      (.of_logs hdecision (by simp [Unfunded]))) hexit.reduceOnly_eq ?_ ?_ happly
    · exact hend.of_flat hclosed.coherent.activeTrade_eq_none
    · intro _ _ b hb
      rw [htime]
      exact ⟨fun hle => by omega, boundary_le_of_le_add hb hboundary⟩
    · intro b hb
      cases hb
      exact ⟨hexecution.exitReason_eq, htime⟩
  · rw [if_neg hexhaust] at hexhausted
    subst hexhausted
    exact hsettled none fun hne => absurd (hshort hne) hexhaust

/-- **Settling the first boundary after `t`** accrues it. -/
theorem settleAtBoundary_funded {boundary : ℤ} (hcoherent : Coherent input exact held s)
    (h : Funded input t none n s) (hle : t ≤ boundary)
    (hbetween : input.config.marketType = .futures → ∀ b, isBoundary b = true → t < b →
      ¬b < boundary)
    (hrun : settleAtBoundary input boundary s = .ok ⟨⟩ s') :
    Funded input boundary none n s' := by
  rcases settleAtBoundary_eq_ok hrun with
    ⟨rfl, hnothing⟩ | ⟨position, active, hfutures, hboundary, hposition, hactive, hafter, hopen,
      hsettle⟩
  · rcases hnothing with hflat | hsettled
    · rw [hcoherent.files.positionOf_eq] at hflat
      cases hflat
      exact h.of_flat hcoherent.activeTrade_eq_none
    · -- the only boundary that has passed is one the active trade does not owe
      refine h.later hle fun active hactive hfutures b hb hlater hbefore => ?_
      have hnot := hbetween hfutures b hb hlater
      obtain rfl : b = boundary := by omega
      exact hsettled hfutures hb active hactive
  · rw [hcoherent.files.positionOf_eq] at hposition
    cases hposition
    exact settle_funded hcoherent h hfutures hboundary hactive hafter hopen (hbetween hfutures)
      hsettle

/-! ### The close of a bar -/

/-- **The close of a bar** leaves the funding alone. -/
theorem stepClose_quiet {candle : Candle} {answer : StrategyAnswer}
    (hrun : stepClose input candle answer s = .ok ⟨⟩ s') : Quiet s s' := by
  unfold stepClose markGrid at hrun
  simp only [bind_eq_ok] at hrun
  obtain ⟨_, s₁, hupdate, _, s₄, ⟨_, s₂, hmark, _, s₃, hposition, hportfolio⟩, hanswer⟩ := hrun
  have h₁ : Quiet s s₁ := by
    obtain ⟨board, rows, -, hsnapshots, hlogs⟩ := updateIndicators_eq_ok hupdate
    have hboard : Quiet s { s with board := board } := .of_eq rfl rfl
    refine hboard.trans (.of_logs hlogs (forall_of_forall₂ hsnapshots ?_))
    rintro _ _ ⟨_, _, rfl, -⟩
    trivial
  have h₂ : Quiet s₁ s₂ := by
    obtain ⟨before, -, ⟨-, rfl⟩ | ⟨position, filed, marked, -, -, -, tracks, htracks, rfl⟩⟩ :=
      markPosition_eq_ok hmark
    · exact .refl _
    · refine .of_active rfl fun active' hactive' => ?_
      change active' ∈ s₁.activeTrade.map _ at hactive'
      rw [Option.mem_map] at hactive'
      obtain ⟨active, hactive, rfl⟩ := hactive'
      obtain ⟨mae, mfe, htrack⟩ := htracks active
      rw [htrack]
      exact ⟨active, hactive, rfl, rfl, rfl, rfl, rfl⟩
  obtain ⟨before, row, hbefore, -, -, hlogs⟩ := recordPortfolio_eq_ok hportfolio
  have hheld : ∃ held, positionOf input s₂.book = .ok held := by
    unfold recordPosition at hposition
    simp only [bind_eq_ok, currentPosition_eq_ok] at hposition
    obtain ⟨held, _, ⟨hheld, rfl⟩, -⟩ := hposition
    exact ⟨held, hheld⟩
  obtain ⟨held, hheld⟩ := hheld
  have h₃ : Quiet s₂ s₃ := by
    obtain ⟨row, -, ⟨active, -, hactive, hlogs⟩ | ⟨-, hlogs⟩⟩ :=
      recordPosition_eq_ok hheld hposition
    · have hrow : Quiet s₂ { s₂ with
          activeTrade := some (ActiveTrade.addPosition active row) } := by
        refine .of_active rfl fun active' hactive' => ?_
        cases hactive'
        exact ⟨active, hactive, rfl, rfl, rfl, rfl, rfl⟩
      exact hrow.trans (.of_logs hlogs (by simp))
    · exact .of_logs hlogs (by simp [Unfunded])
  have h₄ : Quiet s₃ s₄ := by
    have hcurve : Quiet s₃ { s₃ with
        equityCurve := s₃.equityCurve ++ [(candle.closeTime, recompute s₃.cash before)] } :=
      .of_eq rfl rfl
    exact hcurve.trans (.of_logs hlogs (by simp [Unfunded]))
  -- the answer is given in the book the portfolio row has read
  have hbook : positionOf input s₄.book = .ok before := by
    rw [hlogs.book_eq]
    exact hbefore
  obtain ⟨orders, -, rows, hrows, hnotes⟩ := handleAnswer_eq_ok hbook hanswer
  have hqueued : Quiet s₄ (queued s₄ orders) := .of_eq rfl rfl
  exact h₁.trans (h₂.trans (h₃.trans (h₄.trans (hqueued.trans
    (.of_logs hnotes fun row hrow => unfunded_of_clerical (hrows row hrow))))))

end Engine
end TradingSystem
