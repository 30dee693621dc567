import TradingSystem.Engine.JournalFills
import TradingSystem.Engine.Moves

/-!
# The journal along the open of a bar

A settlement reserves the keys of its row, a forced exit records a decision and executes it, and
a carried order executes the decision it was queued for.
-/

namespace TradingSystem

open Numeric Logic

namespace Engine

open JournalSpec

variable {input : RunInput} {s s' : EngineState} {reserved : Multiset EvidenceKey}
  {tasks tasks' : List EvidenceTask} {active : ActiveTrade} {fill : Fill}

/-! ### Forced exits -/

/-- A decision without a signal leaves its execution to be done. -/
theorem forced_journal {row : DecisionRow} {s₁ : EngineState} {u : PUnit}
    (h : InOrder reserved tasks s) (hsignal : row.signalId = none)
    (hnext : next .decision s = .ok row.decisionId s₁)
    (hrecord : record input (.decision row) s₁ = .ok u s') :
    InOrder reserved (.execute row.decisionId :: tasks) s' ∧ Extends s s' ∧
      Known s' (.id .decision row.decisionId) := by
  obtain ⟨h₁, e₁⟩ := h.next hnext
  have hrefs : EvidenceRecord.refs (.decision row) = [] := by
    show row.signalId.toList.map _ = []
    rw [hsignal]
    rfl
  obtain ⟨h₂, e₂, hknown⟩ := InOrder.record h₁ hrecord
    (fun key hkey => by
      rw [hrefs] at hkey
      cases hkey)
    (fun task htask => Or.inl (htask.elim (List.mem_cons_of_mem _) fun hraised => by
      change task ∈ if row.action = .skip then [] else [EvidenceTask.execute row.decisionId]
        at hraised
      split at hraised
      · cases hraised
      · rw [List.mem_singleton.1 hraised]
        exact List.mem_cons_self ..))
  exact ⟨h₂, e₁.trans e₂, hknown _ (List.mem_singleton_self _)⟩

theorem recordForcedExit_journal {decisionTs planned : ℤ} {position : Position} {decisionId : ℕ}
    (h : InOrder reserved tasks s)
    (hrun : recordForcedExit input decisionTs position planned s = .ok decisionId s') :
    InOrder reserved (.execute decisionId :: tasks) s' ∧ Extends s s' ∧
      Known s' (.id .decision decisionId) := by
  unfold recordForcedExit at hrun
  simp only [bind_eq_ok, pure_apply, EStateM.Result.ok.injEq] at hrun
  obtain ⟨_, _, hnext, _, _, hrecord, rfl, rfl⟩ := hrun
  exact forced_journal h rfl hnext hrecord

/-- A fill of an exit without a candidate. -/
theorem applyFill_exit_journal {decisionId : Option ℕ} (h : InOrder reserved tasks s)
    (hdecision : ∀ n ∈ decisionId, Known s (.id .decision n))
    (htasks : ∀ task ∈ tasks, task ∈ tasks' ∨ task ∈ decisionId.toList.map EvidenceTask.execute)
    (hrun : applyFill input fill decisionId none none s = .ok ⟨⟩ s') :
    InOrder reserved tasks' s' ∧ Extends s s' := by
  refine applyFill_journal ?_ hdecision htasks hrun
  show InOrder (0 + reserved) tasks s
  rwa [Multiset.zero_add]

/-- A forced exit is executed at once. -/
theorem applyFill_forced_journal {decisionId : ℕ}
    (h : InOrder reserved (.execute decisionId :: tasks) s)
    (hdecision : Known s (.id .decision decisionId))
    (hrun : applyFill input fill (some decisionId) none none s = .ok ⟨⟩ s') :
    InOrder reserved tasks s' ∧ Extends s s' := by
  refine applyFill_exit_journal h ?_ ?_ hrun
  · intro n hn
    cases hn
    exact hdecision
  · intro task htask
    rcases List.mem_cons.1 htask with rfl | htask
    · exact Or.inr (List.mem_singleton_self _)
    · exact Or.inl htask

/-! ### Settlements -/

theorem liquidateExhausted_journal {position : Position} {boundary : ℤ} {price : Decimal}
    (h : InOrder reserved tasks s)
    (hrun : liquidateExhausted input position boundary price s = .ok ⟨⟩ s') :
    InOrder reserved tasks s' ∧ Extends s s' := by
  unfold liquidateExhausted at hrun
  simp only [bind_eq_ok, runPure_eq_ok] at hrun
  obtain ⟨decisionId, s₁, hnext, _, s₂, hrecord, fill, _, ⟨-, rfl⟩, hrun⟩ := hrun
  obtain ⟨h₂, e₂, hknown⟩ := forced_journal h rfl hnext hrecord
  obtain ⟨h₃, e₃⟩ := applyFill_forced_journal h₂ hknown hrun
  exact ⟨h₃, e₂.trans e₃⟩

/-- One more settlement row among the rows of a trade. -/
theorem tradeKeys_addFunding {boundary : ℤ} {row : FundingRow} {result : FundingMarginResult} :
    tradeKeys (ActiveTrade.addFunding active boundary row result) =
      ↑(EvidenceRecord.keys (.funding row)) + tradeKeys active := by
  have hrows : evidence.keysOf ((active.fundingRecords ++ [row]).map .funding) =
      evidence.keysOf (active.fundingRecords.map .funding) ++
        EvidenceRecord.keys (.funding row) := by
    rw [List.map_append, keysOf_append]
    rfl
  show {.id .trade active.tradeId} + phaseKeys active.tradeId +
    ↑(evidence.keysOf (active.positionRecords.map .position)) +
    ↑(evidence.keysOf ((active.fundingRecords ++ [row]).map .funding)) +
    candidateKeys active.candidateId = _
  rw [hrows, ← Multiset.coe_add]
  unfold tradeKeys
  abel

/-- The settlement of a boundary that the trade has not settled has a key of its own. -/
theorem settledAt_fresh {boundary : ℤ} (h : InOrder reserved tasks s)
    (hreserved : ∀ key ∈ reserved, key.owner.1 = .candidate)
    (hactive : s.activeTrade = some active) (hopen : boundary ∉ active.settledBoundaries) :
    ¬ Known s (.settledAt active.tradeId boundary) ∧
      .settledAt active.tradeId boundary ∉ activeKeys s.activeTrade + reserved := by
  have hrooted := h.rooted active hactive
  have htrade : .id .trade active.tradeId ∈ activeKeys s.activeTrade + reserved := by
    rw [hactive]
    simp [activeKeys, tradeKeys]
  constructor
  · -- a recorded settlement refers to its trade, which is not recorded yet
    intro hknown
    obtain ⟨row, hrow, hkey⟩ := mem_keysOf.1 hknown
    have hrefs : .id .trade active.tradeId ∈ evidence.refs row := by
      cases row <;> simp [evidence, EvidenceRecord.keys, EvidenceRecord.refs] at hkey ⊢
      exact hkey.1
    exact h.journal.kept.not_mem_keysOf htrade
      (h.journal.kept.referenced.mem_keysOf hrow hrefs)
  · intro hmem
    rw [Multiset.mem_add] at hmem
    rcases hmem with hmem | hmem
    · rw [hactive] at hmem
      simp only [activeKeys, tradeKeys, phaseKeys, candidateKeys, Multiset.mem_add,
        Multiset.mem_singleton, Multiset.mem_coe, List.mem_map, mem_keysOf] at hmem
      rcases hmem with (((hmem | hmem) | hmem) | hmem) | hmem
      · cases hmem
      · obtain ⟨phase, -, hphase⟩ := hmem
        cases hphase
      · obtain ⟨_, ⟨row, -, rfl⟩, hkey⟩ := hmem
        simp [evidence, EvidenceRecord.keys] at hkey
      · -- among the settlements of the trade every boundary is a settled one
        obtain ⟨_, ⟨row, hrow, rfl⟩, hkey⟩ := hmem
        simp only [evidence, EvidenceRecord.keys, List.mem_cons, List.not_mem_nil, or_false,
          reduceCtorEq, false_or, EvidenceKey.settledAt.injEq] at hkey
        rw [hkey.2] at hopen
        exact hopen (hrooted.settled row hrow)
      · obtain ⟨n, -, hn⟩ := hmem
        cases hn
    · have := hreserved _ hmem
      cases this

/-- **A settlement** joins the rows of the active trade. -/
theorem bookFunding_journal {position : Position} {boundary : ℤ}
    {rate : Decimal × FundingRateSource} {price : Decimal × SettlePriceSource}
    {funding : FundingMarginResult} (h : InOrder reserved tasks s)
    (hreserved : ∀ key ∈ reserved, key.owner.1 = .candidate)
    (hactive : s.activeTrade = some active) (hopen : boundary ∉ active.settledBoundaries)
    (hrun : bookFunding active position boundary rate price funding s = .ok ⟨⟩ s') :
    InOrder reserved tasks s' ∧ Extends s s' := by
  unfold bookFunding at hrun
  simp only [bind_eq_ok, modify_apply, EStateM.Result.ok.injEq] at hrun
  obtain ⟨settlementId, s₁, hnext, -, rfl⟩ := hrun
  -- the keys of the new row: its number, and the boundary
  obtain ⟨hfresh, hunreserved⟩ := settledAt_fresh h hreserved hactive hopen
  have hbound : active.tradeId ≤ s.sequence .trade := by
    refine h.journal.bounded (.id .trade active.tradeId) ?_
    rw [hactive]
    simp [activeKeys, tradeKeys]
  have hnumbered := (h.journal.reserve hfresh hunreserved hbound).number hnext
  have hextends := next_extends hnext
  obtain ⟨-, rfl⟩ := next_run hnext
  have hkeys : {EvidenceKey.id .settlement settlementId} +
      (.settledAt active.tradeId boundary ::ₘ (activeKeys s.activeTrade + reserved)) =
        tradeKeys (ActiveTrade.addFunding active boundary
          (fundingRow settlementId active position boundary rate price funding) funding) +
          reserved := by
    rw [hactive, tradeKeys_addFunding, ← Multiset.singleton_add]
    show _ = ({EvidenceKey.id .settlement settlementId} +
      {EvidenceKey.settledAt active.tradeId boundary} : Multiset EvidenceKey) +
        tradeKeys active + reserved
    show _ + (_ + (tradeKeys active + reserved)) = _
    abel
  rw [hkeys] at hnumbered
  refine ⟨⟨hnumbered.same rfl rfl, fun active' hactive' => ?_⟩, hextends.trans (.of_eq rfl rfl)⟩
  cases hactive'
  have hrooted := (h.rooted active hactive).extends hextends
  refine ⟨hrooted.entry, hrooted.position, fun row hrow => ?_, fun row hrow => ?_⟩
  · rcases List.mem_append.1 hrow with hrow | hrow
    · exact hrooted.funding row hrow
    · rw [List.mem_singleton.1 hrow]
      rfl
  · rcases List.mem_append.1 hrow with hrow | hrow
    · exact List.mem_append_left _ (hrooted.settled row hrow)
    · rw [List.mem_singleton.1 hrow]
      exact List.mem_append_right _ (List.mem_singleton_self _)

theorem settle_journal {position : Position} {boundary : ℤ} (h : InOrder reserved tasks s)
    (hreserved : ∀ key ∈ reserved, key.owner.1 = .candidate)
    (hactive : s.activeTrade = some active) (hopen : boundary ∉ active.settledBoundaries)
    (hrun : settle input position active boundary s = .ok ⟨⟩ s') :
    InOrder reserved tasks s' ∧ Extends s s' := by
  unfold settle at hrun
  simp only [bind_eq_ok, runPure_eq_ok, onBook_eq_ok] at hrun
  obtain ⟨price, _, ⟨-, rfl⟩, cost, _, ⟨-, rfl⟩, mmr, _, ⟨-, rfl⟩, result, _, ⟨book, -, rfl⟩, _,
    s₁, hbooked, hrun⟩ := hrun
  have hbook : InOrder reserved tasks { s with book := book } ∧ Extends s { s with book := book } :=
    h.keep rfl rfl rfl rfl
  obtain ⟨h₀, e₀⟩ := hbook
  obtain ⟨h₁, e₁⟩ := bookFunding_journal h₀ hreserved hactive hopen hbooked
  cases hexhausted : result.exhausted with
  | false =>
    simp only [hexhausted, Bool.false_eq_true, if_false] at hrun
    cases hrun
    exact ⟨h₁, e₀.trans e₁⟩
  | true =>
    simp only [hexhausted, if_true, bind_eq_ok, currentPosition_eq_ok] at hrun
    obtain ⟨remaining, _, ⟨-, rfl⟩, hrun⟩ := hrun
    cases remaining with
    | none => cases hrun
    | some remaining =>
      obtain ⟨h₂, e₂⟩ := liquidateExhausted_journal h₁ hrun
      exact ⟨h₂, e₀.trans (e₁.trans e₂)⟩

theorem settleAtBoundary_journal {boundary : ℤ} (h : InOrder reserved tasks s)
    (hreserved : ∀ key ∈ reserved, key.owner.1 = .candidate)
    (hrun : settleAtBoundary input boundary s = .ok ⟨⟩ s') :
    InOrder reserved tasks s' ∧ Extends s s' := by
  rcases settleAtBoundary_eq_ok hrun with
    ⟨rfl, -⟩ | ⟨position, active, -, -, -, hactive, -, hopen, hsettle⟩
  · exact ⟨h, .refl _⟩
  · exact settle_journal h hreserved hactive hopen hsettle

/-! ### Carried orders -/

/-- The keys of waiting orders are their candidates. -/
theorem owner_of_mem_orderKeys {orders : List PendingOrder} {key : EvidenceKey}
    (h : key ∈ orderKeys orders) : key.owner.1 = .candidate := by
  induction orders with
  | nil => cases h
  | cons pending orders ih =>
    unfold orderKeys at h
    rw [List.map_cons, List.sum_cons, Multiset.mem_add] at h
    rcases h with h | h
    · rw [candidateKeys, Multiset.mem_coe, List.mem_map] at h
      obtain ⟨n, -, rfl⟩ := h
      rfl
    · exact ih h

/-- The risk budget only reads the state. -/
theorem riskBudget_same {request : OrderRequest} : Moves Eq (riskBudget input request) := by
  unfold riskBudget
  split
  · exact ((moves_get.bind fun _ => moves_runPure _).bind fun _ => moves_get.bind fun _ =>
      moves_pure _).bind fun _ => moves_pure _
  · exact moves_pure _

/-- A broker's number is no key of the evidence. -/
theorem submit_journal {context : ExecutionContext} {request : OrderRequest}
    (h : InOrder reserved tasks s) (hrun : submit input context request s = .ok fill s') :
    InOrder reserved tasks s' ∧ Extends s s' := by
  unfold submit at hrun
  simp only [bind_eq_ok, runPure_eq_ok] at hrun
  obtain ⟨sequence, _, hnext, -, rfl⟩ := hrun
  obtain ⟨h₁, e₁⟩ := h.next hnext
  exact ⟨h₁.mono (Multiset.le_add_left _ _) (List.Subset.refl _), e₁⟩

/-- **A carried order** executes its decision. -/
theorem executePending_journal {candle : Candle} {pending : PendingOrder}
    (h : InOrder (candidateKeys pending.candidateId + reserved) (pending.task :: tasks) s)
    (hdecision : Known s (.id .decision pending.decisionId))
    (hrun : executePending input candle pending s = .ok ⟨⟩ s') :
    InOrder reserved tasks s' ∧ Extends s s' := by
  unfold executePending matchPending at hrun
  simp only [bind_eq_ok, raiseUnless_eq_ok, get_bind_apply, pure_apply,
    EStateM.Result.ok.injEq] at hrun
  obtain ⟨_, _, ⟨-, rfl⟩, _, _, ⟨budget, s₀, hbudget, fill, s₁, hsubmit, rfl, rfl⟩, _, _,
    ⟨-, rfl⟩, happly⟩ := hrun
  obtain rfl := riskBudget_same.of_ok hbudget
  obtain ⟨h₁, e₁⟩ := submit_journal h hsubmit
  have hdecision₁ : ∀ n ∈ some pending.decisionId, Known s₁ (.id .decision n) := by
    intro n hn
    cases hn
    exact hdecision.extends e₁
  obtain ⟨h₂, e₂⟩ := applyFill_journal h₁ hdecision₁ (fun task htask => by
    rcases List.mem_cons.1 htask with rfl | htask
    · exact Or.inr (List.mem_singleton_self _)
    · exact Or.inl htask) happly
  exact ⟨h₂, e₁.trans e₂⟩

/-! ### Triggers -/

/-- Tracking the extremes keeps the numbers of a trade. -/
theorem sameRows_tracked {candle : Candle} {position : Position} {features : Features}
    (active : ActiveTrade) : SameRows active (tracked candle position features active) := by
  unfold tracked
  split <;> exact ⟨rfl, rfl, rfl, rfl, rfl, rfl⟩

theorem protect_journal {candle : Candle} (h : InOrder reserved tasks s)
    (hrun : protect input candle s = .ok ⟨⟩ s') : InOrder reserved tasks s' ∧ Extends s s' := by
  unfold protect at hrun
  simp only [bind_eq_ok, currentPosition_eq_ok] at hrun
  obtain ⟨held, _, ⟨-, rfl⟩, hrun⟩ := hrun
  cases held with
  | none =>
    cases hrun
    exact ⟨h, .refl _⟩
  | some position =>
    unfold applyTrigger walkTriggers at hrun
    simp only [bind_eq_ok, get_bind_apply, runPure_eq_ok] at hrun
    obtain ⟨trigger, _, ⟨-, rfl⟩, hrun⟩ := hrun
    cases trigger with
    | none =>
      cases hrun
      exact ⟨h, .refl _⟩
    | some fill =>
      simp only [bind_eq_ok] at hrun
      obtain ⟨_, s₁, htrack, decisionId, s₂, hforced, happly⟩ := hrun
      obtain rfl := trackExcursions_eq_ok htrack
      have htracked : InOrder reserved tasks (withTracking input candle position s) ∧
          Extends s (withTracking input candle position s) :=
        h.same rfl rfl rfl rfl fun active => sameRows_tracked active
      obtain ⟨h₁, e₁⟩ := htracked
      obtain ⟨h₂, e₂, hknown⟩ := recordForcedExit_journal h₁ hforced
      obtain ⟨h₃, e₃⟩ := applyFill_forced_journal h₂ hknown happly
      exact ⟨h₃, e₁.trans (e₂.trans e₃)⟩

end Engine
end TradingSystem
