import TradingSystem.Engine.Journal
import TradingSystem.Engine.StepEffects
import Mathlib.Tactic.Abel

/-!
# The journal along fills and settlements

A fill settles the task of its decision and makes its execution known; a first entry reserves
the keys of its trade, and the exit that completes the trade writes the rows they belong to.
-/

namespace TradingSystem

open Numeric Logic

namespace Engine

open JournalSpec

variable {input : RunInput} {s s' : EngineState} {reserved : Multiset EvidenceKey}
  {tasks tasks' : List EvidenceTask} {active : ActiveTrade} {fill : Fill}

/-! ### Completed trades -/

/-- A loop that writes one row for each item. -/
theorem forEach_journal {α : Type} {f : α → EvidenceRecord} {items : List α}
    (h : Journal (↑(evidence.keysOf (items.map f)) + reserved) tasks s)
    (hrefs : ∀ item ∈ items, ∀ key ∈ (f item).refs, Known s key)
    (hraises : ∀ item, (f item).raises = [])
    (hrun : forEach items (fun item => record input (f item)) s = .ok ⟨⟩ s') :
    Journal reserved tasks s' ∧ Extends s s' ∧
      ∀ item ∈ items, ∀ key ∈ (f item).keys, Known s' key := by
  induction items generalizing s with
  | nil =>
    cases hrun
    refine ⟨?_, .refl _, fun item hitem => absurd hitem List.not_mem_nil⟩
    change Journal (0 + reserved) tasks _ at h
    rwa [Multiset.zero_add] at h
  | cons item rest ih =>
    rw [forEach_cons, bind_eq_ok] at hrun
    obtain ⟨_, s₁, hrecord, hrest⟩ := hrun
    change Journal (↑((f item).keys ++ evidence.keysOf (rest.map f)) + reserved) tasks s at h
    rw [← Multiset.coe_add, Multiset.add_assoc] at h
    obtain ⟨h₁, hextends, hknown⟩ := h.record_plain hrecord (hrefs item (List.mem_cons_self ..))
      (hraises item)
    obtain ⟨h₂, hextends', hknown'⟩ := ih h₁
      (fun other hother key hkey =>
        (hrefs other (List.mem_cons_of_mem _ hother) key hkey).extends hextends) hrest
    refine ⟨h₂, hextends.trans hextends', fun other hother key hkey => ?_⟩
    rcases List.mem_cons.1 hother with rfl | hother
    · exact (hknown key hkey).extends hextends'
    · exact hknown' other hother key hkey

/-- The feature rows of a trade take the keys of their phases. -/
theorem forEach_feature_journal {tradeId : ℕ}
    {items : List (FeaturePhase × ℤ × Features × Option Decimal)}
    (h : Journal (↑(items.map fun item => EvidenceKey.phase tradeId item.1) + reserved) tasks s)
    (htrade : Known s (.id .trade tradeId))
    (hrun : forEach items (recordFeature input tradeId) s = .ok ⟨⟩ s') :
    Journal reserved tasks s' ∧ Extends s s' := by
  induction items generalizing s with
  | nil =>
    cases hrun
    refine ⟨?_, .refl _⟩
    change Journal (0 + reserved) tasks _ at h
    rwa [Multiset.zero_add] at h
  | cons item rest ih =>
    rw [forEach_cons, bind_eq_ok] at hrun
    obtain ⟨_, s₂, hfeature, hrest⟩ := hrun
    unfold recordFeature at hfeature
    rw [bind_eq_ok] at hfeature
    obtain ⟨tfsId, s₁, hnext, hrecord⟩ := hfeature
    have h₁ := h.number hnext
    have hnumber := next_extends hnext
    -- the number of the row and its phase
    rw [List.map_cons, ← Multiset.cons_coe, ← Multiset.singleton_add, Multiset.add_assoc,
      ← Multiset.add_assoc] at h₁
    obtain ⟨h₂, hextends, -⟩ := h₁.record_plain hrecord (fun key hkey => by
      rw [List.mem_singleton.1 hkey]
      exact htrade.extends hnumber) rfl
    obtain ⟨h₃, hextends'⟩ := ih h₂ (htrade.extends (hnumber.trans hextends)) hrest
    exact ⟨h₃, hnumber.trans (hextends.trans hextends')⟩

/-- **Completing a trade** writes its rows. -/
theorem completeTrade_journal {exitExecutionId : ℕ}
    (h : Journal (tradeKeys active + reserved) tasks s) (hrooted : Rooted s active)
    (hexit : Known s (.id .execution exitExecutionId))
    (hrun : completeTrade input active fill exitExecutionId s = .ok ⟨⟩ s') :
    Journal reserved tasks s' ∧ Extends s s' := by
  unfold completeTrade at hrun
  simp only [bind_eq_ok, runPure_eq_ok, modify_apply, get_apply, EStateM.Result.ok.injEq] at hrun
  obtain ⟨trade, _, ⟨-, rfl⟩, _, _, ⟨-, rfl⟩, _, s₁, h₁, _, s₂, h₂, _, s₃, h₃, _, s₄, h₄, _, _,
    ⟨rfl, rfl⟩, h₅⟩ := hrun
  -- the keys in the order of the rows
  have hkeys : tradeKeys active + reserved = {EvidenceKey.id .trade active.tradeId} +
      (↑(evidence.keysOf (active.positionRecords.map .position)) +
        (↑(evidence.keysOf (active.fundingRecords.map .funding)) +
          (candidateKeys active.candidateId + (phaseKeys active.tradeId + reserved)))) := by
    unfold tradeKeys
    abel
  rw [hkeys] at h
  have hstart : Journal _ tasks { s with trades := s.trades ++ [trade] } := h.same rfl rfl
  obtain ⟨j₁, e₁, htrade⟩ := hstart.record_plain h₁ (fun key hkey => by
    rcases List.mem_cons.1 hkey with rfl | hkey
    · exact hrooted.entry
    · rw [List.mem_singleton.1 hkey]
      exact hexit) rfl
  have htrade₁ : Known s₁ (.id .trade active.tradeId) := htrade _ (List.mem_singleton_self _)
  obtain ⟨j₂, e₂, -⟩ := forEach_journal j₁ (fun row hrow key hkey => by
    change key ∈ row.tradeId.toList.map _ at hkey
    rw [hrooted.position row hrow] at hkey
    rw [List.mem_singleton.1 hkey]
    exact htrade₁) (fun _ => rfl) h₂
  have htrade₂ := htrade₁.extends e₂
  obtain ⟨j₃, e₃, -⟩ := forEach_journal j₂ (fun row hrow key hkey => by
    rw [List.mem_singleton.1 hkey, hrooted.funding row hrow]
    exact htrade₂) (fun _ => rfl) h₃
  have htrade₃ := htrade₂.extends e₃
  have hcandidates : candidateKeys active.candidateId =
      ↑(evidence.keysOf (active.candidateId.toList.map fun candidateId =>
        .candidate (realizedCandidate active candidateId))) := by
    cases active.candidateId <;> rfl
  rw [hcandidates] at j₃
  obtain ⟨j₄, e₄, -⟩ := forEach_journal j₃ (fun candidateId _ key hkey => by
    rw [List.mem_singleton.1 hkey]
    exact htrade₃) (fun _ => rfl) h₄
  obtain ⟨j₅, e₅⟩ := forEach_feature_journal j₄ (htrade₃.extends e₄) h₅
  have hbegin : Extends s { s with trades := s.trades ++ [trade] } := .of_eq rfl rfl
  exact ⟨j₅, hbegin.trans (e₁.trans (e₂.trans (e₃.trans (e₄.trans e₅))))⟩

/-! ### Fills -/

theorem sameRows_addCosts (active : ActiveTrade) (fill : Fill) :
    SameRows active (ActiveTrade.addCosts active fill) := ⟨rfl, rfl, rfl, rfl, rfl, rfl⟩

/-- The exit branch completes the trade or keeps its keys reserved. -/
theorem applyExit_journal {position : Option Position} {executionId : ℕ}
    (h : InOrder reserved tasks s) (hexecution : Known s (.id .execution executionId))
    (hrun : applyExit input fill position executionId s = .ok ⟨⟩ s') :
    InOrder reserved tasks s' ∧ Extends s s' := by
  unfold applyExit at hrun
  rw [get_bind_apply] at hrun
  cases hactive : s.activeTrade with
  | none =>
    rw [hactive] at hrun
    cases position <;> cases hrun
  | some active =>
  cases position with
  | none =>
    rw [hactive] at hrun
    cases hrun
  | some position =>
    rw [hactive] at hrun
    simp only [bind_eq_ok, modify_bind_apply, runPure_eq_ok, onBook_eq_ok] at hrun
    obtain ⟨cash, _, ⟨-, rfl⟩, _, _, ⟨book, -, rfl⟩, hrun⟩ := hrun
    unfold finishExit at hrun
    simp only [bind_eq_ok, currentPosition_eq_ok] at hrun
    obtain ⟨remaining, _, ⟨-, rfl⟩, hrun⟩ := hrun
    -- the costs of the exit leave the numbers of the trade alone
    have hcosts : InOrder reserved tasks
          (exited s cash book (ActiveTrade.addCosts active fill)) ∧
        Extends s (exited s cash book (ActiveTrade.addCosts active fill)) :=
      h.same (f := fun active => ActiveTrade.addCosts active fill) rfl rfl rfl
        (by rw [hactive]; rfl) fun active => sameRows_addCosts active fill
    obtain ⟨h₁, e₁⟩ := hcosts
    cases remaining with
    | some kept =>
      cases hrun
      exact ⟨h₁, e₁⟩
    | none =>
      simp only [bind_eq_ok, modify_apply, EStateM.Result.ok.injEq] at hrun
      obtain ⟨_, s₁, hcomplete, -, rfl⟩ := hrun
      obtain ⟨h₂, e₂⟩ := completeTrade_journal h₁.journal
        (h₁.rooted _ rfl) (hexecution.extends e₁) hcomplete
      refine ⟨⟨?_, fun _ hmem => nomatch hmem⟩, e₁.trans (e₂.trans (.of_eq rfl rfl))⟩
      show Journal (0 + reserved) tasks _
      rw [Multiset.zero_add]
      exact h₂.same rfl rfl

/-- An entry adds to the active trade or starts one under a new number. -/
theorem applyEntry_journal {position : Option Position} {projected : Decimal} {executionId : ℕ}
    {signal : Option TradingSignal} {candidateId : Option ℕ}
    (h : InOrder (candidateKeys candidateId + reserved) tasks s)
    (hexecution : Known s (.id .execution executionId))
    (hrun : applyEntry input fill position projected executionId signal candidateId s =
      .ok ⟨⟩ s') : InOrder reserved tasks s' ∧ Extends s s' := by
  unfold applyEntry at hrun
  simp only [bind_eq_ok, runPure_eq_ok, onBook_eq_ok, currentPosition_eq_ok] at hrun
  obtain ⟨_, _, ⟨-, rfl⟩, _, _, ⟨book, -, rfl⟩, after, _, ⟨-, rfl⟩, hrun⟩ := hrun
  cases after with
  | none => cases hrun
  | some after =>
  simp only [get_bind_apply, bind_eq_ok, raiseUnless_eq_ok, runPure_eq_ok, modify_bind_apply]
    at hrun
  obtain ⟨_, _, ⟨-, rfl⟩, cash, _, ⟨-, rfl⟩, hrun⟩ := hrun
  have hbook : InOrder (candidateKeys candidateId + reserved) tasks (entered s cash book) ∧
      Extends s (entered s cash book) := h.keep rfl rfl rfl rfl
  obtain ⟨h₁, e₁⟩ := hbook
  change recordEntry input fill executionId signal candidateId (entered s cash book) = _ at hrun
  unfold recordEntry at hrun
  rw [get_bind_apply] at hrun
  cases hactive : (entered s cash book).activeTrade with
  | some active =>
    rw [hactive] at hrun
    simp only [set_apply, EStateM.Result.ok.injEq] at hrun
    obtain ⟨-, rfl⟩ := hrun
    have hcosts : InOrder (candidateKeys candidateId + reserved) tasks
          { entered s cash book with activeTrade := some (ActiveTrade.addCosts active fill) } ∧
        Extends (entered s cash book)
          { entered s cash book with activeTrade := some (ActiveTrade.addCosts active fill) } :=
      h₁.same (f := fun active => ActiveTrade.addCosts active fill) rfl rfl rfl
        (by rw [hactive]; rfl) fun active => sameRows_addCosts active fill
    obtain ⟨h₂, e₂⟩ := hcosts
    exact ⟨h₂.mono (Multiset.le_add_left _ _) (List.Subset.refl _), e₁.trans e₂⟩
  | none =>
  rw [hactive] at hrun
  cases signal with
  | none => cases hrun
  | some signal =>
    unfold openTrade at hrun
    simp only [bind_eq_ok, modify_apply, EStateM.Result.ok.injEq] at hrun
    obtain ⟨tradeId, s₁, hnext, -, rfl⟩ := hrun
    have hjournal := h₁.journal
    rw [hactive] at hjournal
    -- the new number brings the keys of the four phases with it
    have hnodup : ({.id .trade tradeId} + phaseKeys tradeId).Nodup := by
      rw [Multiset.singleton_add, Multiset.nodup_cons, phaseKeys, Multiset.coe_nodup]
      simp
    have h₂ := hjournal.next hnext hnodup (fun key hkey => by
      rw [Multiset.mem_add, Multiset.mem_singleton, phaseKeys, Multiset.mem_coe,
        List.mem_map] at hkey
      rcases hkey with rfl | ⟨phase, -, rfl⟩ <;> rfl)
    obtain ⟨-, rfl⟩ := next_run hnext
    refine ⟨⟨?_, fun active hmem => ?_⟩, e₁.trans (.of_eq rfl rfl)⟩
    · have hkeys : activeKeys (some (startedTrade tradeId executionId fill signal candidateId
          (s.board.features input.series.specs))) + reserved =
          {.id .trade tradeId} + phaseKeys tradeId +
            (activeKeys none + (candidateKeys candidateId + reserved)) := by
        show {.id .trade tradeId} + phaseKeys tradeId + 0 + 0 + candidateKeys candidateId +
          reserved = _ + (0 + _)
        abel
      show Journal (activeKeys (some (startedTrade tradeId executionId fill signal candidateId
        (s.board.features input.series.specs))) + reserved) tasks _
      rw [hkeys]
      exact h₂.same rfl rfl
    · cases hmem
      exact ⟨hexecution.extends (.of_eq rfl rfl), fun _ hrow => absurd hrow List.not_mem_nil,
        fun _ hrow => absurd hrow List.not_mem_nil, fun _ hrow => absurd hrow List.not_mem_nil⟩

/-- **A fill** settles its decision. -/
theorem applyFill_journal {decisionId : Option ℕ} {signal : Option TradingSignal}
    {candidateId : Option ℕ} (h : InOrder (candidateKeys candidateId + reserved) tasks s)
    (hdecision : ∀ n ∈ decisionId, Known s (.id .decision n))
    (htasks : ∀ task ∈ tasks, task ∈ tasks' ∨ task ∈ decisionId.toList.map EvidenceTask.execute)
    (hrun : applyFill input fill decisionId signal candidateId s = .ok ⟨⟩ s') :
    InOrder reserved tasks' s' ∧ Extends s s' := by
  unfold applyFill at hrun
  simp only [bind_eq_ok, currentPosition_eq_ok, get_bind_apply, raiseUnless_eq_ok] at hrun
  obtain ⟨held, _, ⟨-, rfl⟩, _, _, ⟨-, rfl⟩, executionId, s₁, hnext, _, s₂, hrecord, hrun⟩ := hrun
  obtain ⟨h₁, e₁⟩ := h.next hnext
  obtain ⟨h₂, e₂, hknown⟩ := InOrder.record h₁ hrecord (fun key hkey => by
    change key ∈ decisionId.toList.map _ at hkey
    obtain ⟨n, hn, rfl⟩ := List.mem_map.1 hkey
    exact (hdecision n (Option.mem_toList.1 hn)).extends e₁) (fun task htask =>
      htasks task (htask.resolve_right List.not_mem_nil))
  have hexecution : Known s₂ (.id .execution executionId) := hknown _ (List.mem_singleton_self _)
  cases hreduce : fill.reduceOnly with
  | true =>
    rw [hreduce] at hrun
    obtain ⟨h₃, e₃⟩ := applyExit_journal h₂ hexecution hrun
    exact ⟨h₃.mono (Multiset.le_add_left _ _) (List.Subset.refl _), e₁.trans (e₂.trans e₃)⟩
  | false =>
    rw [hreduce] at hrun
    obtain ⟨h₃, e₃⟩ := applyEntry_journal h₂ hexecution hrun
    exact ⟨h₃, e₁.trans (e₂.trans e₃)⟩

end Engine
end TradingSystem
