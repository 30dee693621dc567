import TradingSystem.Engine.JournalClose
import TradingSystem.Engine.Timeline

/-!
# The journal along a strategy's answer

A signal is recorded, numbered and answered by one decision. A decision that acts leaves orders
in the queue that carry its number, so its execution is a task in hand: `Asked`.
-/

namespace TradingSystem

open Numeric Logic

namespace Engine

open JournalSpec

variable {input : RunInput} {s s' : EngineState} {reserved : Multiset EvidenceKey}
  {tasks : List EvidenceTask} {candle : Candle} {orders : List PendingOrder}

/-- What a strategy has asked for: orders behind the queue, whose candidates are reserved and
whose decisions were made at their candles and are still to be executed. -/
structure Asked (input : RunInput) (reserved : Multiset EvidenceKey) (tasks : List EvidenceTask)
    (orders : List PendingOrder) (s s' : EngineState) : Prop where
  inOrder : InOrder (orderKeys orders + reserved) (orders.map PendingOrder.task ++ tasks) s'
  records : s.records <+: s'.records
  pending_eq : s'.pending = s.pending ++ orders
  decided : ∀ pending ∈ orders, Decided input s' pending.decisionId pending.decisionCandle.closeTime
    (pending.decisionCandle.closeTime + Instant.millisecond)

/-- Nothing is asked for. -/
theorem asked_nil (h : InOrder reserved tasks s') (hextends : Extends s s') :
    Asked input reserved tasks [] s s' := by
  refine ⟨?_, hextends.records, ?_, by simp⟩
  · show InOrder (0 + reserved) tasks s'
    rwa [Multiset.zero_add]
  · rw [hextends.pending_eq, List.append_nil]

theorem Asked.after {s₀ : EngineState} (h : Asked input reserved tasks orders s s')
    (hextends : Extends s₀ s) : Asked input reserved tasks orders s₀ s' :=
  ⟨h.inOrder, hextends.records.trans h.records, by rw [h.pending_eq, hextends.pending_eq],
    h.decided⟩

/-! ### Decisions -/

/-- A skipped signal is answered. -/
theorem recordSkipDecision_journal {decisionId signalId : ℕ} {reason : String}
    (h : InOrder ({.id .decision decisionId} + reserved) (.answer signalId :: tasks) s)
    (hsignal : Known s (.id .signal signalId))
    (hrun : recordSkipDecision input decisionId (some signalId) candle reason s = .ok ⟨⟩ s') :
    InOrder reserved tasks s' ∧ Extends s s' := by
  unfold recordSkipDecision at hrun
  obtain ⟨h₁, e₁, -⟩ := InOrder.record h hrun (fun key hkey => by
    rw [List.mem_singleton.1 hkey]
    exact hsignal) (fun task htask => by
    rcases htask with htask | htask
    · rcases List.mem_cons.1 htask with rfl | htask
      · exact Or.inr (List.mem_singleton_self _)
      · exact Or.inl htask
    · cases htask)
  exact ⟨h₁, e₁⟩

/-- A decision to wait answers no signal. -/
theorem recordHoldDecision_journal {decision : DecisionIntent} (h : InOrder reserved tasks s)
    (hrun : recordHoldDecision input candle decision s = .ok ⟨⟩ s') :
    InOrder reserved tasks s' ∧ Extends s s' := by
  unfold recordHoldDecision recordSkipDecision at hrun
  rw [bind_eq_ok] at hrun
  obtain ⟨decisionId, s₁, hnext, hrecord⟩ := hrun
  obtain ⟨h₁, e₁⟩ := h.next hnext
  obtain ⟨h₂, e₂, -⟩ := InOrder.record_plain h₁ hrecord (fun key hkey => nomatch hkey) rfl
  exact ⟨h₂, e₁.trans e₂⟩

/-- A decision that acts answers its signal and is to be executed. -/
theorem recordActionDecision_journal {decisionId signalId : ℕ} {action : DecisionKind}
    {side : PositionSide} {quantity : Binary64} {planned : ℤ}
    {signal : Option TradingSignal} {stopDistance : Option Binary64}
    (h : InOrder ({.id .decision decisionId} + reserved) (.answer signalId :: tasks) s)
    (hsignal : Known s (.id .signal signalId))
    (hrun : recordActionDecision input decisionId signalId candle action side quantity
      (some planned) signal stopDistance s = .ok ⟨⟩ s') :
    InOrder reserved (.execute decisionId :: tasks) s' ∧ Extends s s' ∧
      Decided input s' decisionId candle.closeTime planned := by
  unfold recordActionDecision at hrun
  -- the decision answers its signal, and owes an execution
  have htasks : ∀ task, task ∈ EvidenceTask.answer signalId :: tasks ∨
      task ∈ (if action = .skip then [] else [EvidenceTask.execute decisionId]) →
        task ∈ EvidenceTask.execute decisionId :: tasks ∨
          task ∈ [EvidenceTask.answer signalId] := by
    intro task htask
    rcases htask with htask | hraised
    · rcases List.mem_cons.1 htask with rfl | htask
      · exact Or.inr (List.mem_singleton_self _)
      · exact Or.inl (List.mem_cons_of_mem _ htask)
    · split at hraised
      · cases hraised
      · rw [List.mem_singleton.1 hraised]
        exact Or.inl (List.mem_cons_self ..)
  obtain ⟨h₁, e₁, -⟩ := InOrder.record h hrun (fun key hkey => by
    rw [List.mem_singleton.1 hkey]
    exact hsignal) htasks
  exact ⟨h₁, e₁, decided_record hrun rfl⟩

theorem recordBlockedCandidate_journal {side : PositionSide} {reason : String}
    (h : InOrder reserved tasks s)
    (hrun : recordBlockedCandidate input candle side reason s = .ok ⟨⟩ s') :
    InOrder reserved tasks s' ∧ Extends s s' := by
  unfold recordBlockedCandidate at hrun
  rw [bind_eq_ok] at hrun
  obtain ⟨candidateId, s₁, hnext, hrecord⟩ := hrun
  obtain ⟨h₁, e₁⟩ := h.next hnext
  obtain ⟨h₂, e₂, -⟩ := InOrder.record_plain h₁ hrecord (fun key hkey => nomatch hkey) rfl
  exact ⟨h₂, e₁.trans e₂⟩

/-! ### Orders -/

/-- An order joins the queue of a decision that is to be executed. -/
theorem enqueue_journal {pending : PendingOrder}
    (h : Asked input (candidateKeys pending.candidateId + reserved) (pending.task :: tasks) orders
      s s')
    {s'' : EngineState} {u : PUnit}
    (hdecided : Decided input s' pending.decisionId pending.decisionCandle.closeTime
      (pending.decisionCandle.closeTime + Instant.millisecond))
    (hrun : enqueue pending s' = .ok u s'') :
    Asked input reserved tasks (orders ++ [pending]) s s'' := by
  unfold enqueue at hrun
  simp only [modify_apply, EStateM.Result.ok.injEq] at hrun
  obtain ⟨-, rfl⟩ := hrun
  refine ⟨?_, h.records, ?_, fun other hother => ?_⟩
  · -- the order takes its keys and its task with it
    have hkeys : orderKeys orders + (candidateKeys pending.candidateId + reserved) =
        orderKeys (orders ++ [pending]) + reserved := by
      unfold orderKeys
      rw [List.map_append, List.sum_append, List.map_singleton, List.sum_singleton,
        Multiset.add_assoc]
    have htasks : orders.map PendingOrder.task ++ pending.task :: tasks =
        (orders ++ [pending]).map PendingOrder.task ++ tasks := by
      rw [List.map_append, List.append_assoc]
      rfl
    rw [← hkeys, ← htasks]
    exact h.inOrder.requeue _
  · show s'.pending ++ [pending] = _
    rw [h.pending_eq, List.append_assoc]
  · rcases List.mem_append.1 hother with hother | hother
    · exact h.decided other hother
    · rw [List.mem_singleton.1 hother]
      exact hdecided

/-- The order that closes a position has no candidate. -/
theorem enqueueExit_journal {position : Position} {decisionId : ℕ} {reason : ExitReason}
    {signal : TradingSignal} (h : InOrder reserved (.execute decisionId :: tasks) s)
    (hdecided : Decided input s decisionId candle.closeTime
      (candle.closeTime + Instant.millisecond))
    (hrun : enqueueExit position decisionId candle reason signal s = .ok ⟨⟩ s') :
    ∃ pending, Asked input reserved tasks [pending] s s' ∧ pending.decisionId = decisionId := by
  unfold enqueueExit at hrun
  simp only [bind_eq_ok, runPure_eq_ok] at hrun
  obtain ⟨request, _, ⟨-, rfl⟩, hrun⟩ := hrun
  have hstart : Asked input (candidateKeys none + reserved) (.execute decisionId :: tasks) [] s s :=
    asked_nil (by
      show InOrder (0 + reserved) _ s
      rwa [Multiset.zero_add]) (.refl s)
  exact ⟨_, enqueue_journal hstart hdecided hrun, rfl⟩

/-- The order that opens a position carries its candidate. -/
theorem enqueueEntry_journal {side : PositionSide} {quantity : Binary64}
    {decisionId candidateId : ℕ} {signal : TradingSignal}
    (h : Asked input ({.id .candidate candidateId} + reserved) (.execute decisionId :: tasks) orders
      s s')
    {s'' : EngineState}
    (hdecided : Decided input s' decisionId candle.closeTime
      (candle.closeTime + Instant.millisecond))
    (hrun : enqueueEntry side quantity decisionId candidateId candle signal s' = .ok ⟨⟩ s'') :
    ∃ orders, Asked input reserved tasks orders s s'' := by
  unfold enqueueEntry at hrun
  simp only [bind_eq_ok, runPure_eq_ok] at hrun
  obtain ⟨request, _, ⟨-, rfl⟩, hrun⟩ := hrun
  exact ⟨_, enqueue_journal h hdecided hrun⟩

/-! ### Signals -/

/-- An order for the next bar is planned a millisecond after the close it is decided at. -/
theorem plannedExecution_eq {next : Candle} (h : next.openTime = candle.closeTime) :
    plannedExecution candle next = candle.closeTime + Instant.millisecond := by
  unfold plannedExecution
  rw [h]
  exact max_eq_right (by simp [Instant.millisecond])

/-- The exit branch answers its signal and may queue the exit. -/
theorem handleExit_journal {signal : TradingSignal} {signalId decisionId : ℕ}
    {held : Option Position} {bar : NextBar}
    (h : InOrder ({.id .decision decisionId} + reserved) (.answer signalId :: tasks) s)
    (hsignal : Known s (.id .signal signalId)) (hbar : nextBar input candle = .ok bar)
    (hrun : handleExit input candle signal signalId decisionId held bar s = .ok ⟨⟩ s') :
    ∃ orders, Asked input reserved tasks orders s s' := by
  have hskip : ∀ {reason : String},
      recordSkipDecision input decisionId (some signalId) candle reason s = .ok ⟨⟩ s' →
        ∃ orders, Asked input reserved tasks orders s s' := by
    intro reason hrecord
    obtain ⟨h₁, e₁⟩ := recordSkipDecision_journal h hsignal hrecord
    exact ⟨[], asked_nil h₁ e₁⟩
  unfold handleExit at hrun
  split at hrun
  · exact hskip hrun
  · rw [bind_eq_ok] at hrun
    obtain ⟨_, s₁, hrecord, hqueue⟩ := hrun
    obtain ⟨h₁, e₁, hdecided⟩ := recordActionDecision_journal h hsignal hrecord
    obtain ⟨-, -, hopen, -⟩ := nextBar_contiguous hbar
    rw [plannedExecution_eq hopen] at hdecided
    obtain ⟨pending, hasked, -⟩ := enqueueExit_journal h₁ hdecided hqueue
    exact ⟨[pending], hasked.after e₁⟩
  · exact hskip hrun

/-- A queued entry follows the exit of the opposite position; both execute one decision. -/
theorem queueEntry_journal {next : Candle} {signal : TradingSignal}
    {signalId decisionId candidateId : ℕ} {side : PositionSide} {sized : Binary64 × Binary64}
    {held : Option Position}
    (h : InOrder ({.id .decision decisionId} + ({.id .candidate candidateId} + reserved))
      (.answer signalId :: tasks) s)
    (hsignal : Known s (.id .signal signalId)) (hopen : next.openTime = candle.closeTime)
    (hrun : queueEntry input candle next signal signalId decisionId candidateId side sized held s =
      .ok ⟨⟩ s') : ∃ orders, Asked input reserved tasks orders s s' := by
  unfold queueEntry at hrun
  simp only [bind_eq_ok] at hrun
  obtain ⟨_, s₁, hrecord, _, s₂, hexits, hentry⟩ := hrun
  obtain ⟨h₁, e₁, hdecided⟩ := recordActionDecision_journal h hsignal hrecord
  rw [plannedExecution_eq hopen] at hdecided
  cases held with
  | none =>
    cases hexits
    obtain ⟨orders, hasked⟩ := enqueueEntry_journal (asked_nil h₁ (.refl _)) hdecided hentry
    exact ⟨orders, hasked.after e₁⟩
  | some position =>
    simp only [Option.toList_some, forEach_cons, bind_eq_ok, forEach_nil, pure_apply,
      EStateM.Result.ok.injEq] at hexits
    obtain ⟨_, _, hexit, -, rfl⟩ := hexits
    -- the execution stays a task for the entry
    have hboth : InOrder ({.id .candidate candidateId} + reserved)
        (.execute decisionId :: .execute decisionId :: tasks) s₁ :=
      h₁.mono (le_refl _) (List.subset_cons_self _ _)
    obtain ⟨exit, hasked, -⟩ := enqueueExit_journal hboth hdecided hexit
    obtain ⟨orders, hasked'⟩ :=
      enqueueEntry_journal hasked (hdecided.mono hasked.records) hentry
    exact ⟨orders, hasked'.after e₁⟩

/-- A blocked entry answers its signal and records its candidate. -/
theorem blockEntry_journal {signal : TradingSignal} {signalId decisionId candidateId : ℕ}
    {side : PositionSide} {quantity : Binary64} {reason : String}
    (h : InOrder ({.id .decision decisionId} + ({.id .candidate candidateId} + reserved))
      (.answer signalId :: tasks) s)
    (hsignal : Known s (.id .signal signalId))
    (hrun : blockEntry input candle signal signalId decisionId candidateId side quantity reason s =
      .ok ⟨⟩ s') : InOrder reserved tasks s' ∧ Extends s s' := by
  unfold blockEntry at hrun
  rw [bind_eq_ok] at hrun
  obtain ⟨_, s₁, hskip, hrecord⟩ := hrun
  obtain ⟨h₁, e₁⟩ := recordSkipDecision_journal h hsignal hskip
  obtain ⟨h₂, e₂, -⟩ := InOrder.record_plain h₁ hrecord (fun key hkey => nomatch hkey) rfl
  exact ⟨h₂, e₁.trans e₂⟩

theorem handleEntry_journal {signal : TradingSignal} {signalId decisionId : ℕ}
    {side : PositionSide} {held : Option Position} {bar : NextBar}
    (h : InOrder ({.id .decision decisionId} + reserved) (.answer signalId :: tasks) s)
    (hsignal : Known s (.id .signal signalId)) (hbar : nextBar input candle = .ok bar)
    (hrun : handleEntry input candle signal signalId decisionId side held bar s = .ok ⟨⟩ s') :
    ∃ orders, Asked input reserved tasks orders s s' := by
  unfold handleEntry at hrun
  split at hrun
  · -- an entry against a held position is skipped, and its candidate recorded
    rw [bind_eq_ok] at hrun
    obtain ⟨_, s₁, hskip, hblocked⟩ := hrun
    obtain ⟨h₁, e₁⟩ := recordSkipDecision_journal h hsignal hskip
    obtain ⟨h₂, e₂⟩ := recordBlockedCandidate_journal h₁ hblocked
    exact ⟨[], asked_nil h₂ (e₁.trans e₂)⟩
  simp only [bind_eq_ok, runPure_eq_ok] at hrun
  obtain ⟨sized, _, hsize, within, _, ⟨-, rfl⟩, candidateId, s₁, hcandidate, hrun⟩ := hrun
  rw [size_eq_ok hsize] at hcandidate
  obtain ⟨h₁, e₁⟩ := h.next hcandidate
  rw [add_left_comm] at h₁
  have hsignal₁ := hsignal.extends e₁
  -- a blocked entry asks for no order
  have hblock : ∀ {reason : String}, blockEntry input candle signal signalId decisionId candidateId
      side sized.1 reason s₁ = .ok ⟨⟩ s' → ∃ orders, Asked input reserved tasks orders s s' := by
    intro reason hblocked
    obtain ⟨h₂, e₂⟩ := blockEntry_journal h₁ hsignal₁ hblocked
    exact ⟨[], asked_nil h₂ (e₁.trans e₂)⟩
  split at hrun
  · -- the next bar follows, so an order is queued for its open
    obtain ⟨-, -, hopen, -⟩ := nextBar_contiguous hbar
    obtain ⟨orders, hasked⟩ := queueEntry_journal h₁ hsignal₁ hopen hrun
    exact ⟨orders, hasked.after e₁⟩
  · exact hblock hrun
  · exact hblock hrun

/-- **A signal** is recorded and answered. -/
theorem handleSignal_journal {signal : TradingSignal} (h : InOrder reserved tasks s)
    (hrun : handleSignal input candle signal s = .ok ⟨⟩ s') :
    ∃ orders, Asked input reserved tasks orders s s' := by
  unfold handleSignal at hrun
  simp only [bind_eq_ok, currentPosition_eq_ok, runPure_eq_ok] at hrun
  obtain ⟨held, _, ⟨-, rfl⟩, derived, _, ⟨-, rfl⟩, signalId, s₁, hnext, _, s₂, hrecord,
    decisionId, s₃, hdecision, bar, _, ⟨hbar, rfl⟩, hrun⟩ := hrun
  obtain ⟨h₁, e₁⟩ := h.next hnext
  have htasks : ∀ task, task ∈ tasks ∨ task ∈ [EvidenceTask.answer signalId] →
      task ∈ EvidenceTask.answer signalId :: tasks ∨ task ∈ [] := by
    intro task htask
    rcases htask with htask | htask
    · exact Or.inl (List.mem_cons_of_mem _ htask)
    · rw [List.mem_singleton.1 htask]
      exact Or.inl (List.mem_cons_self ..)
  obtain ⟨h₂, e₂, hknown⟩ := InOrder.record h₁ hrecord (fun key hkey => nomatch hkey) htasks
  obtain ⟨h₃, e₃⟩ := h₂.next hdecision
  have hsignal : Known s₃ (.id .signal signalId) :=
    (hknown _ (List.mem_singleton_self _)).extends e₃
  have e := e₁.trans (e₂.trans e₃)
  cases hside : derived.2 with
  | none =>
    rw [hside] at hrun
    obtain ⟨orders, hasked⟩ := handleExit_journal h₃ hsignal hbar hrun
    exact ⟨orders, hasked.after e⟩
  | some side =>
    rw [hside] at hrun
    obtain ⟨orders, hasked⟩ := handleEntry_journal h₃ hsignal hbar hrun
    exact ⟨orders, hasked.after e⟩

/-- **The strategy's answer** is answered for. -/
theorem handleAnswer_journal {answer : StrategyAnswer} (h : InOrder reserved tasks s)
    (hrun : handleAnswer input candle answer s = .ok ⟨⟩ s') :
    ∃ orders, Asked input reserved tasks orders s s' := by
  -- both entering actions go through the plan of the policy
  have hplan : ∀ {decision : DecisionIntent} {side : PositionSide} {plan : Option EntryPlan},
      handlePlan input candle decision side plan s = .ok ⟨⟩ s' →
        ∃ orders, Asked input reserved tasks orders s s' := by
    intro decision side plan hplan
    unfold handlePlan at hplan
    cases plan with
    | none =>
      obtain ⟨h₁, e₁⟩ := recordBlockedCandidate_journal h hplan
      exact ⟨[], asked_nil h₁ e₁⟩
    | some plan =>
      unfold currentEquity at hplan
      simp only [bind_eq_ok, currentPosition_eq_ok, get_bind_apply, runPure_eq_ok, pure_apply,
        EStateM.Result.ok.injEq] at hplan
      obtain ⟨_, _, ⟨_, _, ⟨-, rfl⟩, -, rfl⟩, _, _, ⟨-, rfl⟩, hplan⟩ := hplan
      exact handleSignal_journal h hplan
  unfold handleAnswer at hrun
  cases answer with
  | nothing =>
    cases hrun
    exact ⟨[], asked_nil h (.refl _)⟩
  | signal signal =>
    simp only [bind_eq_ok, raiseUnless_eq_ok] at hrun
    obtain ⟨_, _, ⟨-, rfl⟩, hrun⟩ := hrun
    exact handleSignal_journal h hrun
  | decision decision plan =>
    simp only at hrun
    unfold handleDecision at hrun
    simp only [bind_eq_ok, raiseUnless_eq_ok] at hrun
    obtain ⟨_, _, ⟨-, rfl⟩, hrun⟩ := hrun
    -- one case for each action of a decision
    cases haction : decision.action with
    | hold =>
      rw [haction] at hrun
      obtain ⟨h₁, e₁⟩ := recordHoldDecision_journal h hrun
      exact ⟨[], asked_nil h₁ e₁⟩
    | exit =>
      rw [haction] at hrun
      exact handleSignal_journal h hrun
    | enterLong =>
      rw [haction] at hrun
      simp only [bind_eq_ok, raiseUnless_eq_ok] at hrun
      obtain ⟨_, _, ⟨-, rfl⟩, hrun⟩ := hrun
      exact hplan hrun
    | enterShort =>
      rw [haction] at hrun
      simp only [bind_eq_ok, raiseUnless_eq_ok] at hrun
      obtain ⟨_, _, ⟨-, rfl⟩, hrun⟩ := hrun
      exact hplan hrun

end Engine
end TradingSystem
