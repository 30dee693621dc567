import TradingSystem.Engine.Effects

/-!
# What a strategy's answer does

Whatever a strategy answers, a bar changes nothing but the pending queue and clerical
rows: `handleAnswer_eq_ok`. What it may queue is `IsQueue`: nothing, the exit of the
open position, an entry into a flat book, or the exit of the open position followed by
an entry on the other side; each only when the next candle of the history is contiguous.
-/

namespace TradingSystem

open Numeric Logic

namespace Engine

variable {input : RunInput} {s s' : EngineState}

/-- Rows about signals and decisions, which no audit of the books reads. -/
def Clerical : EvidenceRecord → Prop
  | .signal _ | .decision _ | .candidate _ => True
  | _ => False

/-- `s'` is `s` with clerical rows recorded. -/
def Notes (s s' : EngineState) : Prop := ∃ rows, (∀ row ∈ rows, Clerical row) ∧ Logs rows s s'

theorem Notes.refl (s : EngineState) : Notes s s := ⟨[], by simp, Logs.refl s⟩

theorem Notes.trans {s₁ s₂ s₃ : EngineState} (h : Notes s₁ s₂) (h' : Notes s₂ s₃) :
    Notes s₁ s₃ := by
  obtain ⟨rows, hrows, hlogs⟩ := h
  obtain ⟨rows', hrows', hlogs'⟩ := h'
  refine ⟨rows ++ rows', ?_, hlogs.trans hlogs'⟩
  intro row hrow
  rcases List.mem_append.1 hrow with hrow | hrow
  · exact hrows row hrow
  · exact hrows' row hrow

theorem notes_next {counter : Counter} {n : ℕ} (h : next counter s = .ok n s') : Notes s s' :=
  ⟨[], by simp, next_eq_ok h⟩

theorem notes_record {row : EvidenceRecord} {u : PUnit} (hrow : Clerical row)
    (h : record input row s = .ok u s') : Notes s s' :=
  ⟨[row], by simpa using hrow, record_eq_ok h⟩

/-- The state with orders appended to the queue. -/
def queued (s : EngineState) (orders : List PendingOrder) : EngineState :=
  { s with pending := s.pending ++ orders }

@[simp] theorem queued_nil (s : EngineState) : queued s [] = s := by simp [queued]

theorem queued_queued (s : EngineState) (orders orders' : List PendingOrder) :
    queued (queued s orders) orders' = queued s (orders ++ orders') := by
  simp [queued]

/-- Recording and queueing commute. -/
theorem Notes.queued {orders : List PendingOrder} (h : Notes s s') :
    Notes (queued s orders) (Engine.queued s' orders) := by
  obtain ⟨rows, hrows, sequence, rfl⟩ := h
  exact ⟨rows, hrows, sequence, rfl⟩

/-- An order decided at the close of a candle, for the next bar. -/
structure IsQueued (input : RunInput) (candle : Candle) (pending : PendingOrder) : Prop where
  decisionCandle_eq : pending.decisionCandle = candle
  featureTs_eq : pending.featureTs = epochMilliseconds candle.closeTime
  decisionTs_eq : pending.decisionTs = epochMilliseconds candle.closeTime
  /-- The next candle of the history opens as this one closes. -/
  contiguous : ∃ next, nextBar input candle = .ok (.contiguous next)

/-- The order that closes a position. -/
structure IsExitOf (position : Position) (pending : PendingOrder) : Prop where
  request_eq : exitRequest position = .ok pending.request
  exitReason_isSome : pending.exitReason.isSome

/-- The order that opens a position. -/
structure IsEntryOf (signal : TradingSignal) (side : PositionSide) (quantity : Binary64)
    (pending : PendingOrder) : Prop where
  request_eq : entryRequest signal side quantity = .ok pending.request
  side_eq : (impliedSide signal).map Prod.snd = some side
  signal_eq : pending.signal = some signal
  exitReason_eq : pending.exitReason = none

/-- What a bar may queue, given the open position. -/
inductive IsQueue (input : RunInput) (candle : Candle) :
    Option Position → List PendingOrder → Prop
  | nothing (held : Option Position) : IsQueue input candle held []
  | exit {position : Position} {pending : PendingOrder} :
      IsQueued input candle pending → IsExitOf position pending →
      IsQueue input candle (some position) [pending]
  | entry {signal : TradingSignal} {side : PositionSide} {quantity : Binary64}
      {pending : PendingOrder} :
      IsQueued input candle pending → IsEntryOf signal side quantity pending →
      IsQueue input candle none [pending]
  | reverse {position : Position} {exit entry : PendingOrder} {signal : TradingSignal}
      {side : PositionSide} {quantity : Binary64} :
      IsQueued input candle exit → IsExitOf position exit →
      IsQueued input candle entry → IsEntryOf signal side quantity entry →
      position.side ≠ side → IsQueue input candle (some position) [exit, entry]

theorem enqueueExit_eq_ok {position : Position} {decisionId : ℕ} {candle next : Candle}
    {reason : ExitReason} {signal : TradingSignal}
    (hnext : nextBar input candle = .ok (.contiguous next))
    (h : enqueueExit position decisionId candle reason signal s = .ok ⟨⟩ s') :
    ∃ pending, IsQueued input candle pending ∧ IsExitOf position pending ∧
      s' = queued s [pending] := by
  unfold enqueueExit enqueue at h
  simp only [bind_eq_ok, runPure_eq_ok, modify_apply, EStateM.Result.ok.injEq] at h
  obtain ⟨request, _, ⟨hrequest, rfl⟩, -, rfl⟩ := h
  exact ⟨_, ⟨rfl, rfl, rfl, next, hnext⟩, ⟨hrequest, rfl⟩, rfl⟩

theorem enqueueEntry_eq_ok {side : PositionSide} {quantity : Binary64}
    {decisionId candidateId : ℕ} {candle next : Candle} {signal : TradingSignal}
    (hnext : nextBar input candle = .ok (.contiguous next))
    (hside : (impliedSide signal).map Prod.snd = some side)
    (h : enqueueEntry side quantity decisionId candidateId candle signal s = .ok ⟨⟩ s') :
    ∃ pending, IsQueued input candle pending ∧ IsEntryOf signal side quantity pending ∧
      s' = queued s [pending] := by
  unfold enqueueEntry enqueue at h
  simp only [bind_eq_ok, runPure_eq_ok, modify_apply, EStateM.Result.ok.injEq] at h
  obtain ⟨request, _, ⟨hrequest, rfl⟩, -, rfl⟩ := h
  exact ⟨_, ⟨rfl, rfl, rfl, next, hnext⟩, ⟨hrequest, hside, rfl, rfl⟩, rfl⟩

theorem recordSkipDecision_eq_ok {decisionId : ℕ} {signalId : Option ℕ} {candle : Candle}
    {reason : String}
    (h : recordSkipDecision input decisionId signalId candle reason s = .ok ⟨⟩ s') :
    Notes s s' :=
  notes_record (by simp [Clerical]) h

theorem recordActionDecision_eq_ok {decisionId signalId : ℕ} {candle : Candle}
    {action : DecisionKind} {side : PositionSide} {quantity : Binary64} {planned : Option ℤ}
    {signal : Option TradingSignal} {stopDistance : Option Binary64}
    (h : recordActionDecision input decisionId signalId candle action side quantity planned signal
      stopDistance s = .ok ⟨⟩ s') : Notes s s' :=
  notes_record (by simp [Clerical]) h

theorem recordBlockedCandidate_eq_ok {candle : Candle} {side : PositionSide} {reason : String}
    (h : recordBlockedCandidate input candle side reason s = .ok ⟨⟩ s') : Notes s s' := by
  unfold recordBlockedCandidate at h
  rw [bind_eq_ok] at h
  obtain ⟨_, s₁, h₁, h₂⟩ := h
  exact (notes_next h₁).trans (notes_record (by simp [Clerical]) h₂)

/-- Sizing reads the state only. -/
theorem size_eq_ok {signal : TradingSignal} {sized : Binary64 × Binary64}
    (h : size input signal s = .ok sized s') : s' = s := by
  unfold size at h
  cases hside : impliedSide signal with
  | none =>
    rw [hside] at h
    cases h
  | some implied =>
    rw [hside] at h
    simp only [bind_eq_ok, raiseUnless_eq_ok] at h
    obtain ⟨_, _, ⟨-, rfl⟩, h⟩ := h
    -- each way of sizing only reads the state
    cases hsizing : input.config.sizing with
    | riskBased risk =>
      cases hrequested : signal.requestedQuantity with
      | some requested =>
        rw [hsizing, hrequested] at h
        cases h
        rfl
      | none =>
        rw [hsizing, hrequested] at h
        unfold currentEquity at h
        simp only [bind_eq_ok, currentPosition_eq_ok, get_bind_apply, runPure_eq_ok, pure_apply,
          EStateM.Result.ok.injEq] at h
        obtain ⟨_, _, ⟨_, _, ⟨-, rfl⟩, -, rfl⟩, _, _, ⟨-, rfl⟩, -, rfl⟩ := h
        rfl
    | pct fraction =>
      rw [hsizing] at h
      simp only [get_bind_apply, bind_eq_ok, runPure_eq_ok, pure_apply,
        EStateM.Result.ok.injEq] at h
      obtain ⟨_, _, ⟨-, rfl⟩, -, rfl⟩ := h
      rfl

/-- The exit branch notes a decision and may queue the exit. -/
theorem handleExit_eq_ok {candle : Candle} {signal : TradingSignal} {signalId decisionId : ℕ}
    {held : Option Position} {bar : NextBar} (hbar : nextBar input candle = .ok bar)
    (h : handleExit input candle signal signalId decisionId held bar s = .ok ⟨⟩ s') :
    ∃ orders, IsQueue input candle held orders ∧ Notes (queued s orders) s' := by
  unfold handleExit at h
  split at h
  · exact ⟨[], .nothing _, by simpa using recordSkipDecision_eq_ok h⟩
  · next position next =>
    rw [bind_eq_ok] at h
    obtain ⟨_, s₁, hrecord, hqueue⟩ := h
    obtain ⟨pending, hqueued, hexit, rfl⟩ := enqueueExit_eq_ok hbar hqueue
    exact ⟨[pending], .exit hqueued hexit, (recordActionDecision_eq_ok hrecord).queued⟩
  · exact ⟨[], .nothing _, by simpa using recordSkipDecision_eq_ok h⟩

/-- Queueing an entry queues the exit of the opposite position before it. -/
theorem queueEntry_eq_ok {candle next : Candle} {signal : TradingSignal}
    {signalId decisionId candidateId : ℕ} {side : PositionSide} {sized : Binary64 × Binary64}
    {held : Option Position} (hbar : nextBar input candle = .ok (.contiguous next))
    (hside : (impliedSide signal).map Prod.snd = some side)
    (hopposite : ∀ position ∈ held, position.side ≠ side)
    (h : queueEntry input candle next signal signalId decisionId candidateId side sized held s =
      .ok ⟨⟩ s') :
    ∃ orders, IsQueue input candle held orders ∧ Notes (queued s orders) s' := by
  unfold queueEntry at h
  simp only [bind_eq_ok] at h
  obtain ⟨_, s₁, hrecord, _, s₂, hexits, hentry⟩ := h
  obtain ⟨entry, hqueued, hisEntry, rfl⟩ := enqueueEntry_eq_ok hbar hside hentry
  have hnotes := recordActionDecision_eq_ok hrecord
  cases held with
  | none =>
    cases hexits
    exact ⟨[entry], .entry hqueued hisEntry, hnotes.queued⟩
  | some position =>
    simp only [Option.toList_some, forEach_cons, bind_eq_ok, forEach_nil, pure_apply,
      EStateM.Result.ok.injEq] at hexits
    obtain ⟨_, _, hexit, -, rfl⟩ := hexits
    -- the exit of the opposite position goes first
    obtain ⟨exit, hexitQueued, hisExit, rfl⟩ := enqueueExit_eq_ok hbar hexit
    refine ⟨[exit, entry],
      .reverse hexitQueued hisExit hqueued hisEntry (hopposite position rfl), ?_⟩
    have : Notes (queued s [exit, entry]) (queued s₁ [exit, entry]) := hnotes.queued
    rwa [queued_queued]

/-- The entry branch notes its decision and may queue an entry. -/
theorem handleEntry_eq_ok {candle : Candle} {signal : TradingSignal} {signalId decisionId : ℕ}
    {side : PositionSide} {held : Option Position} {bar : NextBar}
    (hbar : nextBar input candle = .ok bar)
    (hside : (impliedSide signal).map Prod.snd = some side)
    (h : handleEntry input candle signal signalId decisionId side held bar s = .ok ⟨⟩ s') :
    ∃ orders, IsQueue input candle held orders ∧ Notes (queued s orders) s' := by
  unfold handleEntry at h
  split at h
  · rw [bind_eq_ok] at h
    obtain ⟨_, s₁, h₁, h₂⟩ := h
    refine ⟨[], .nothing _, ?_⟩
    simpa using (recordSkipDecision_eq_ok h₁).trans (recordBlockedCandidate_eq_ok h₂)
  next hsame =>
  -- past the first branch the position held is of the other side
  have hopposite : ∀ position ∈ held, position.side ≠ side := by
    intro position hposition
    cases hposition
    simpa using hsame
  -- both ways of blocking an entry only note it
  have hblock : ∀ {candidateId : ℕ} {quantity : Binary64} {reason : String} {s s' : EngineState},
      blockEntry input candle signal signalId decisionId candidateId side quantity reason s =
        .ok ⟨⟩ s' → Notes s s' := by
    intro candidateId quantity reason s s' hrun
    unfold blockEntry at hrun
    rw [bind_eq_ok] at hrun
    obtain ⟨_, s₁, h₁, h₂⟩ := hrun
    exact (recordSkipDecision_eq_ok h₁).trans (notes_record (by simp [Clerical]) h₂)
  simp only [bind_eq_ok, runPure_eq_ok] at h
  obtain ⟨sized, _, hsize, within, _, ⟨-, rfl⟩, candidateId, s₁, hcandidate, h⟩ := h
  obtain rfl := size_eq_ok hsize
  have hnotes := notes_next hcandidate
  split at h
  · next next =>
    obtain ⟨orders, hqueue, hrest⟩ := queueEntry_eq_ok hbar hside hopposite h
    exact ⟨orders, hqueue, hnotes.queued.trans hrest⟩
  · exact ⟨[], .nothing _, by simpa using hnotes.trans (hblock h)⟩
  · exact ⟨[], .nothing _, by simpa using hnotes.trans (hblock h)⟩

/-- The side of a derived intent is the implied one. -/
theorem deriveIntent_eq_ok {signal : TradingSignal} {held : Option Position}
    {derived : Intent × Option PositionSide} (h : deriveIntent signal held = .ok derived) :
    derived.2 = (impliedSide signal).map Prod.snd := by
  unfold deriveIntent at h
  cases hside : impliedSide signal with
  | none =>
    rw [hside] at h
    cases h
    rfl
  | some implied =>
    rw [hside] at h
    simp only [Except.bind_eq_ok] at h
    obtain ⟨-, -, h⟩ := h
    cases h
    rfl

/-- **Handling a signal** notes it and queues at most two orders for the open position. -/
theorem handleSignal_eq_ok {candle : Candle} {signal : TradingSignal}
    (h : handleSignal input candle signal s = .ok ⟨⟩ s') :
    ∃ held orders, positionOf input s.book = .ok held ∧ IsQueue input candle held orders ∧
      Notes (queued s orders) s' := by
  unfold handleSignal at h
  simp only [bind_eq_ok, currentPosition_eq_ok, runPure_eq_ok] at h
  obtain ⟨held, _, ⟨hheld, rfl⟩, derived, _, ⟨hderived, rfl⟩, signalId, s₁, h₁, _, s₂, h₂,
    decisionId, s₃, h₃, bar, _, ⟨hbar, rfl⟩, h⟩ := h
  have hnotes : Notes s s₃ :=
    ((notes_next h₁).trans (notes_record (by simp [Clerical]) h₂)).trans (notes_next h₃)
  have hside := deriveIntent_eq_ok hderived
  refine ⟨held, ?_⟩
  cases hderivedSide : derived.2 with
  | none =>
    rw [hderivedSide] at h
    obtain ⟨orders, hqueue, hrest⟩ := handleExit_eq_ok hbar h
    exact ⟨orders, hheld, hqueue, hnotes.queued.trans hrest⟩
  | some side =>
    rw [hderivedSide] at h hside
    obtain ⟨orders, hqueue, hrest⟩ := handleEntry_eq_ok hbar hside.symm h
    exact ⟨orders, hheld, hqueue, hnotes.queued.trans hrest⟩

/-- **The strategy's answer** changes nothing but the queue and clerical rows. -/
theorem handleAnswer_eq_ok {candle : Candle} {answer : StrategyAnswer} {held : Option Position}
    (hheld : positionOf input s.book = .ok held)
    (h : handleAnswer input candle answer s = .ok ⟨⟩ s') :
    ∃ orders, IsQueue input candle held orders ∧ Notes (queued s orders) s' := by
  -- what the branches have in common: a signal, nothing, and a plan
  have hsignal : ∀ {signal : TradingSignal},
      handleSignal input candle signal s = .ok ⟨⟩ s' →
        ∃ orders, IsQueue input candle held orders ∧ Notes (queued s orders) s' := by
    intro signal hrun
    obtain ⟨held', orders, hheld', hqueue, hnotes⟩ := handleSignal_eq_ok hrun
    rw [hheld] at hheld'
    cases hheld'
    exact ⟨orders, hqueue, hnotes⟩
  have hnothing : ∀ {s' : EngineState}, Notes s s' →
      ∃ orders, IsQueue input candle held orders ∧ Notes (queued s orders) s' :=
    fun hnotes => ⟨[], .nothing _, by simpa using hnotes⟩
  have hplan : ∀ {decision : DecisionIntent} {side : PositionSide} {plan : Option EntryPlan},
      handlePlan input candle decision side plan s = .ok ⟨⟩ s' →
        ∃ orders, IsQueue input candle held orders ∧ Notes (queued s orders) s' := by
    intro decision side plan hrun
    unfold handlePlan at hrun
    cases plan with
    | none => exact hnothing (recordBlockedCandidate_eq_ok hrun)
    | some plan =>
      unfold currentEquity at hrun
      simp only [bind_eq_ok, currentPosition_eq_ok, get_bind_apply, runPure_eq_ok, pure_apply,
        EStateM.Result.ok.injEq] at hrun
      obtain ⟨_, _, ⟨_, _, ⟨-, rfl⟩, -, rfl⟩, _, _, ⟨-, rfl⟩, hrun⟩ := hrun
      exact hsignal hrun
  unfold handleAnswer at h
  cases answer with
  | nothing =>
    cases h
    exact hnothing (Notes.refl _)
  | signal signal =>
    simp only [bind_eq_ok, raiseUnless_eq_ok] at h
    obtain ⟨_, _, ⟨-, rfl⟩, h⟩ := h
    exact hsignal h
  | decision decision plan =>
    simp only at h
    unfold handleDecision at h
    simp only [bind_eq_ok, raiseUnless_eq_ok] at h
    obtain ⟨_, _, ⟨-, rfl⟩, h⟩ := h
    -- a decision holds, exits, or plans an entry to one side
    cases haction : decision.action with
    | hold =>
      rw [haction] at h
      unfold recordHoldDecision at h
      rw [bind_eq_ok] at h
      obtain ⟨_, s₁, h₁, h₂⟩ := h
      exact hnothing ((notes_next h₁).trans (recordSkipDecision_eq_ok h₂))
    | exit =>
      rw [haction] at h
      exact hsignal h
    | enterLong =>
      rw [haction] at h
      simp only [bind_eq_ok, raiseUnless_eq_ok] at h
      obtain ⟨_, _, ⟨-, rfl⟩, h⟩ := h
      exact hplan h
    | enterShort =>
      rw [haction] at h
      simp only [bind_eq_ok, raiseUnless_eq_ok] at h
      obtain ⟨_, _, ⟨-, rfl⟩, h⟩ := h
      exact hplan h

end Engine
end TradingSystem
