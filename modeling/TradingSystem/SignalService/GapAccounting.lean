import Mathlib.Data.Set.Card
import TradingSystem.Logic.Watermark
import TradingSystem.SignalService.TwoRuns

/-!
# Counting missing candles

A poll that finds no candle reports the candles that are overdue, and remembers up to where it
reported. A run is a start and any polls after it, each with an outside of its own, so that
candles come in time, late or not at all.

* `Held.perform_of_foundNothing`, `Held.perform_of_found` — what one poll does to the cursor
  and to that mark.
* `accounted_of_held` — after any polls the candles between the cursor and the mark have been
  reported, and none beyond the mark.
* `missing_counted_once` — so no candle is reported twice by the polls that find none, and what
  they report are the candles that were overdue at such a poll.
* `not_countsEachOnce_of_late_candle` — a report is not withdrawn when the candle comes after
  all.
-/

namespace TradingSystem
namespace SignalService

open Numeric Logic

variable {env : Environment} {session : Session} {s s' : ServiceState}

/-! ### Polls and their reports -/

/-- A poll, with the outside it meets. -/
structure PollCall where
  env : Environment
  boundary : ℤ
  position : Option Position

namespace PollCall

variable (call : PollCall) (s : ServiceState)

def perform : ServiceProgram SignalCycleResult := poll call.env call.boundary call.position

/-- The gap reports a poll returns. -/
def returned : List DataGap :=
  match call.perform s with
  | .ok result _ => result.gaps
  | .error _ _ => []

variable {call s} in
theorem returned_eq_nil (h : ∀ result s', call.perform s = .ok result s' → result.gaps = []) :
    call.returned s = [] := by
  unfold returned
  cases hperform : call.perform s with
  | ok result s' => exact h result s' hperform
  | error fault s' => rfl

/-- The candles a poll finds past the cursor. -/
def found : List Candle :=
  match s.session, s.lastClose with
  | some session, some last =>
    match confirmedIncrement call.env session.config last call.boundary with
    | .ok fresh => fresh
    | .error _ => []
  | _, _ => []

/-- The gap reports a poll records: those it returns, and those of the candles it finds, which
it raises for. -/
def recorded : List DataGap :=
  match s.session, s.lastClose with
  | some session, some last =>
    call.returned s ++ reportFreshGaps session.config last (call.found s) call.boundary
  | _, _ => []

/-- The poll finds no candle past the cursor. -/
def FoundNothing : Prop :=
  ∃ session last, s.session = some session ∧ s.lastClose = some last ∧
    confirmedIncrement call.env session.config last call.boundary = .ok []

end PollCall

/-- The closes of the candles a report counts as missing. -/
def DataGap.closes (gap : DataGap) : List ℤ :=
  stretch gap.timeframe.duration gap.previousClose gap.missingCandles.toNat

/-- The polls of a run, each with the state it starts from. -/
def cycles : List PollCall → ServiceState → List (PollCall × ServiceState)
  | [], _ => []
  | call :: calls, s => (call, s) :: cycles calls (finalState (call.perform s))

/-- The state after some polls. -/
def afterPolls (calls : List PollCall) (s : ServiceState) : ServiceState :=
  calls.foldl (fun s call => finalState (call.perform s)) s

/-- The reports the polls of a run return. -/
def returnedGaps (calls : List PollCall) (s : ServiceState) : List DataGap :=
  (cycles calls s).flatMap fun cycle => cycle.1.returned cycle.2

/-- The closes of the candles these reports count. -/
def countedCloses (calls : List PollCall) (s : ServiceState) : List ℤ :=
  (returnedGaps calls s).flatMap DataGap.closes

/-- The number of missing candles these reports add up to. -/
def runningTotal (calls : List PollCall) (s : ServiceState) : ℤ :=
  ((returnedGaps calls s).map DataGap.missingCandles).sum

/-- **A candle is overdue** at a poll of the run that found nothing: it closes on the grid, past
the cursor, and not after the decision time. -/
def Overdue (timeframe : Timeframe) (start : ℤ) (calls : List PollCall) (s : ServiceState)
    (close : ℤ) : Prop :=
  timeframe.duration ∣ close - start ∧ ∃ cycle ∈ cycles calls s,
    cycle.1.FoundNothing cycle.2 ∧ (∃ last, cycle.2.lastClose = some last ∧ last < close) ∧
      close ≤ cycle.1.boundary

theorem cycles_concat (calls : List PollCall) (call : PollCall) (s : ServiceState) :
    cycles (calls ++ [call]) s = cycles calls s ++ [(call, afterPolls calls s)] := by
  induction calls generalizing s with
  | nil => rfl
  | cons first calls ih =>
    show (first, s) :: cycles (calls ++ [call]) _ = _
    rw [ih]
    rfl

theorem afterPolls_concat (calls : List PollCall) (call : PollCall) (s : ServiceState) :
    afterPolls (calls ++ [call]) s = finalState (call.perform (afterPolls calls s)) := by
  rw [afterPolls, List.foldl_append]
  rfl

theorem returnedGaps_concat (calls : List PollCall) (call : PollCall) (s : ServiceState) :
    returnedGaps (calls ++ [call]) s =
      returnedGaps calls s ++ call.returned (afterPolls calls s) := by
  rw [returnedGaps, cycles_concat, List.flatMap_append, List.flatMap_singleton]
  rfl

/-! ### What a poll does to the cursor and the mark -/

/-- Once the strategy has answered, the cursor is at the candle and the mark not before it,
whatever the rest of the cycle does. -/
theorem finalState_judge {answer : Option StrategyResult} {context : AnalysisContext}
    {position : Option Position} (h : env.analyze context position = .ok answer)
    (s : ServiceState) :
    finalState (judge env session context position s) =
      { s with
        lastClose := some context.candle.closeTime
        reportedMissingUntil := some (max context.candle.closeTime
          (s.reportedMissingUntil.getD context.candle.closeTime)) } := by
  unfold judge
  rw [h, bind_apply_of_ok (runPure_ok _ s), modify_bind_apply]
  cases answer with
  | none => rfl
  | some result =>
    -- what follows reads the state and leaves it
    refine (show Frames (fun s : ServiceState => s) _ from ?_) _
    refine (frames_runPure _).bind fun persisted => ?_
    cases persisted with
    | none => exact frames_pure _
    | some signal => exact (frames_runPure _).bind fun _ => frames_pure _

/-- Observing leaves the cursor and the mark alone, raising or not. -/
theorem frames_observe_mark (env : Environment) (session : Session) (candle : Candle)
    (boundary : ℤ) :
    Frames (fun s : ServiceState => (s.session, s.lastClose, s.reportedMissingUntil))
      (observe env session candle boundary) := by
  intro s
  cases hfinal : assertFinalized candle boundary with
  | ok u =>
    have hfixed := fixed_of_observe (s := s) env session hfinal
    exact congrArg (fun t => (t.1, t.2.2)) hfixed
  | error fault =>
    unfold observe
    rw [hfinal]
    rfl

/-- A start leaves both alone until the strategy has answered. -/
theorem frames_startContext_mark (env : Environment) (config : SignalGenerationConfig)
    (boundary : ℤ) :
    Frames ServiceState.reportedMissingUntil (startContext env config boundary) := by
  have hwarm : ∀ session history window,
      Frames ServiceState.reportedMissingUntil (warmUp env session history window boundary) := by
    intro session history window
    unfold warmUp
    split
    · exact frames_throw _
    · refine Frames.bind (frames_modify fun s => rfl) fun _ => ?_
      refine Frames.bind ?_ fun _ => (frames_observe_mark _ _ _ _).comp fun t => t.2.2
      exact frames_forEach fun spec => (frames_warmSeries _ _ _ spec).comp fun t => t.2.2.2
  refine frames_get.bind fun s => (frames_raiseUnless _).bind fun _ => ?_
  refine (frames_runPure _).bind fun session => (frames_runPure _).bind fun history => ?_
  refine (frames_raiseUnless _).bind fun _ => ?_
  refine Frames.bind (frames_modify fun s => rfl) fun _ => ?_
  exact (hwarm _ _ _).bind fun _ => frames_pure _

/-- A read of the decision stream that finds nothing is what leads to an empty arrival. -/
theorem arrival_eq_nothing {boundary : ℤ} {gaps : List DataGap}
    (h : arrival env session boundary s = .ok (.nothing gaps) s') :
    ∃ last, s.lastClose = some last ∧
      confirmedIncrement env session.config last boundary = .ok [] := by
  unfold arrival at h
  rw [get_bind_apply] at h
  cases hlast : s.lastClose with
  | none =>
    rw [hlast] at h
    cases h
  | some last =>
    rw [hlast] at h
    simp only [bind_eq_ok, runPure_eq_ok] at h
    obtain ⟨fresh, _, ⟨hfresh, rfl⟩, h⟩ := h
    cases fresh with
    | nil => exact ⟨last, rfl, hfresh⟩
    | cons first rest =>
      simp only [bind_eq_ok, raiseUnless_eq_ok] at h
      obtain ⟨_, _, ⟨-, rfl⟩, _, _, ⟨rfl, rfl⟩, h⟩ := h
      cases h

/-- The candle a poll takes is the one next to the cursor. -/
theorem closeTime_of_arrival {boundary cursor : ℤ} {candle : Candle}
    (h : arrival env session boundary s = .ok (.candle candle) s')
    (hcursor : s.lastClose = some cursor) :
    candle.closeTime = cursor + session.config.timeframe.duration := by
  obtain ⟨-, last, hlast, hfresh, hgaps⟩ := arrival_eq_candle h
  rw [hcursor] at hlast
  cases hlast
  have hmem : candle ∈ [candle] := List.mem_singleton_self candle
  obtain ⟨-, -, htimeframe⟩ := confirmedIncrement_mem hfresh hmem
  have hafter : cursor ≤ candle.openTime := by
    unfold confirmedIncrement at hfresh
    simp only [Except.bind_eq_ok, require_eq_ok] at hfresh
    obtain ⟨fresh, -, -, hafter, heq⟩ := hfresh
    cases heq
    exact hafter candle hmem
  -- a later open would have been a gap
  have hbefore : candle.openTime ≤ cursor := by
    by_contra hlt
    unfold reportFreshGaps at hgaps
    rw [List.head?_cons, Option.toList_some, List.filterMap_cons,
      if_pos (not_le.1 hlt)] at hgaps
    exact List.cons_ne_nil _ _ hgaps
  rw [candle.closeTime_eq, htimeframe]
  omega

/-- **A started session**: the cursor at a close, the mark not before it. -/
structure Held (session : Session) (cursor mark : ℤ) (s : ServiceState) : Prop where
  session_eq : s.session = some session
  lastClose_eq : s.lastClose = some cursor
  mark_eq : s.reportedMissingUntil = some mark
  cursor_le : cursor ≤ mark

namespace Held

variable {call : PollCall} {cursor mark : ℤ}

/-- Whether a poll finds nothing is what its read of the decision stream says. -/
theorem foundNothing_iff (h : Held session cursor mark s) :
    call.FoundNothing s ↔
      confirmedIncrement call.env session.config cursor call.boundary = .ok [] := by
  constructor
  · rintro ⟨session', last, hsession, hlast, hread⟩
    rw [h.session_eq] at hsession
    rw [h.lastClose_eq] at hlast
    cases hsession
    cases hlast
    exact hread
  · intro hread
    exact ⟨session, cursor, h.session_eq, h.lastClose_eq, hread⟩

/-- The report of what is overdue past the mark. -/
theorem reportMissing_apply (h : Held session cursor mark s) (boundary : ℤ) :
    ∃ gaps s', reportMissing session.config cursor boundary s = .ok gaps s' ∧
      gaps.flatMap DataGap.closes = stretch session.config.timeframe.duration mark
        (dueCount session.config.timeframe.duration mark boundary) ∧
      (gaps.map DataGap.missingCandles).sum =
        dueCount session.config.timeframe.duration mark boundary ∧
      Held session cursor (mark + dueCount session.config.timeframe.duration mark boundary *
        session.config.timeframe.duration) s' := by
  have hmax : max cursor (s.reportedMissingUntil.getD cursor) = mark := by
    rw [h.mark_eq]
    exact max_eq_right h.cursor_le
  have hduration := session.config.timeframe.duration_pos
  unfold reportMissing
  rw [get_bind_apply, hmax]
  -- with nothing due there is no gap and the mark stays
  by_cases hdue : 0 < (boundary - mark) / session.config.timeframe.duration
  · have hcount : (dueCount session.config.timeframe.duration mark boundary : ℤ) =
        (boundary - mark) / session.config.timeframe.duration := Int.toNat_of_nonneg hdue.le
    rw [if_pos hdue, modify_bind_apply]
    refine ⟨_, _, rfl, ?_, ?_, ⟨h.session_eq, h.lastClose_eq, ?_, ?_⟩⟩
    · rw [List.flatMap_singleton]
      rfl
    · rw [List.map_singleton, List.sum_singleton]
      exact hcount.symm
    · show some _ = some _
      rw [hcount]
    · have := h.cursor_le
      nlinarith
  · have hcount : dueCount session.config.timeframe.duration mark boundary = 0 :=
      Int.toNat_of_nonpos (not_lt.1 hdue)
    rw [if_neg hdue, hcount]
    refine ⟨_, _, rfl, rfl, rfl, ?_⟩
    rw [Nat.cast_zero, zero_mul, add_zero]
    exact h

/-- **A poll that finds nothing** reports what is overdue past the mark, and moves the mark
behind it. -/
theorem perform_of_foundNothing (h : Held session cursor mark s) (hnothing : call.FoundNothing s) :
    (call.returned s).flatMap DataGap.closes = stretch session.config.timeframe.duration mark
        (dueCount session.config.timeframe.duration mark call.boundary) ∧
      ((call.returned s).map DataGap.missingCandles).sum =
        dueCount session.config.timeframe.duration mark call.boundary ∧
      Held session cursor (mark + dueCount session.config.timeframe.duration mark call.boundary *
        session.config.timeframe.duration) (finalState (call.perform s)) := by
  have hread := h.foundNothing_iff.1 hnothing
  obtain ⟨gaps, s', hmissing, hcloses, hsum, hheld⟩ := h.reportMissing_apply call.boundary
  -- nothing arrived, so the missing candles are reported
  have harrival : arrival call.env session call.boundary s = .ok (.nothing gaps) s' := by
    unfold arrival
    rw [get_bind_apply, h.lastClose_eq]
    dsimp only
    rw [hread, bind_apply_of_ok (runPure_ok _ s)]
    dsimp only
    rw [bind_apply_of_ok hmissing]
    rfl
  have hperform : call.perform s = .ok ⟨none, gaps⟩ s' := by
    have hcontext : pollContext call.env call.boundary s = .ok (session, .inr gaps) s' := by
      unfold pollContext
      rw [bind_apply_of_ok (requireSession_eq_ok.2 ⟨h.session_eq, rfl⟩),
        bind_apply_of_ok harrival]
      rfl
    unfold PollCall.perform poll
    rw [bind_apply_of_ok hcontext]
    rfl
  unfold PollCall.returned
  rw [hperform]
  exact ⟨hcloses, hsum, hheld⟩

theorem of_view (h : Held session cursor mark s)
    (hview : (s'.session, s'.lastClose, s'.reportedMissingUntil) =
      (s.session, s.lastClose, s.reportedMissingUntil)) : Held session cursor mark s' where
  session_eq := (congrArg Prod.fst hview).trans h.session_eq
  lastClose_eq := (congrArg (fun t => t.2.1) hview).trans h.lastClose_eq
  mark_eq := (congrArg (fun t => t.2.2) hview).trans h.mark_eq
  cursor_le := h.cursor_le

/-- Judging the candle next to the cursor moves it by one candle, or not at all. -/
theorem judge (h : Held session cursor mark s) (env : Environment) (context : AnalysisContext)
    (position : Option Position)
    (hclose : context.candle.closeTime = cursor + session.config.timeframe.duration) :
    Held session cursor mark (finalState (SignalService.judge env session context position s)) ∨
      Held session (cursor + session.config.timeframe.duration)
        (max (cursor + session.config.timeframe.duration) mark)
        (finalState (SignalService.judge env session context position s)) := by
  cases hanalyze : env.analyze context position with
  | error fault =>
    left
    unfold SignalService.judge
    rw [hanalyze]
    exact h
  | ok answer =>
    right
    rw [finalState_judge hanalyze]
    refine ⟨h.session_eq, ?_, ?_, le_max_left _ _⟩
    · show some _ = some _
      rw [hclose]
    · show some _ = some _
      rw [hclose, h.mark_eq]
      rfl

/-- A poll that raises before the strategy's turn leaves the cursor and the mark alone. -/
theorem of_pollContext_error {fault : Fault} {boundary : ℤ} (h : Held session cursor mark s)
    (hcontext : pollContext env boundary s = .error fault s') : Held session cursor mark s' := by
  unfold pollContext at hcontext
  rw [bind_apply_of_ok (requireSession_eq_ok.2 ⟨h.session_eq, rfl⟩)] at hcontext
  obtain harrival | ⟨arrived, s₁, harrived, hrest⟩ := bind_eq_error.1 hcontext
  · rw [arrival_eq_error harrival]
    exact h
  · cases arrived with
    | nothing gaps => cases hrest
    | candle candle =>
      obtain ⟨rfl, -⟩ := arrival_eq_candle harrived
      obtain hobserve | ⟨context, s₂, -, hpure⟩ := bind_eq_error.1 hrest
      · exact h.of_view ((frames_observe_mark _ _ _ _).of_error hobserve)
      · cases hpure

/-- A poll that gets to the strategy without a candle found nothing. -/
theorem foundNothing_of_pollContext {started : Session} {gaps : List DataGap}
    (h : Held session cursor mark s)
    (hcontext : pollContext call.env call.boundary s = .ok (started, .inr gaps) s') :
    call.FoundNothing s := by
  unfold pollContext at hcontext
  rw [bind_apply_of_ok (requireSession_eq_ok.2 ⟨h.session_eq, rfl⟩), bind_eq_ok] at hcontext
  obtain ⟨arrived, s₁, harrived, hrest⟩ := hcontext
  cases arrived with
  | nothing gaps' =>
    obtain ⟨last, hlast, hread⟩ := arrival_eq_nothing harrived
    exact ⟨session, last, h.session_eq, hlast, hread⟩
  | candle candle =>
    rw [bind_eq_ok] at hrest
    obtain ⟨context, s₂, -, hpure⟩ := hrest
    cases hpure

/-- **A poll that does not find nothing** returns no report. It leaves the cursor and the mark
alone, or takes the candle next to the cursor. -/
theorem perform_of_found (h : Held session cursor mark s) (hfound : ¬call.FoundNothing s) :
    call.returned s = [] ∧
      (Held session cursor mark (finalState (call.perform s)) ∨
        Held session (cursor + session.config.timeframe.duration)
          (max (cursor + session.config.timeframe.duration) mark)
          (finalState (call.perform s))) := by
  cases hcontext : pollContext call.env call.boundary s with
  | error fault s₁ =>
    have hperform : call.perform s = .error fault s₁ := bind_apply_of_error hcontext
    rw [hperform]
    refine ⟨PollCall.returned_eq_nil fun result s' h => ?_,
      Or.inl (h.of_pollContext_error hcontext)⟩
    rw [hperform] at h
    cases h
  | ok found s₁ =>
    obtain ⟨started, arrived⟩ := found
    cases arrived with
    | inr gaps => exact absurd (h.foundNothing_of_pollContext hcontext) hfound
    | inl context =>
      obtain ⟨hsession, harrival, hobserve⟩ := pollContext_eq_context hcontext
      rw [h.session_eq] at hsession
      cases hsession
      have hheld : Held session cursor mark s₁ :=
        h.of_view ((frames_observe_mark _ _ _ _).of_ok hobserve)
      have hjudged := hheld.judge call.env context call.position
        (closeTime_of_arrival harrival h.lastClose_eq)
      rw [← finalState_bind_pure _ (fun signal => (⟨signal, []⟩ : SignalCycleResult))] at hjudged
      have hperform : call.perform s = (SignalService.judge call.env session context call.position
          >>= fun signal => (pure ⟨signal, []⟩ : ServiceProgram SignalCycleResult)) s₁ :=
        bind_apply_of_ok hcontext
      rw [hperform]
      refine ⟨PollCall.returned_eq_nil fun result s' h => ?_, hjudged⟩
      -- a poll that judged a candle returns no gaps
      rw [hperform, bind_eq_ok] at h
      obtain ⟨signal, s₂, -, hpure⟩ := h
      cases hpure
      rfl

end Held

/-- **A start** leaves the cursor and the mark at the close of its decision candle. -/
theorem held_of_start {config : SignalGenerationConfig} {boundary : ℤ}
    {position : Option Position} {result : SignalCycleResult}
    (h : start env config boundary position .fresh = .ok result s) :
    ∃ session close, session.config = config ∧ Held session close close s := by
  unfold start at h
  obtain ⟨⟨session, context, gaps⟩, s₁, hcontext, hrest⟩ := bind_eq_ok.1 h
  obtain ⟨signal, s₂, hjudge, hpure⟩ := bind_eq_ok.1 hrest
  cases hpure
  obtain ⟨hsession, hconfig⟩ := startContext_session hcontext
  have hmark : s₁.reportedMissingUntil = none := (frames_startContext_mark _ _ _).of_ok hcontext
  have hfinal := congrArg finalState hjudge
  have hanswer : ∃ answer, env.analyze context position = .ok answer := by
    unfold judge at hjudge
    obtain ⟨answer, _, hanalyze, -⟩ := bind_eq_ok.1 hjudge
    exact ⟨answer, (runPure_eq_ok.1 hanalyze).1⟩
  obtain ⟨answer, hanalyze⟩ := hanswer
  rw [finalState_judge hanalyze] at hfinal
  refine ⟨session, context.candle.closeTime, hconfig, ?_⟩
  rw [show s = finalState (.ok signal s : EStateM.Result Fault ServiceState _) from rfl, ← hfinal]
  refine ⟨hsession, rfl, ?_, le_refl _⟩
  show some (max _ (s₁.reportedMissingUntil.getD _)) = _
  rw [hmark, Option.getD_none, max_self]

/-! ### Runs of polls -/

/-- **What the reports of a run amount to.** -/
structure Accounted (session : Session) (start : ℤ) (calls : List PollCall) (s : ServiceState) :
    Prop where
  held : ∃ cursor mark, Held session cursor mark (afterPolls calls s) ∧
    Watermark session.config.timeframe.duration start cursor mark (countedCloses calls s)
  overdue_iff : ∀ close, close ∈ countedCloses calls s ↔
    Overdue session.config.timeframe start calls s close
  total_eq : runningTotal calls s = (countedCloses calls s).length

theorem overdue_concat {timeframe : Timeframe} {start close : ℤ} {calls : List PollCall}
    {call : PollCall} :
    Overdue timeframe start (calls ++ [call]) s close ↔
      Overdue timeframe start calls s close ∨
        (timeframe.duration ∣ close - start ∧ call.FoundNothing (afterPolls calls s) ∧
          (∃ last, (afterPolls calls s).lastClose = some last ∧ last < close) ∧
            close ≤ call.boundary) := by
  unfold Overdue
  rw [cycles_concat]
  simp only [List.mem_append, List.mem_singleton, or_and_right, exists_or, exists_eq_left,
    and_or_left]

theorem countedCloses_concat (calls : List PollCall) (call : PollCall) (s : ServiceState) :
    countedCloses (calls ++ [call]) s =
      countedCloses calls s ++ (call.returned (afterPolls calls s)).flatMap DataGap.closes := by
  rw [countedCloses, returnedGaps_concat, List.flatMap_append]
  rfl

theorem runningTotal_concat (calls : List PollCall) (call : PollCall) (s : ServiceState) :
    runningTotal (calls ++ [call]) s =
      runningTotal calls s +
        ((call.returned (afterPolls calls s)).map DataGap.missingCandles).sum := by
  rw [runningTotal, returnedGaps_concat, List.map_append, List.sum_append]
  rfl

/-- One more poll keeps the account. -/
theorem Accounted.concat {start : ℤ} {calls : List PollCall}
    (h : Accounted session start calls s) (call : PollCall) :
    Accounted session start (calls ++ [call]) s := by
  obtain ⟨cursor, mark, hheld, hwatermark⟩ := h.held
  have hduration := session.config.timeframe.duration_pos
  by_cases hnothing : call.FoundNothing (afterPolls calls s)
  · -- the report counts what is due past the mark
    obtain ⟨hcloses, hsum, hnext⟩ := hheld.perform_of_foundNothing hnothing
    have hcounted := countedCloses_concat calls call s
    rw [hcloses] at hcounted
    rw [← afterPolls_concat] at hnext
    have hmoved := hwatermark.count hduration call.boundary
    rw [← hcounted] at hmoved
    refine ⟨⟨cursor, _, hnext, hmoved⟩, ?_, ?_⟩
    · intro close
      rw [hcounted, hwatermark.mem_count hduration, h.overdue_iff, overdue_concat,
        hheld.lastClose_eq]
      simp only [hnothing, true_and, Option.some.injEq, exists_eq_left']
    · rw [runningTotal_concat, hsum, hcounted, List.length_append, h.total_eq]
      unfold stretch
      rw [List.length_map, List.length_range]
      push_cast
      rfl
  · obtain ⟨hreturned, hnext⟩ := hheld.perform_of_found hnothing
    -- a poll that found a candle reports nothing
    have hcounted : countedCloses (calls ++ [call]) s = countedCloses calls s := by
      rw [countedCloses_concat, hreturned]
      exact List.append_nil _
    refine ⟨?_, ?_, ?_⟩
    · rw [hcounted, afterPolls_concat]
      obtain hsame | hmoved := hnext
      · exact ⟨cursor, mark, hsame, hwatermark⟩
      · exact ⟨_, _, hmoved, hwatermark.advance hduration⟩
    · intro close
      rw [hcounted, h.overdue_iff, overdue_concat]
      simp only [hnothing, false_and, and_false, or_false]
    · rw [runningTotal_concat, hreturned, hcounted, h.total_eq]
      exact add_zero _

theorem accounted_of_held {start : ℤ} (h : Held session start start s) (calls : List PollCall) :
    Accounted session start calls s := by
  induction calls using List.reverseRecOn with
  | nil =>
    refine ⟨⟨start, start, h, Watermark.init _ start⟩, fun close => ?_, rfl⟩
    constructor
    · intro hclose
      exact absurd hclose List.not_mem_nil
    · rintro ⟨-, cycle, hcycle, -⟩
      exact absurd hcycle List.not_mem_nil
  | append_singleton calls call ih => exact ih.concat call

/-- **A candle behind the cursor** keeps its standing: polls after it was judged neither count
it nor withdraw a report of it. -/
theorem counted_iff_of_le_cursor {start cursor : ℤ} (h : Held session start start s)
    {earlier : List PollCall} (hcursor : (afterPolls earlier s).lastClose = some cursor)
    (later : List PollCall) :
    ∀ close ≤ cursor, close ∈ countedCloses (earlier ++ later) s ↔
      close ∈ countedCloses earlier s := by
  -- along the later polls the cursor does not move back
  suffices hrun : (∃ cursor' mark', cursor ≤ cursor' ∧
      Held session cursor' mark' (afterPolls (earlier ++ later) s)) ∧
        ∀ close ≤ cursor, close ∈ countedCloses (earlier ++ later) s ↔
          close ∈ countedCloses earlier s from hrun.2
  have hduration := session.config.timeframe.duration_pos
  induction later using List.reverseRecOn with
  | nil =>
    obtain ⟨cursor', mark, hheld, -⟩ := (accounted_of_held h earlier).held
    rw [hheld.lastClose_eq] at hcursor
    cases hcursor
    rw [List.append_nil]
    exact ⟨⟨cursor, mark, le_refl cursor, hheld⟩, fun close _ => Iff.rfl⟩
  | append_singleton later call ih =>
    obtain ⟨⟨cursor', mark, hle, hheld⟩, hcounted⟩ := ih
    rw [← List.append_assoc, afterPolls_concat, countedCloses_concat]
    by_cases hnothing : call.FoundNothing (afterPolls (earlier ++ later) s)
    · obtain ⟨hcloses, -, hnext⟩ := hheld.perform_of_foundNothing hnothing
      refine ⟨⟨cursor', _, hle, hnext⟩, fun close hclose => ?_⟩
      rw [List.mem_append, hcounted close hclose, hcloses, mem_stretch_dueCount hduration]
      have hbehind : ¬mark < close := by linarith [hheld.cursor_le]
      simp only [hbehind, false_and, and_false, or_false]
    · obtain ⟨hreturned, hnext⟩ := hheld.perform_of_found hnothing
      rw [hreturned]
      refine ⟨?_, fun close hclose => ?_⟩
      · obtain hsame | hmoved := hnext
        · exact ⟨cursor', mark, hle, hsame⟩
        · exact ⟨_, _, by linarith, hmoved⟩
      · rw [List.flatMap_nil, List.append_nil]
        exact hcounted close hclose

/-- **Missing candles are counted once.** Over any polls of a started session, in which candles
come in time, late or never, the reports of the polls count no candle twice. They count the
candles that were overdue at a poll that found nothing: a candle judged before that is never
counted, one judged afterwards stays counted. The running total is the number of these
candles. -/
theorem missing_counted_once {config : SignalGenerationConfig} {boundary : ℤ}
    {position : Option Position} {result : SignalCycleResult}
    (h : start env config boundary position .fresh = .ok result s) (calls : List PollCall) :
    ∃ start, s.lastClose = some start ∧
      (countedCloses calls s).Nodup ∧
      (∀ close, close ∈ countedCloses calls s ↔ Overdue config.timeframe start calls s close) ∧
      runningTotal calls s = {close | Overdue config.timeframe start calls s close}.ncard ∧
      ∀ earlier later cursor, calls = earlier ++ later →
        (afterPolls earlier s).lastClose = some cursor → ∀ close ≤ cursor,
          (close ∈ countedCloses calls s ↔ close ∈ countedCloses earlier s) := by
  obtain ⟨session, start, rfl, hheld⟩ := held_of_start h
  have haccounted := accounted_of_held hheld calls
  obtain ⟨cursor, mark, -, hwatermark⟩ := haccounted.held
  have hnodup : (countedCloses calls s).Nodup :=
    hwatermark.ascending.imp fun hlt => hlt.ne
  refine ⟨start, hheld.lastClose_eq, hnodup, haccounted.overdue_iff, ?_, ?_⟩
  · have hset : {close | Overdue session.config.timeframe start calls s close} =
        ((countedCloses calls s).toFinset : Set ℤ) := by
      ext close
      rw [Finset.mem_coe, List.mem_toFinset]
      exact (haccounted.overdue_iff close).symm
    rw [haccounted.total_eq, hset, Set.ncard_coe_finset, List.toFinset_card_of_nodup hnodup]
  · rintro earlier later cursor rfl hcursor
    exact counted_iff_of_le_cursor hheld hcursor later

/-- The session that started at three o'clock, whose fourth candle comes late: the first poll
after its close does not find it, the next one does. -/
def absentThenLate : List PollCall :=
  [⟨watchingHours (hourlyStore 3).feed, 4 * Instant.hour, none⟩,
    ⟨watchingHours (hourlyStore 4).feed, 4 * Instant.hour + Instant.second, none⟩]

/-- The late candle is counted once. -/
theorem missing_counted_once_of_late_candle : ∃ result s,
    start (watchingHours (hourlyStore 3).feed) hourlyConfig (3 * Instant.hour) none .fresh =
      .ok result s ∧
    countedCloses absentThenLate s = [4 * Instant.hour] ∧
    ∃ start, s.lastClose = some start ∧
      runningTotal absentThenLate s =
        {close | Overdue oneHour start absentThenLate s close}.ncard := by
  obtain ⟨result, s, hstart, htest⟩ := exists_of_endsWith
    (show endsWith (start (watchingHours (hourlyStore 3).feed) hourlyConfig
      (3 * Instant.hour) none .fresh) (fun _ s =>
        decide (countedCloses absentThenLate s = [4 * Instant.hour])) = true by decide +kernel)
  obtain ⟨start, hcursor, -, -, htotal, -⟩ := missing_counted_once hstart absentThenLate
  exact ⟨result, s, hstart, of_decide_eq_true htest, start, hcursor, htotal⟩

/-! ### Late candles -/

/-- The closes of the candles a run finds. -/
def foundCloses (calls : List PollCall) (s : ServiceState) : List ℤ :=
  (cycles calls s).flatMap fun cycle => (cycle.1.found cycle.2).map Candle.closeTime

/-- Where the cursor is after each poll: the closes of the candles that were judged. -/
def judgedCloses (calls : List PollCall) (s : ServiceState) : List ℤ :=
  (cycles calls s).filterMap fun cycle => (finalState (cycle.1.perform cycle.2)).lastClose

/-- Everything the polls of a run recorded. -/
def recordedGaps (calls : List PollCall) (s : ServiceState) : List DataGap :=
  (cycles calls s).flatMap fun cycle => cycle.1.recorded cycle.2

def latestDecision (start : ℤ) (calls : List PollCall) : ℤ :=
  (calls.map PollCall.boundary).foldl max start

/-- **Every missing candle is counted once**: none twice, none that is judged later, and as many
as never came. -/
structure CountsEachOnce (timeframe : Timeframe) (start : ℤ) (calls : List PollCall)
    (s : ServiceState) : Prop where
  once : ((recordedGaps calls s).flatMap DataGap.closes).Nodup
  withdrawn : ∀ close ∈ (recordedGaps calls s).flatMap DataGap.closes,
    close ∉ judgedCloses calls s
  total : ((recordedGaps calls s).map DataGap.missingCandles).sum =
    {close | timeframe.duration ∣ close - start ∧ start < close ∧
      close ≤ latestDecision start calls ∧ close ∉ foundCloses calls s}.ncard

/-- **A report is not withdrawn** when the candle comes after all. -/
theorem not_countsEachOnce_of_late_candle : ∃ result s start,
    SignalService.start (watchingHours (hourlyStore 3).feed) hourlyConfig (3 * Instant.hour) none
      .fresh = .ok result s ∧
    s.lastClose = some start ∧ ¬CountsEachOnce oneHour start absentThenLate s := by
  obtain ⟨result, s, hstart, htest⟩ := exists_of_endsWith
    (show endsWith (SignalService.start (watchingHours (hourlyStore 3).feed) hourlyConfig
      (3 * Instant.hour) none .fresh) (fun _ s =>
        decide (4 * Instant.hour ∈ (recordedGaps absentThenLate s).flatMap DataGap.closes ∧
          4 * Instant.hour ∈ judgedCloses absentThenLate s)) = true by decide +kernel)
  obtain ⟨hrecorded, hjudged⟩ := of_decide_eq_true htest
  obtain ⟨session, start, -, hheld⟩ := held_of_start hstart
  exact ⟨result, s, start, hstart, hheld.lastClose_eq,
    fun h => h.withdrawn _ hrecorded hjudged⟩

end SignalService
end TradingSystem
