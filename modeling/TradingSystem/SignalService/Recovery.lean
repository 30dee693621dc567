import TradingSystem.SignalService.Market
import TradingSystem.Logic.Frame

/-!
# Retrying a poll, recovering from a rewarm

A cycle that raises leaves the service in the state the raise found it in.

* A `poll` that raises before it has taken a candle leaves the service as it was. One that
  raises later has appended the candle to the confirmed history, and a second poll appends
  it again: `retrySafe_iff`.
* A `rewarm` clears the session before it warms the next one. When the warm-up raises, no
  candle was judged, and every later poll raises: `not_recoverable_of_rewarmContext`.

Both rest on what the halves of a cycle leave alone: warming and observing never move the
cursor, and only the observed candle is appended to the history.
-/

namespace TradingSystem
namespace SignalService

open Numeric Logic

variable {env : Environment} {session : Session} {s s' : ServiceState}

/-! ### What warming and observing leave alone -/

section Frame

/-- The part of the state that series updates leave alone. -/
def fixed (s : ServiceState) : Option Session × List Candle × Option ℤ × Option ℤ :=
  (s.session, s.confirmed, s.lastClose, s.reportedMissingUntil)

theorem frames_seed (spec : ResolvedSeriesSpec) (inputs : List SeriesInput) :
    Frames fixed (seed spec inputs) :=
  frames_modify fun _ => rfl

theorem frames_update (spec : ResolvedSeriesSpec) (input : SeriesInput) :
    Frames fixed (update spec input) := by
  refine Frames.bind (frames_modify fun s => ?_) fun _ => frames_get.bind fun s => frames_pure _
  rfl

theorem frames_publishValue (spec : ResolvedSeriesSpec) (value : SeriesValue) :
    Frames fixed (publishValue spec value) :=
  (frames_runPure _).bind fun _ => frames_modify fun _ => rfl

theorem frames_setPairedLastClose (spec : ResolvedSeriesSpec) (close : ℤ) :
    Frames fixed (setPairedLastClose spec close) :=
  frames_modify fun _ => rfl

theorem frames_feedSingle (timeframe : Timeframe) (source : Candle)
    (spec : ResolvedSeriesSpec) : Frames fixed (feedSingle timeframe source spec) := by
  unfold feedSingle
  split
  · exact frames_pure _
  · exact (frames_update _ _).bind fun _ => frames_publishValue _ _

theorem frames_advanceStream (specs : List ResolvedSeriesSpec) (boundary : ℤ)
    (entry : CandleStream × ℤ) : Frames fixed (advanceStream env specs boundary entry) := by
  refine (frames_runPure _).bind fun fresh => frames_forEach fun source => ?_
  refine (frames_forEach fun spec => frames_feedSingle _ _ spec).bind fun _ => ?_
  exact frames_modify fun _ => rfl

theorem frames_advancePaired (config : SignalGenerationConfig) (reference : String)
    (boundary : ℤ) (spec : ResolvedSeriesSpec) :
    Frames fixed (advancePaired env config reference boundary spec) := by
  unfold advancePaired
  split
  · exact frames_pure _
  refine (frames_runPure _).bind fun primary => (frames_runPure _).bind fun history => ?_
  refine frames_get.bind fun s => ?_
  split
  · exact frames_throw _
  · refine frames_forEach fun pair => (frames_update _ _).bind fun value => ?_
    exact (frames_publishValue _ _).bind fun _ => frames_setPairedLastClose _ _

theorem frames_advanceNonExecutionSeries (boundary : ℤ) :
    Frames fixed (advanceNonExecutionSeries env session boundary) := by
  refine frames_get.bind fun s => ?_
  refine (frames_forEach fun entry => frames_advanceStream _ _ entry).bind fun _ => ?_
  split
  · exact frames_pure _
  · exact frames_forEach fun spec => frames_advancePaired _ _ _ spec

theorem frames_observeSeries (config : SignalGenerationConfig) (candle : Candle)
    (spec : ResolvedSeriesSpec) : Frames fixed (observeSeries env config candle spec) := by
  unfold observeSeries
  split
  · exact frames_pure _
  split
  · split
    · exact frames_throw _
    refine (frames_runPure _).bind fun history => ?_
    split
    · exact frames_pure _
    refine frames_get.bind fun s => ?_
    split
    · exact frames_throw _
    split
    · exact frames_pure _
    · refine (frames_update _ _).bind fun value => ?_
      exact (frames_setPairedLastClose _ _).bind fun _ => frames_publishValue _ _
  · exact (frames_update _ _).bind fun value => frames_publishValue _ _

theorem frames_warmWithValue (spec : ResolvedSeriesSpec) (inputs : List SeriesInput)
    {finish : Candle → ServiceProgram PUnit} (hfinish : ∀ candle, Frames fixed (finish candle)) :
    Frames fixed (warmWithValue spec inputs finish) := by
  unfold warmWithValue
  split
  · exact frames_throw _
  · refine (frames_seed _ _).bind fun _ => (frames_update _ _).bind fun value => ?_
    exact (frames_publishValue _ _).bind fun _ => hfinish _

theorem frames_warmState (history : List Candle) (decisionClose boundary : ℤ)
    (spec : ResolvedSeriesSpec) :
    Frames fixed (warmState env session history decisionClose boundary spec) := by
  unfold warmState
  split
  · unfold warmPaired
    refine (frames_runPure _).bind fun primary => ?_
    split
    · exact frames_throw _
    · refine (frames_runPure _).bind fun referenceHistory => ?_
      refine (frames_raiseUnless _).bind fun _ => ?_
      exact frames_warmWithValue _ _ fun last => frames_setPairedLastClose _ _
  split
  · exact frames_get.bind fun s => frames_seed _ _
  · unfold warmSingle
    refine (frames_runPure _).bind fun history => (frames_raiseUnless _).bind fun _ => ?_
    exact frames_warmWithValue _ _ fun last => frames_modify fun _ => rfl

theorem frames_warmSeries (history : List Candle) (decisionClose boundary : ℤ)
    (spec : ResolvedSeriesSpec) :
    Frames fixed (warmSeries env session history decisionClose boundary spec) :=
  (frames_warmState _ _ _ _).bind fun _ => frames_get.bind fun _ => frames_raiseUnless _

end Frame

/-- **What observing does to the fixed part.** It appends the candle, whether it then
raises or not. -/
theorem fixed_of_observe (env : Environment) (session : Session) {candle : Candle}
    {boundary : ℤ}
    (hfinal : assertFinalized candle boundary = .ok ()) :
    fixed (finalState (observe env session candle boundary s)) =
      (s.session, s.confirmed ++ [candle], s.lastClose, s.reportedMissingUntil) := by
  have hrest : Frames fixed (do
      advanceNonExecutionSeries env session candle.closeTime
      forEach session.specs (observeSeries env session.config candle)
      let s ← get
      return {
        candles := s.confirmed
        candle := candle
        symbol := session.config.symbol
        timeframe := session.config.timeframe
        marketType := session.config.marketType
        indicators := s.seriesValues } : ServiceProgram AnalysisContext) := by
    refine (frames_advanceNonExecutionSeries _).bind fun _ => ?_
    refine (frames_forEach fun spec => frames_observeSeries _ _ spec).bind fun _ => ?_
    exact frames_get.bind fun _ => frames_pure _
  unfold observe
  rw [hfinal]
  exact hrest { s with confirmed := s.confirmed ++ [candle] }

/-- Judging leaves the history alone. -/
theorem frames_judge_confirmed (env : Environment) (session : Session)
    (context : AnalysisContext) (position : Option Position) :
    Frames ServiceState.confirmed (judge env session context position) := by
  refine (frames_runPure _).bind fun answer => ?_
  refine Frames.bind (frames_modify fun s => ?_) fun _ => ?_
  · rfl
  split
  · exact frames_pure _
  refine (frames_runPure _).bind fun persisted => ?_
  split
  · exact frames_pure _
  · exact (frames_runPure _).bind fun _ => frames_pure _

/-! ### The first half of a poll -/

theorem requireSession_eq_ok :
    requireSession s = .ok session s' ↔ s.session = some session ∧ s = s' := by
  unfold requireSession
  rw [get_bind_apply]
  cases hsession : s.session with
  | none => simp
  | some started => simp

theorem requireSession_eq_error {fault : Fault} (h : requireSession s = .error fault s') :
    s.session = none ∧ s' = s := by
  unfold requireSession at h
  rw [get_bind_apply] at h
  cases hsession : s.session with
  | none =>
    rw [hsession] at h
    cases h
    exact ⟨rfl, rfl⟩
  | some started =>
    rw [hsession] at h
    cases h

/-- A validated read holds final candles of the stream. -/
theorem validateEach_mem {stream : CandleStream} {boundary : ℤ} {outside : String}
    {candles : List Candle} {candle : Candle}
    (h : validateEach stream boundary outside candles = .ok ()) (hmem : candle ∈ candles) :
    candle.closeTime ≤ boundary ∧ candle.symbol = stream.1 ∧ candle.timeframe = stream.2 := by
  induction candles with
  | nil => cases hmem
  | cons first rest ih =>
    unfold validateEach at h
    simp only [Except.bind_eq_ok] at h
    obtain ⟨_, hfinal, _, hown, hrest⟩ := h
    rcases List.mem_cons.1 hmem with rfl | hmem
    · exact ⟨require_eq_ok.1 hfinal, require_eq_ok.1 hown⟩
    · exact ih hrest hmem

/-- What a poll finds past its cursor is final and belongs to the decision stream. -/
theorem confirmedIncrement_mem {config : SignalGenerationConfig} {after boundary : ℤ}
    {fresh : List Candle} {candle : Candle}
    (h : confirmedIncrement env config after boundary = .ok fresh) (hmem : candle ∈ fresh) :
    candle.closeTime ≤ boundary ∧ candle.symbol = config.symbol ∧
      candle.timeframe = config.timeframe := by
  unfold confirmedIncrement readStreamAfter at h
  simp only [Except.bind_eq_ok] at h
  obtain ⟨sorted, ⟨candles, -, _, hvalid, hsorted⟩, _, -, hfresh⟩ := h
  cases hsorted
  cases hfresh
  unfold validateSequence at hvalid
  simp only [Except.bind_eq_ok] at hvalid
  obtain ⟨_, -, _, -, heach⟩ := hvalid
  exact validateEach_mem heach hmem

/-- **A candle arrives**: it is the only one past the cursor, and no gap precedes it. -/
theorem arrival_eq_candle {boundary : ℤ} {candle : Candle}
    (h : arrival env session boundary s = .ok (.candle candle) s') :
    s' = s ∧ ∃ lastClose, s.lastClose = some lastClose ∧
      confirmedIncrement env session.config lastClose boundary = .ok [candle] ∧
      reportFreshGaps session.config lastClose [candle] boundary = [] := by
  unfold arrival at h
  rw [get_bind_apply] at h
  cases hlast : s.lastClose with
  | none =>
    rw [hlast] at h
    cases h
  | some lastClose =>
    rw [hlast] at h
    simp only [bind_eq_ok, runPure_eq_ok] at h
    obtain ⟨fresh, _, ⟨hfresh, rfl⟩, h⟩ := h
    -- an arrival is one candle, with no gap before it
    cases fresh with
    | nil =>
      simp only [bind_eq_ok] at h
      obtain ⟨gaps, s₁, -, h⟩ := h
      cases h
    | cons first rest =>
      simp only [bind_eq_ok, raiseUnless_eq_ok] at h
      obtain ⟨_, _, ⟨hgaps, rfl⟩, _, _, ⟨rfl, rfl⟩, h⟩ := h
      cases h
      exact ⟨rfl, lastClose, rfl, hfresh, hgaps⟩

/-- The first half of a poll raises without touching the state. -/
theorem arrival_eq_error {boundary : ℤ} {fault : Fault}
    (h : arrival env session boundary s = .error fault s') : s' = s := by
  unfold arrival at h
  rw [get_bind_apply] at h
  cases hlast : s.lastClose with
  | none =>
    rw [hlast] at h
    cases h
    rfl
  | some lastClose =>
    rw [hlast] at h
    rcases bind_eq_error.1 h with h | ⟨fresh, s₁, hfresh, h⟩
    · exact (runPure_eq_error.1 h).2.symm
    obtain ⟨-, rfl⟩ := runPure_eq_ok.1 hfresh
    cases fresh with
    | nil =>
      -- reporting missing candles never raises
      rcases bind_eq_error.1 h with h | ⟨gaps, s₁, -, h⟩
      · unfold reportMissing at h
        rw [get_bind_apply] at h
        split at h <;> cases h
      · cases h
    | cons first rest =>
      rcases bind_eq_error.1 h with h | ⟨_, s₁, hgaps, h⟩
      · exact (raiseUnless_eq_error.1 h).2.2.symm
      obtain ⟨-, rfl⟩ := raiseUnless_eq_ok.1 hgaps
      rcases bind_eq_error.1 h with h | ⟨_, s₁, hrest, h⟩
      · exact (raiseUnless_eq_error.1 h).2.2.symm
      · cases h

/-! ### Retrying a poll -/

/-- The read of the decision stream delivers a candle: the poll goes on to process it. -/
def Delivers (env : Environment) (boundary : ℤ) (s : ServiceState) : Prop :=
  ∃ session candle, s.session = some session ∧
    arrival env session boundary s = .ok (.candle candle) s

/-- **Safe to retry.** `failed` is the state a raise left, `s` the one before. Whatever a
later poll would have done from `s`, it does from `failed`: the same signal, and the same
states, history and cursors. -/
def RetrySafe (failed s : ServiceState) : Prop :=
  ∀ env boundary position result s₁, poll env boundary position s = .ok result s₁ →
    ∃ result', poll env boundary position failed = .ok result' s₁ ∧
      result'.signal = result.signal

/-- Observing a delivered candle appends it, and so does the poll that raises later. -/
theorem confirmed_of_poll_error {boundary : ℤ} {position : Option Position} {fault : Fault}
    (h : poll env boundary position s = .error fault s') :
    (¬Delivers env boundary s ∧ s' = s) ∨
      (Delivers env boundary s ∧ ∃ candle, s'.confirmed = s.confirmed ++ [candle]) := by
  unfold poll pollContext at h
  -- up to the arrival nothing is delivered; from there on the candle has been appended
  rcases bind_eq_error.1 h with hcontext | ⟨⟨started, arrived⟩, s₁, hcontext, hfinish⟩
  · rcases bind_eq_error.1 hcontext with hrequired | ⟨started, s₁, hrequired, harrive⟩
    · obtain ⟨hnone, rfl⟩ := requireSession_eq_error hrequired
      refine Or.inl ⟨?_, rfl⟩
      rintro ⟨started, candle, hsession, -⟩
      rw [hnone] at hsession
      cases hsession
    obtain ⟨hsession, rfl⟩ := requireSession_eq_ok.1 hrequired
    rcases bind_eq_error.1 harrive with harrived | ⟨arrived, s₁, harrived, hprocess⟩
    · refine Or.inl ⟨?_, arrival_eq_error harrived⟩
      rintro ⟨started', candle, hsession', hcandle⟩
      rw [hsession] at hsession'
      cases hsession'
      rw [harrived] at hcandle
      cases hcandle
    · cases arrived with
      | nothing gaps => cases hprocess
      | candle candle =>
        obtain ⟨rfl, lastClose, -, hfresh, -⟩ := arrival_eq_candle harrived
        refine Or.inr ⟨⟨started, candle, hsession, harrived⟩, candle, ?_⟩
        have hfinal := (confirmedIncrement_mem hfresh (List.mem_singleton_self _)).1
        have hfixed := fixed_of_observe (s := s₁) env started (require_eq_ok.2 hfinal)
        rcases bind_eq_error.1 hprocess with hobserve | ⟨context, s₂, -, hreturn⟩
        · rw [hobserve] at hfixed
          exact congrArg (fun t => t.2.1) hfixed
        · cases hreturn
  · simp only [bind_eq_ok] at hcontext
    obtain ⟨started', _, hrequired, arrived', s₂, harrived, hcontext⟩ := hcontext
    obtain ⟨hsession, rfl⟩ := requireSession_eq_ok.1 hrequired
    cases arrived' with
    | nothing gaps =>
      cases hcontext
      cases hfinish
    | candle candle =>
      simp only [bind_eq_ok] at hcontext
      obtain ⟨context, s₃, hobserve, hcontext⟩ := hcontext
      cases hcontext
      obtain ⟨rfl, lastClose, -, hfresh, -⟩ := arrival_eq_candle harrived
      refine Or.inr ⟨⟨started, candle, hsession, harrived⟩, candle, ?_⟩
      have hfinal := (confirmedIncrement_mem hfresh (List.mem_singleton_self _)).1
      have hfixed := fixed_of_observe (s := s₂) env started (require_eq_ok.2 hfinal)
      rw [hobserve] at hfixed
      have hconfirmed : s₁.confirmed = s₂.confirmed ++ [candle] :=
        congrArg (fun t => t.2.1) hfixed
      rcases bind_eq_error.1 hfinish with hjudge | ⟨signal, s₄, -, hreturn⟩
      · rw [← hconfirmed]
        exact (frames_judge_confirmed env started context position).of_error hjudge
      · cases hreturn

/-- What is shown to the strategy is about the observed candle. -/
theorem observe_candle {candle : Candle} {boundary : ℤ} {context : AnalysisContext}
    (h : observe env session candle boundary s = .ok context s') :
    context.candle = candle := by
  unfold observe at h
  simp only [bind_eq_ok] at h
  obtain ⟨_, s₁, -, _, s₂, -, _, s₃, -, _, s₄, -, last, s₅, -, h⟩ := h
  cases h
  rfl

/-- A poll that reaches the strategy has observed the candle that arrived. -/
theorem pollContext_eq_context {boundary : ℤ} {context : AnalysisContext}
    (h : pollContext env boundary s = .ok (session, .inl context) s') :
    s.session = some session ∧
      arrival env session boundary s = .ok (.candle context.candle) s ∧
      observe env session context.candle boundary s = .ok context s' := by
  unfold pollContext at h
  simp only [bind_eq_ok] at h
  obtain ⟨started, _, hrequired, arrived, s₁, harrived, h⟩ := h
  obtain ⟨hsession, rfl⟩ := requireSession_eq_ok.1 hrequired
  cases arrived with
  | nothing gaps => cases h
  | candle candle =>
    simp only [bind_eq_ok] at h
    obtain ⟨context', s₂, hobserve, h⟩ := h
    cases h
    obtain ⟨rfl, -⟩ := arrival_eq_candle harrived
    rw [observe_candle hobserve]
    exact ⟨hsession, harrived, hobserve⟩

/-- A poll that emits a signal has appended one candle. -/
theorem confirmed_of_poll_signal {boundary : ℤ} {position : Option Position}
    {result : SignalCycleResult} {signal : PersistedSignal}
    (h : poll env boundary position s = .ok result s') (hsignal : result.signal = some signal) :
    ∃ candle, s'.confirmed = s.confirmed ++ [candle] := by
  unfold poll at h
  simp only [bind_eq_ok] at h
  obtain ⟨⟨started, arrived⟩, s₁, hcontext, h⟩ := h
  cases arrived with
  | inr gaps =>
    cases h
    cases hsignal
  | inl context =>
    simp only [bind_eq_ok] at h
    obtain ⟨judged, s₂, hjudge, h⟩ := h
    cases h
    obtain ⟨-, harrived, hobserve⟩ := pollContext_eq_context hcontext
    obtain ⟨-, lastClose, -, hfresh, -⟩ := arrival_eq_candle harrived
    -- the candle is confirmed when it is observed, and judging confirms nothing
    have hfinal := (confirmedIncrement_mem hfresh (List.mem_singleton_self _)).1
    have hfixed := fixed_of_observe (s := s) env started (require_eq_ok.2 hfinal)
    rw [hobserve] at hfixed
    refine ⟨context.candle, ?_⟩
    rw [(frames_judge_confirmed env started context position).of_ok hjudge]
    exact congrArg (fun t => t.2.1) hfixed

/-! A strategy that always decides to exit, and a sink that accepts everything. -/

/-- The decision to exit at a candle's close. -/
def exitDecision (candle : Candle) : DecisionIntent where
  action := .exit
  symbol := candle.symbol
  timestamp := candle.closeTime
  referencePrice := candle.close
  confidence := Binary64.zero
  reason := ""
  confidence_nonneg := by decide +kernel
  confidence_le_one := by decide +kernel
  referencePrice_pos := candle.close_pos

/-- The environment with its strategy and sink replaced. -/
def Environment.exiting (env : Environment) : Environment :=
  { env with
    analyze := fun context _ => .ok (some (.decision (exitDecision context.candle)))
    store := fun _ => .ok true
    publish := none }

/-- Judging emits the signal an answer is finalized to. -/
theorem exists_judge_some (env : Environment) {context : AnalysisContext}
    {position : Option Position} {result : StrategyResult} {persisted : PersistedSignal}
    (hanswer : env.analyze context position = .ok (some result))
    (hfinalize : finalizeResult session context position result = .ok (some persisted))
    (hemit : emit env persisted = .ok ()) :
    ∃ s₁, judge env session context position s = .ok (some persisted) s₁ := by
  unfold judge
  rw [hanswer, bind_apply_of_ok (runPure_ok _ s), modify_bind_apply]
  simp only [hfinalize]
  rw [bind_apply_of_ok (runPure_ok _ _)]
  simp only [hemit]
  rw [bind_apply_of_ok (runPure_ok _ _)]
  exact ⟨_, rfl⟩

/-- A signal without protection levels is an exit, which can always be persisted. -/
theorem exists_persistedSignal {signal : TradingSignal} {candle : Candle}
    (hstop : signal.stopLoss = none) (htake : signal.takeProfit = none)
    (htime : signal.timestamp ≤ candle.closeTime)
    (htimeframe : candle.timeframe = session.config.timeframe)
    (hsymbol : signal.symbol = candle.symbol) :
    ∃ persisted, persistedSignal session signal candle none = .ok persisted := by
  have hintent : deriveIntent signal none = .ok (.exit, none) := by
    unfold deriveIntent
    rw [hstop, htake]
  unfold persistedSignal
  rw [(require_eq_ok (u := ())).2 htime, hintent, (require_eq_ok (u := ())).2 htimeframe,
    (require_eq_ok (u := ())).2 hsymbol]
  exact ⟨_, rfl⟩

/-- Where some poll reaches the strategy, some poll emits a signal. -/
theorem exists_poll_signal {boundary : ℤ} {context : AnalysisContext}
    (h : pollContext env boundary s = .ok (session, .inl context) s') :
    ∃ result s₁ signal, poll env.exiting boundary none s = .ok result s₁ ∧
      result.signal = some signal := by
  obtain ⟨-, harrived, -⟩ := pollContext_eq_context h
  obtain ⟨-, lastClose, -, hfresh, -⟩ := arrival_eq_candle harrived
  have htimeframe := (confirmedIncrement_mem hfresh (List.mem_singleton_self _)).2.2
  have hcontext : pollContext env.exiting boundary s = .ok (session, .inl context) s' := h
  -- a strategy that exits gives a signal that passes every check
  have hmaterialize : ∃ signal : TradingSignal,
      materializeDecision session (exitDecision context.candle) context.candle
        context.indicators = .ok signal ∧ signal.stopLoss = none ∧ signal.takeProfit = none ∧
        signal.timestamp = context.candle.closeTime ∧ signal.symbol = context.candle.symbol :=
    ⟨_, rfl, rfl, rfl, rfl, rfl⟩
  obtain ⟨signal, hsignal, hstop, htake, htime, hsymbol⟩ := hmaterialize
  obtain ⟨persisted, hpersisted⟩ :=
    exists_persistedSignal hstop htake htime.le htimeframe hsymbol
  have hfinalize : finalizeResult session context none
      (.decision (exitDecision context.candle)) = .ok (some persisted) := by
    change (do
      let signal ← materializeDecision session (exitDecision context.candle) context.candle
        context.indicators
      let persisted ← persistedSignal session signal context.candle none
      return some persisted : Except Fault (Option PersistedSignal)) = _
    rw [hsignal]
    change (do
      let persisted ← persistedSignal session signal context.candle none
      return some persisted : Except Fault (Option PersistedSignal)) = _
    rw [hpersisted]
    rfl
  obtain ⟨s₁, hjudge⟩ := exists_judge_some (s := s') env.exiting rfl hfinalize rfl
  refine ⟨⟨some persisted, []⟩, s₁, persisted, ?_, rfl⟩
  unfold poll
  rw [bind_apply_of_ok hcontext]
  change (judge env.exiting session context none >>= fun signal =>
    (pure ⟨signal, []⟩ : ServiceProgram SignalCycleResult)) s' = _
  rw [bind_apply_of_ok hjudge]
  rfl

/-- A poll that raises after a candle was delivered must not be retried. -/
theorem not_retrySafe_of_delivers {boundary boundary' : ℤ} {position : Option Position}
    {fault : Fault} {env' : Environment} {started : Session} {context : AnalysisContext}
    {s₁ : ServiceState} (h : poll env boundary position s = .error fault s')
    (hdelivers : Delivers env boundary s)
    (hcontext : pollContext env' boundary' s = .ok (started, .inl context) s₁) :
    ¬RetrySafe s' s := by
  intro hsafe
  rcases confirmed_of_poll_error h with ⟨hnot, -⟩ | ⟨-, candle, hconfirmed⟩
  · exact hnot hdelivers
  obtain ⟨result, s₂, signal, hpoll, hsignal⟩ := exists_poll_signal hcontext
  obtain ⟨result', hretry, hsame⟩ := hsafe _ _ _ _ _ hpoll
  obtain ⟨once, honce⟩ := confirmed_of_poll_signal hpoll hsignal
  obtain ⟨again, hagain⟩ := confirmed_of_poll_signal hretry (hsame.trans hsignal)
  -- the retry has appended two candles where the first poll would have appended one
  have hlength := congrArg List.length (honce.symm.trans hagain)
  rw [hconfirmed] at hlength
  simp at hlength

/-- **Retrying a failed poll.** Where the failure happened before the decision stream
delivered a candle, the service is as it was, and a retry does what the first poll would
have done. Where it happened later, and some poll could judge a candle, it does not. -/
theorem retrySafe_iff {boundary : ℤ} {position : Option Position} {fault : Fault}
    (h : poll env boundary position s = .error fault s')
    (hhealthy : ∃ env' boundary' started context s₁,
      pollContext env' boundary' s = .ok (started, .inl context) s₁) :
    RetrySafe s' s ↔ ¬Delivers env boundary s := by
  constructor
  · intro hsafe hdelivers
    obtain ⟨env', boundary', started, context, s₁, hcontext⟩ := hhealthy
    exact not_retrySafe_of_delivers h hdelivers hcontext hsafe
  · intro hnot
    rcases confirmed_of_poll_error h with ⟨-, rfl⟩ | ⟨hdelivers, -⟩
    · intro env' boundary' position' result s₁ hpoll
      exact ⟨result, hpoll, rfl⟩
    · exact absurd hdelivers hnot

/-- A poll fails after a candle was delivered, where a healthy one judges a candle. -/
def failsAfterDelivery (env healthy : Environment) (boundary : ℤ) (s : ServiceState) : Bool :=
  match s.session, poll env boundary none s, pollContext healthy boundary s with
  | some session, .error _ _, .ok (_, .inl _) _ =>
    match arrival env session boundary s with
    | .ok (.candle _) _ => true
    | _ => false
  | _, _, _ => false

theorem exists_of_failsAfterDelivery {healthy : Environment} {boundary : ℤ}
    (h : failsAfterDelivery env healthy boundary s = true) :
    ∃ fault s', poll env boundary none s = .error fault s' ∧ ¬RetrySafe s' s := by
  unfold failsAfterDelivery at h
  split at h
  · next session fault s' started context s₁ hsession hpoll hcontext =>
    refine ⟨fault, s', hpoll, ?_⟩
    split at h
    · next candle s₂ harrived =>
      obtain ⟨rfl, -⟩ := arrival_eq_candle harrived
      exact not_retrySafe_of_delivers hpoll ⟨session, candle, hsession, harrived⟩ hcontext
    · cases h
  · cases h

/-- Three hourly candles, then a fourth. -/
def hourlyStore (hours : ℕ) : Store :=
  regularStore fun stream => if stream = hourlyConfig.stream then hours else 0

/-- A session watching the hourly stream through a feed. -/
def watchingHours (feed : SignalDataFeed) : Environment :=
  watching feed [countingSpec oneHour]

/-- Whether the feed breaks in the poll before the candle arrives. -/
def breaksBeforeArrival (s : ServiceState) : Bool :=
  match poll (watchingHours brokenFeed) (4 * Instant.hour) none s,
    pollContext (watchingHours (hourlyStore 4).feed) (4 * Instant.hour) s, s.session with
  | .error _ _, .ok (_, .inl _) _, some session =>
    match arrival (watchingHours brokenFeed) session (4 * Instant.hour) s with
    | .ok _ _ => false
    | .error _ _ => true
  | _, _, _ => false

/-- The session after its start at three o'clock is retried safely when the feed fails. -/
theorem retrySafe_of_broken_feed : ∃ result s fault s',
    start (watchingHours (hourlyStore 3).feed) hourlyConfig (3 * Instant.hour) none .fresh =
      .ok result s ∧
    poll (watchingHours brokenFeed) (4 * Instant.hour) none s = .error fault s' ∧
    RetrySafe s' s := by
  obtain ⟨result, s, hstart, htest⟩ := exists_of_endsWith
    (show endsWith (start (watchingHours (hourlyStore 3).feed) hourlyConfig
      (3 * Instant.hour) none .fresh) (fun _ s => breaksBeforeArrival s) = true by decide +kernel)
  unfold breaksBeforeArrival at htest
  split at htest
  · next fault s' started context s₁ session hpoll hcontext hsession =>
    refine ⟨result, s, fault, s', hstart, hpoll, ?_⟩
    refine (retrySafe_iff hpoll ⟨_, _, started, context, s₁, hcontext⟩).2 ?_
    rintro ⟨session', candle, hsession', harrived⟩
    rw [hsession] at hsession'
    cases hsession'
    rw [harrived] at htest
    cases htest
  · cases htest

/-- When the strategy raises on the fourth candle, a retry would consume it twice. -/
theorem not_retrySafe_of_raising_strategy : ∃ result s fault s',
    start (watchingHours (hourlyStore 3).feed) hourlyConfig (3 * Instant.hour) none .fresh =
      .ok result s ∧
    poll { watchingHours (hourlyStore 4).feed with
      analyze := fun _ _ => .error (.valueError "strategy failed") }
      (4 * Instant.hour) none s = .error fault s' ∧
    ¬RetrySafe s' s := by
  obtain ⟨result, s, hstart, htest⟩ := exists_of_endsWith
    (show endsWith (start (watchingHours (hourlyStore 3).feed) hourlyConfig
      (3 * Instant.hour) none .fresh) (fun _ s =>
        failsAfterDelivery { watchingHours (hourlyStore 4).feed with
          analyze := fun _ _ => .error (.valueError "strategy failed") }
          (watchingHours (hourlyStore 4).feed) (4 * Instant.hour) s) = true by decide +kernel)
  obtain ⟨fault, s', hpoll, hnot⟩ := exists_of_failsAfterDelivery htest
  exact ⟨result, s, fault, s', hstart, hpoll, hnot⟩

/-! ### Recovering from a rewarm -/

/-- **What a failed rewarm must leave behind**: the configuration, a rewarm that does what
a fresh start does, and a poll that can be answered. Of the polls only those that find no new
candle are asked to succeed: whether another one does depends on what its feed returns, and on the
strategy and the store it calls. -/
structure Recoverable (config : SignalGenerationConfig) (s : ServiceState) : Prop where
  /-- The session keeps its configuration. -/
  config_kept : s.session.map (·.config) = some config
  /-- A later rewarm behaves like a fresh start. -/
  rewarm_eq : ∀ env boundary position result s₁,
    start env config boundary position .fresh = .ok result s₁ →
      rewarm env boundary position s = .ok result s₁
  /-- A later poll that finds nothing new succeeds. -/
  poll_quiet : ∀ env boundary position,
    (∀ symbol timeframe after,
      env.feed.candlesAfter symbol timeframe after boundary = .ok []) →
      ∃ result s₁, poll env boundary position s = .ok result s₁

/-- A session without a processed candle answers no poll. -/
theorem poll_ne_ok_of_lastClose_eq_none {boundary : ℤ} {position : Option Position}
    {result : SignalCycleResult} (h : s.lastClose = none) :
    poll env boundary position s ≠ .ok result s' := by
  intro hpoll
  unfold poll pollContext at hpoll
  simp only [bind_eq_ok] at hpoll
  obtain ⟨_, _, ⟨started, _, hrequired, arrived, s₁, harrived, -⟩, -⟩ := hpoll
  obtain ⟨-, rfl⟩ := requireSession_eq_ok.1 hrequired
  unfold arrival at harrived
  rw [get_bind_apply, h] at harrived
  cases harrived

theorem not_recoverable_of_lastClose_eq_none {config : SignalGenerationConfig}
    (h : s.lastClose = none) : ¬Recoverable config s := by
  intro hrecoverable
  obtain ⟨result, s₁, hpoll⟩ :=
    hrecoverable.poll_quiet (watching (hourlyStore 0).feed []) 0 none (fun _ _ after => by
      have hempty : ∀ stream, (hourlyStore 0).candles stream = [] := by
        intro stream
        simp [hourlyStore, regularStore]
      change Except.ok ((hourlyStore 0).closedAfter _ after 0) = _
      unfold Store.closedAfter
      rw [hempty]
      simp)
  exact poll_ne_ok_of_lastClose_eq_none h hpoll

/-- Observing leaves the session and its cursor alone. -/
theorem frames_observe (candle : Candle) (boundary : ℤ) :
    Frames (fun s => (s.session, s.lastClose)) (observe env session candle boundary) := by
  intro s
  by_cases hfinal : assertFinalized candle boundary = .ok ()
  · have hfixed := fixed_of_observe (s := s) env session hfinal
    exact congrArg (fun t => (t.1, t.2.2.1)) hfixed
  · unfold observe
    cases h : assertFinalized candle boundary with
    | ok u => exact absurd h hfinal
    | error fault => rfl

/-- So does warming up, raising or not. -/
theorem frames_warmUp (history window : List Candle) (boundary : ℤ) :
    Frames (fun s => (s.session, s.lastClose))
      (warmUp env session history window boundary) := by
  unfold warmUp
  split
  · exact frames_throw _
  · refine Frames.bind (frames_modify fun s => rfl) fun _ => ?_
    refine Frames.bind ?_ fun _ => frames_observe _ _
    exact frames_forEach fun spec =>
      (frames_warmSeries _ _ _ spec).comp fun t => (t.1, t.2.2.1)

/-- A start leaves the cursor alone until the strategy has answered. -/
theorem frames_startContext (config : SignalGenerationConfig) (boundary : ℤ) :
    Frames ServiceState.lastClose (startContext env config boundary) := by
  refine frames_get.bind fun s => (frames_raiseUnless _).bind fun _ => ?_
  refine (frames_runPure _).bind fun session => (frames_runPure _).bind fun history => ?_
  refine (frames_raiseUnless _).bind fun _ => ?_
  refine Frames.bind (frames_modify fun s => rfl) fun _ => ?_
  exact ((frames_warmUp _ _ _).comp Prod.snd).bind fun _ => frames_pure _

theorem createSession_eq_ok {config : SignalGenerationConfig}
    (h : createSession env config = .ok session) : session.config = config := by
  unfold createSession at h
  simp only [Except.bind_eq_ok] at h
  obtain ⟨runtime, -, _, -, specs, -, _, -, h⟩ := h
  cases h
  rfl

/-- A warmed session is installed under its configuration. -/
theorem startContext_session {config : SignalGenerationConfig} {boundary : ℤ}
    {context : AnalysisContext} {gaps : List DataGap}
    (h : startContext env config boundary s = .ok (session, context, gaps) s') :
    s'.session = some session ∧ session.config = config := by
  unfold startContext at h
  simp only [bind_eq_ok] at h
  obtain ⟨_, _, -, _, _, -, created, _, hcreated, history, _, -, _, _, -, _, s₁, hinstalled,
    context', s₂, hwarm, h⟩ := h
  cases h
  cases hinstalled
  refine ⟨?_, createSession_eq_ok (runPure_eq_ok.1 hcreated).1⟩
  exact congrArg Prod.fst ((frames_warmUp _ _ _).of_ok hwarm)

theorem discard_apply (h : s.session = some session) :
    discard s = .ok session.config .fresh := by
  unfold discard
  rw [bind_apply_of_ok (requireSession_eq_ok.2 ⟨h, rfl⟩)]
  rfl

/-- A started service rewarms the way a fresh one starts. -/
theorem rewarm_apply {boundary : ℤ} {position : Option Position}
    (h : s.session = some session) :
    rewarm env boundary position s = start env session.config boundary position .fresh := by
  unfold rewarm
  rw [bind_apply_of_ok (discard_apply h)]

theorem rewarmContext_apply {boundary : ℤ} (h : s.session = some session) :
    rewarmContext env boundary s = startContext env session.config boundary .fresh := by
  unfold rewarmContext
  rw [bind_apply_of_ok (discard_apply h)]

/-- A poll that finds nothing new succeeds once the session has processed a candle. -/
theorem exists_poll_quiet {boundary lastClose : ℤ} {position : Option Position}
    (hsession : s.session = some session) (hlast : s.lastClose = some lastClose)
    (hquiet : ∀ symbol timeframe after,
      env.feed.candlesAfter symbol timeframe after boundary = .ok []) :
    ∃ result s₁, poll env boundary position s = .ok result s₁ := by
  have hfresh : confirmedIncrement env session.config lastClose boundary = .ok [] := by
    unfold confirmedIncrement readStreamAfter
    rw [hquiet]
    rfl
  obtain ⟨gaps, s₁, hmissing⟩ : ∃ gaps s₁,
      reportMissing session.config lastClose boundary s = .ok gaps s₁ := by
    unfold reportMissing
    rw [get_bind_apply]
    split <;> exact ⟨_, _, rfl⟩
  -- with nothing fresh the poll reports what is missing and stops
  have harrival : arrival env session boundary s = .ok (.nothing gaps) s₁ := by
    unfold arrival
    rw [get_bind_apply, hlast]
    dsimp only
    rw [hfresh, bind_apply_of_ok (runPure_ok _ s)]
    dsimp only
    rw [bind_apply_of_ok hmissing]
    rfl
  have hcontext : pollContext env boundary s = .ok (session, .inr gaps) s₁ := by
    unfold pollContext
    rw [bind_apply_of_ok (requireSession_eq_ok.2 ⟨hsession, rfl⟩), bind_apply_of_ok harrival]
    rfl
  refine ⟨⟨none, gaps⟩, s₁, ?_⟩
  unfold poll
  rw [bind_apply_of_ok hcontext]
  rfl

/-- Judging keeps the session, and once the strategy has answered the cursor is set. -/
theorem judge_eq_error {context : AnalysisContext} {position : Option Position}
    {fault : Fault} (h : judge env session context position s = .error fault s') :
    ((∃ answer, env.analyze context position = .ok answer) ∧
        s'.session = s.session ∧ s'.lastClose = some context.candle.closeTime) ∨
      ((¬∃ answer, env.analyze context position = .ok answer) ∧ s' = s) := by
  unfold judge at h
  rcases bind_eq_error.1 h with hanalyze | ⟨answer, s₁, hanalyze, hrest⟩
  · obtain ⟨hfault, rfl⟩ := runPure_eq_error.1 hanalyze
    refine Or.inr ⟨?_, rfl⟩
    rintro ⟨answer, hanswer⟩
    rw [hanswer] at hfault
    cases hfault
  · obtain ⟨hanswer, rfl⟩ := runPure_eq_ok.1 hanalyze
    refine Or.inl ⟨⟨answer, hanswer⟩, ?_⟩
    -- the cursor moves before anything is persisted
    rw [modify_bind_apply] at hrest
    cases answer with
    | none => cases hrest
    | some result =>
      have hkept := Frames.of_error
        (show Frames (fun s : ServiceState => (s.session, s.lastClose)) _ from by
          refine (frames_runPure _).bind fun persisted => ?_
          split
          · exact frames_pure _
          · exact (frames_runPure _).bind fun _ => frames_pure _) hrest
      exact ⟨congrArg Prod.fst hkept, congrArg Prod.snd hkept⟩

/-- **Recovering from a failed rewarm.** The service is recoverable exactly when the rewarm
had warmed up and the strategy had answered, so that only emitting its signal failed. -/
theorem recoverable_iff {boundary : ℤ} {position : Option Position} {fault : Fault}
    (hsession : s.session = some session)
    (h : rewarm env boundary position s = .error fault s') :
    Recoverable session.config s' ↔
      ∃ started context gaps s₁ answer,
        rewarmContext env boundary s = .ok (started, context, gaps) s₁ ∧
          env.analyze context position = .ok answer := by
  rw [rewarm_apply hsession] at h
  rw [rewarmContext_apply hsession]
  unfold start at h
  rcases bind_eq_error.1 h with hwarm | ⟨⟨started, context, gaps⟩, s₁, hwarm, hfinish⟩
  · -- the warm-up raised before any candle was judged
    have hlast : s'.lastClose = none := (frames_startContext _ _).of_error hwarm
    refine ⟨fun hrecoverable => absurd hrecoverable
      (not_recoverable_of_lastClose_eq_none hlast), ?_⟩
    rintro ⟨started, context, gaps, s₁, answer, hok, -⟩
    rw [hwarm] at hok
    cases hok
  · have hlast : s₁.lastClose = none := (frames_startContext _ _).of_ok hwarm
    obtain ⟨hstarted, hconfig⟩ := startContext_session hwarm
    rcases bind_eq_error.1 hfinish with hjudge | ⟨signal, s₂, -, hreturn⟩
    swap
    · cases hreturn
    rcases judge_eq_error hjudge with ⟨⟨answer, hanswer⟩, hkept, hcursor⟩ | ⟨hnone, rfl⟩
    -- judged, and raised only afterwards: the cursor stands
    · refine ⟨fun _ => ⟨started, context, gaps, s₁, answer, hwarm, hanswer⟩, fun _ => ?_⟩
      have hsession' : s'.session = some started := hkept.trans hstarted
      constructor
      · rw [hsession', ← hconfig]
        rfl
      · intro env' boundary' position' result s₂ hstart
        rw [rewarm_apply hsession', hconfig]
        exact hstart
      · intro env' boundary' position' hquiet
        exact exists_poll_quiet hsession' hcursor hquiet
    · -- the strategy raised, and no cursor was set
      refine ⟨fun hrecoverable => absurd hrecoverable
        (not_recoverable_of_lastClose_eq_none hlast), ?_⟩
      rintro ⟨started', context', gaps', s₂, answer, hok, hanswer⟩
      rw [hwarm] at hok
      cases hok
      exact absurd ⟨answer, hanswer⟩ hnone

/-- A session watching the hourly stream, whose signals the sink refuses. -/
def refusingHours (hours : ℕ) : Environment :=
  { (watchingHours (hourlyStore hours).feed).exiting with
    store := fun _ => .error (.runtimeError "connection lost") }

/-- Whether the sink refuses in the rewarm, and what the rewarm can read warms up the same
configuration. -/
def refusesButWarms (s : ServiceState) : Bool :=
  match s.session, rewarm (refusingHours 4) (4 * Instant.hour) none s,
    rewarmContext (refusingHours 4) (4 * Instant.hour) s with
  | some session, .error _ _, .ok _ _ => decide (session.config = hourlyConfig)
  | _, _, _ => false

/-- When only the sink fails, the service recovers. -/
theorem recoverable_of_refusing_sink : ∃ result s fault s',
    start (watchingHours (hourlyStore 3).feed) hourlyConfig (3 * Instant.hour) none .fresh =
      .ok result s ∧
    rewarm (refusingHours 4) (4 * Instant.hour) none s = .error fault s' ∧
    Recoverable hourlyConfig s' := by
  obtain ⟨result, s, hstart, htest⟩ := exists_of_endsWith
    (show endsWith (start (watchingHours (hourlyStore 3).feed) hourlyConfig
      (3 * Instant.hour) none .fresh) (fun _ s => refusesButWarms s) = true by decide +kernel)
  unfold refusesButWarms at htest
  split at htest
  · next session fault s' warmed s₁ hsession hrewarm hwarm =>
    obtain ⟨started, context, gaps⟩ := warmed
    refine ⟨result, s, fault, s', hstart, hrewarm, ?_⟩
    rw [← of_decide_eq_true htest]
    exact (recoverable_iff hsession hrewarm).2 ⟨started, context, gaps, s₁, _, hwarm, rfl⟩
  · cases htest

/-- When a feed read fails during the rewarm, the configuration is lost. -/
theorem not_recoverable_of_broken_feed : ∃ result s fault s',
    start (watchingHours (hourlyStore 3).feed) hourlyConfig (3 * Instant.hour) none .fresh =
      .ok result s ∧
    rewarm (watchingHours brokenFeed) (4 * Instant.hour) none s = .error fault s' ∧
    ¬Recoverable hourlyConfig s' := by
  obtain ⟨result, s, hstart, htest⟩ := exists_of_endsWith
    (show endsWith (start (watchingHours (hourlyStore 3).feed) hourlyConfig
      (3 * Instant.hour) none .fresh) (fun _ s =>
        match rewarm (watchingHours brokenFeed) (4 * Instant.hour) none s with
        | .error _ s' => s'.session.isNone && s'.lastClose.isNone
        | .ok _ _ => false) = true by decide +kernel)
  split at htest
  · next fault s' hrewarm =>
    refine ⟨result, s, fault, s', hstart, hrewarm, ?_⟩
    rw [Bool.and_eq_true, Option.isNone_iff_eq_none, Option.isNone_iff_eq_none] at htest
    exact not_recoverable_of_lastClose_eq_none htest.2
  · cases htest

end SignalService
end TradingSystem
