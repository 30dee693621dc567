import TradingSystem.SignalService.Lookahead

/-!
# Two runs of the service

Two runs make the same calls over stores that agree up to an instant. While the decision
times are within the instant the runs are in one state. Once they have passed it, either
the states are still equal or one of them is `Beyond`: no poll from there on can judge a
candle that closes by the instant.

* `after_related` — the relation of the two runs.
* `analysis_eq` — where both judge a candle that closes by the instant, they show the
  strategy the same context and end the same way.
-/

namespace TradingSystem
namespace SignalService

open Numeric Logic

variable {env : Environment} {store store' : Store} {session : Session}
  {config : SignalGenerationConfig} {s s' : ServiceState} {instant boundary : ℤ}

/-! ### Runs -/

inductive CallKind
  | start | rewarm | poll
deriving DecidableEq

/-- One call of the service, with its decision time and the position it is given. -/
structure Call where
  kind : CallKind
  boundary : ℤ
  position : Option Position

/-- Perform a call. A start uses the run's configuration. -/
def Call.perform (env : Environment) (config : SignalGenerationConfig) (call : Call) :
    ServiceProgram SignalCycleResult :=
  match call.kind with
  | .start => start env config call.boundary call.position
  | .rewarm => rewarm env call.boundary call.position
  | .poll => poll env call.boundary call.position

/-- What a call shows the strategy. -/
def Call.analyzed (env : Environment) (config : SignalGenerationConfig) (call : Call)
    (s : ServiceState) : Option AnalysisContext :=
  match call.kind with
  | .start =>
    match startContext env config call.boundary s with
    | .ok (_, context, _) _ => some context
    | .error _ _ => none
  | .rewarm =>
    match rewarmContext env call.boundary s with
    | .ok (_, context, _) _ => some context
    | .error _ _ => none
  | .poll =>
    match pollContext env call.boundary s with
    | .ok (_, .inl context) _ => some context
    | _ => none

/-- The state after a sequence of calls on a fresh service, whether they raise or not. -/
def after (env : Environment) (config : SignalGenerationConfig) (calls : List Call) :
    ServiceState :=
  calls.foldl (fun s call => finalState (call.perform env config s)) .fresh

/-- Sessions are those the configuration creates, and a service without one is fresh. -/
structure Installed (env : Environment) (config : SignalGenerationConfig)
    (s : ServiceState) : Prop where
  created : ∀ session, s.session = some session → createSession env config = .ok session
  idle : s.session = none → s = .fresh

/-- Judging keeps the session and may move the cursor to the candle judged. -/
theorem judge_final (env : Environment) (session : Session) (context : AnalysisContext)
    (position : Option Position) :
    (finalState (judge env session context position s)).session = s.session ∧
      ((finalState (judge env session context position s)).lastClose = s.lastClose ∨
        (finalState (judge env session context position s)).lastClose =
          some context.candle.closeTime) := by
  cases hjudge : judge env session context position s with
  | error fault s₁ =>
    rcases judge_eq_error hjudge with ⟨-, hsession, hlast⟩ | ⟨-, rfl⟩
    · exact ⟨hsession, Or.inr hlast⟩
    · exact ⟨rfl, Or.inl rfl⟩
  | ok signal s₁ =>
    -- the cursor moves once the strategy has answered; what follows keeps it
    unfold judge at hjudge
    rw [bind_eq_ok] at hjudge
    obtain ⟨answer, s₂, hanalyze, hrest⟩ := hjudge
    obtain ⟨-, rfl⟩ := runPure_eq_ok.1 hanalyze
    rw [modify_bind_apply] at hrest
    cases answer with
    | none =>
      cases hrest
      exact ⟨rfl, Or.inr rfl⟩
    | some result =>
      rw [bind_eq_ok] at hrest
      obtain ⟨persisted, s₃, hpersisted, hrest⟩ := hrest
      obtain ⟨-, rfl⟩ := runPure_eq_ok.1 hpersisted
      cases persisted with
      | none =>
        cases hrest
        exact ⟨rfl, Or.inr rfl⟩
      | some emitted =>
        rw [bind_eq_ok] at hrest
        obtain ⟨_, s₄, hemit, hrest⟩ := hrest
        obtain ⟨-, rfl⟩ := runPure_eq_ok.1 hemit
        cases hrest
        exact ⟨rfl, Or.inr rfl⟩

/-- A start on a fresh service leaves it fresh or installs the session it created. -/
theorem startContext_final (env : Environment) (config : SignalGenerationConfig) (boundary : ℤ) :
    finalState (startContext env config boundary .fresh) = .fresh ∨
      ∃ session, createSession env config = .ok session ∧
        (finalState (startContext env config boundary .fresh)).session = some session := by
  have hidle : (raiseUnless (ServiceState.fresh.session.isNone = true)
      (.runtimeError "signal generation session is already started") :
        ServiceProgram PUnit) .fresh = .ok ⟨⟩ .fresh := raiseUnless_eq_ok.2 ⟨rfl, rfl⟩
  -- every raise before the session is installed leaves the service fresh
  unfold startContext
  rw [get_bind_apply, bind_apply_of_ok hidle]
  cases hcreated : createSession env config with
  | error fault => exact Or.inl rfl
  | ok session =>
    rw [bind_apply_of_ok (runPure_ok _ _)]
    cases hread : readStream env.feed config.stream boundary outsideConfigured with
    | error fault => exact Or.inl rfl
    | ok history =>
      rw [bind_apply_of_ok (runPure_ok _ _)]
      by_cases hlength : requiredWarmup config session.runtime session.specs config.stream + 1 ≤
          history.length
      · refine Or.inr ⟨session, rfl, ?_⟩
        rw [raiseUnless_bind_apply hlength, modify_bind_apply]
        -- warming up touches neither the session nor the cursor
        have hframe : Frames (fun s : ServiceState => (s.session, s.lastClose)) (do
            let context ← warmUp env session history
              (SeriesSetup.lastOf (requiredWarmup config session.runtime session.specs
                config.stream + 1) history) boundary
            return (session, context, reportSeriesGaps (SeriesSetup.lastOf
              (requiredWarmup config session.runtime session.specs config.stream + 1) history)
                boundary) :
            ServiceProgram (Session × AnalysisContext × List DataGap)) :=
          (frames_warmUp _ _ _).bind fun _ => frames_pure _
        exact congrArg Prod.fst (hframe (installed session .fresh))
      · refine Or.inl ?_
        unfold raiseUnless
        rw [if_neg hlength]
        rfl

/-- A start on a fresh service: its session, and its cursor at the decision candle. -/
theorem start_final (env : Environment) (store : Store) (config : SignalGenerationConfig)
    (boundary : ℤ)
    (position : Option Position) :
    Installed (env.over store) config
        (finalState (start (env.over store) config boundary position .fresh)) ∧
      ∀ last ∈ (finalState (start (env.over store) config boundary position .fresh)).lastClose,
        ∃ decision, decisionCandle store config boundary = some decision ∧
          last = decision.closeTime := by
  have hfresh : Installed (env.over store) config .fresh := ⟨nofun, fun _ => rfl⟩
  unfold start
  -- without a context nothing is judged; with one the session is the one created
  cases hwarm : startContext (env.over store) config boundary .fresh with
  | error fault s₁ =>
    rw [bind_apply_of_error hwarm]
    have hlast : s₁.lastClose = none := (frames_startContext _ _).of_error hwarm
    have hfinal := startContext_final (env.over store) config boundary
    rw [hwarm] at hfinal
    refine ⟨?_, fun last hmem => ?_⟩
    · rcases hfinal with hs | ⟨session, hcreated, hs⟩
      · change s₁ = _ at hs
        rw [hs]
        exact hfresh
      · change s₁.session = _ at hs
        refine ⟨fun session' h => ?_, fun h => ?_⟩
        · change s₁.session = _ at h
          rw [hs] at h
          cases h
          exact hcreated
        · change s₁.session = _ at h
          rw [hs] at h
          cases h
    · change last ∈ s₁.lastClose at hmem
      rw [hlast] at hmem
      cases hmem
  | ok warmed s₁ =>
    obtain ⟨session, context, gaps⟩ := warmed
    rw [bind_apply_of_ok hwarm]
    have hlast : s₁.lastClose = none := (frames_startContext _ _).of_ok hwarm
    obtain ⟨-, hcreated, hdecision⟩ := startContext_eq_ok hwarm
    have hsession := (startContext_session hwarm).1
    have hjudge := judge_final (s := s₁) (env.over store) session context position
    change Installed (env.over store) config (finalState ((judge (env.over store) session context
      position >>= fun signal => (pure ⟨signal, gaps⟩ : ServiceProgram SignalCycleResult)) s₁)) ∧
        ∀ last ∈ (finalState ((judge (env.over store) session context position >>= fun signal =>
          (pure ⟨signal, gaps⟩ : ServiceProgram SignalCycleResult)) s₁)).lastClose, _
    rw [finalState_bind_pure]
    refine ⟨⟨fun session' h => ?_, fun h => ?_⟩, fun last hmem => ?_⟩
    · rw [hjudge.1, hsession] at h
      cases h
      exact hcreated
    · rw [hjudge.1, hsession] at h
      cases h
    · rcases hjudge.2 with hkept | hmoved
      · rw [hkept, hlast] at hmem
        cases hmem
      · rw [hmoved] at hmem
        cases hmem
        exact ⟨context.candle, hdecision, rfl⟩

/-- Everything of a poll before the strategy's turn keeps the session and its cursor. -/
theorem frames_pollContext (env : Environment) (boundary : ℤ) :
    Frames (fun s : ServiceState => (s.session, s.lastClose)) (pollContext env boundary) := by
  have hrequire : Frames (fun s : ServiceState => (s.session, s.lastClose)) requireSession := by
    refine frames_get.bind fun s => ?_
    split
    · exact frames_throw _
    · exact frames_pure _
  have harrival : ∀ session : Session,
      Frames (fun s : ServiceState => (s.session, s.lastClose))
        (arrival env session boundary) := by
    intro session
    refine frames_get.bind fun s => ?_
    split
    · exact frames_throw _
    refine (frames_runPure _).bind fun fresh => ?_
    split
    · refine Frames.bind (frames_get.bind fun s => ?_) fun _ => frames_pure _
      dsimp only
      split
      · exact Frames.bind (frames_modify fun _ => rfl) fun _ => frames_pure _
      · exact frames_pure _
    · exact (frames_raiseUnless _).bind fun _ => (frames_raiseUnless _).bind fun _ =>
        frames_pure _
  refine hrequire.bind fun session => (harrival session).bind fun arrived => ?_
  split
  · exact frames_pure _
  · exact (frames_observe _ _).bind fun _ => frames_pure _

/-- **What a poll does to the session**: it keeps it, and moves the cursor at most to the
one candle it found. -/
theorem poll_final (env : Environment) (boundary : ℤ) (position : Option Position) :
    (finalState (poll env boundary position s)).session = s.session ∧
      ((finalState (poll env boundary position s)).lastClose = s.lastClose ∨
        ∃ started context s₁,
          pollContext env boundary s = .ok (started, .inl context) s₁ ∧
            (finalState (poll env boundary position s)).lastClose =
              some context.candle.closeTime) := by
  have hframe := frames_pollContext env boundary s
  unfold poll
  cases hcontext : pollContext env boundary s with
  | error fault s₁ =>
    rw [hcontext] at hframe
    rw [bind_apply_of_error hcontext]
    exact ⟨congrArg Prod.fst hframe, Or.inl (congrArg Prod.snd hframe)⟩
  | ok found s₁ =>
    obtain ⟨started, arrived⟩ := found
    rw [hcontext] at hframe
    rw [bind_apply_of_ok hcontext]
    cases arrived with
    | inr gaps => exact ⟨congrArg Prod.fst hframe, Or.inl (congrArg Prod.snd hframe)⟩
    | inl context =>
      -- only a judged candle moves the cursor
      have hjudge := judge_final (s := s₁) env started context position
      change (finalState ((judge env started context position >>= fun signal =>
        (pure ⟨signal, []⟩ : ServiceProgram SignalCycleResult)) s₁)).session = _ ∧
          ((finalState ((judge env started context position >>= fun signal =>
            (pure ⟨signal, []⟩ : ServiceProgram SignalCycleResult)) s₁)).lastClose = _ ∨ _)
      rw [finalState_bind_pure]
      refine ⟨hjudge.1.trans (congrArg Prod.fst hframe), ?_⟩
      rcases hjudge.2 with hkept | hmoved
      · exact Or.inl (hkept.trans (congrArg Prod.snd hframe))
      · exact Or.inr ⟨started, context, s₁, rfl, hmoved⟩

/-- **Past the instant.** No poll from here on can judge a candle that closes by the
instant. -/
def Beyond (store : Store) (config : SignalGenerationConfig) (instant time : ℤ)
    (s : ServiceState) : Prop :=
  s.session ≠ none → ∀ last ∈ s.lastClose, ∀ boundary, time ≤ boundary → ∀ candle,
    store.closedAfter config.stream last boundary = [candle] → instant < candle.closeTime

section Run

variable {time : ℤ} {position : Option Position} {context : AnalysisContext}

/-- The candle a poll judges is the only one past its cursor. -/
theorem pollContext_over (hinstalled : Installed (env.over store) config s)
    (h : pollContext (env.over store) boundary s = .ok (session, .inl context) s') :
    session.config = config ∧ ∃ last, s.lastClose = some last ∧
      store.closedAfter config.stream last boundary = [context.candle] := by
  obtain ⟨hsession, harrived, -⟩ := pollContext_eq_context h
  have hconfig := createSession_eq_ok (hinstalled.created session hsession)
  obtain ⟨-, last, hlast, hfresh, -⟩ := arrival_eq_candle harrived
  refine ⟨hconfig, last, hlast, ?_⟩
  unfold confirmedIncrement at hfresh
  rw [hconfig] at hfresh
  change (do
    let fresh ← readStreamAfter store.feed config.stream last boundary outsideConfigured
    require (∀ candle ∈ fresh, last ≤ candle.openTime)
      (.valueError "incremental DataFeed returned a candle before the cursor")
    return fresh) = _ at hfresh
  rw [Store.readStreamAfter_feed] at hfresh
  simp only [Except.bind_eq_ok] at hfresh
  obtain ⟨fresh, hread, _, -, hfresh⟩ := hfresh
  cases hfresh
  exact Except.ok.inj hread

/-- Once the cursor has reached the instant, polls judge later candles. -/
theorem beyond_of_le_lastClose (h : ∀ last ∈ s.lastClose, instant ≤ last) :
    Beyond store config instant time s := by
  intro _ last hlast boundary _ candle hfresh
  have hmem : candle ∈ store.closedAfter config.stream last boundary := by
    rw [hfresh]
    exact List.mem_singleton_self _
  have hopen := (Store.mem_closedAfter.1 hmem).2.1
  have := candle.openTime_lt_closeTime
  have := h last hlast
  omega

/-- A poll keeps a state past the instant there. -/
theorem Beyond.poll (hinstalled : Installed (env.over store) config s)
    (h : Beyond store config instant time s) (hle : time ≤ boundary) :
    Beyond store config instant boundary
      (finalState (SignalService.poll (env.over store) boundary position s)) := by
  obtain ⟨hsession, hkept | ⟨started, context, s₁, hcontext, hmoved⟩⟩ :=
    poll_final (s := s) (env.over store) boundary position
  · intro hstarted last hlast later hlater candle hfresh
    rw [hsession] at hstarted
    rw [hkept] at hlast
    exact h hstarted last hlast later (hle.trans hlater) candle hfresh
  · refine beyond_of_le_lastClose fun last hlast => ?_
    rw [hmoved] at hlast
    cases hlast
    obtain ⟨-, cursor, hcursor, hfresh⟩ := pollContext_over hinstalled hcontext
    obtain ⟨hstarted, -⟩ := pollContext_eq_context hcontext
    refine (h ?_ cursor hcursor boundary hle _ hfresh).le
    rw [hstarted]
    simp

/-- A poll that finds a candle past the instant leaves the state past it. -/
theorem beyond_poll_of_later {last : ℤ} {later : Candle}
    (hinstalled : Installed (env.over store) config s) (hlast : s.lastClose = some last)
    (hmem : later ∈ store.closedAfter config.stream last boundary)
    (hlater : instant < later.closeTime) :
    Beyond store config instant boundary
      (finalState (SignalService.poll (env.over store) boundary position s)) := by
  have hbeyond : Beyond store config instant boundary s := by
    intro _ cursor hcursor time htime candle hfresh
    rw [hlast] at hcursor
    cases hcursor
    -- the later candle is still past the cursor, so it is the one found
    have hstill : later ∈ store.closedAfter config.stream last time := by
      rw [Store.mem_closedAfter] at hmem ⊢
      exact ⟨hmem.1, hmem.2.1, hmem.2.2.trans htime⟩
    rw [hfresh, List.mem_singleton] at hstill
    rw [← hstill]
    exact hlater
  exact hbeyond.poll hinstalled le_rfl

/-- A start at or after the instant leaves the state past it. -/
theorem beyond_start (hle : instant ≤ boundary) :
    Beyond store config instant boundary
      (finalState (start (env.over store) config boundary position .fresh)) := by
  intro _ last hlast later hlater candle hfresh
  obtain ⟨decision, hdecision, rfl⟩ :=
    (start_final env store config boundary position).2 last hlast
  have hmem : candle ∈ store.closedAfter config.stream decision.closeTime later := by
    rw [hfresh]
    exact List.mem_singleton_self _
  obtain ⟨hstored, hopen, -⟩ := Store.mem_closedAfter.1 hmem
  by_contra hnot
  -- a candle closed by the instant was there at the start, no later than its decision
  have hclosed : candle ∈ store.closedBy config.stream boundary :=
    Store.mem_closedBy.2 ⟨hstored, by omega⟩
  have := SameDecision.le_of_decisionCandle hdecision hclosed
  have := candle.openTime_lt_closeTime
  omega

/-- **Polling over both stores.** When neither poll finds a candle past the instant, both
do the same. -/
theorem pollContext_eq_of_closed (hagree : AgreeUpTo instant store store')
    (hinstalled : Installed (env.over store) config s)
    (h : ∀ last ∈ s.lastClose, ∀ candle ∈ store.closedAfter config.stream last boundary,
      candle.closeTime ≤ instant)
    (h' : ∀ last ∈ s.lastClose, ∀ candle ∈ store'.closedAfter config.stream last boundary,
      candle.closeTime ≤ instant) :
    pollContext (env.over store) boundary s = pollContext (env.over store') boundary s := by
  -- without a candle past the instant a read is the read cut at it
  have hcut : ∀ {some_store : Store} {last : ℤ},
      (∀ candle ∈ some_store.closedAfter config.stream last boundary,
        candle.closeTime ≤ instant) →
      some_store.closedAfter config.stream last boundary =
        some_store.closedAfter config.stream last (min boundary instant) := by
    intro some_store last hclosed
    have := fun candle => @hclosed candle
    unfold Store.closedAfter at this ⊢
    by_cases hle : boundary ≤ last
    · rw [if_pos hle, if_pos (by omega)]
    · rw [if_neg hle] at this ⊢
      split
      · next hmin =>
        rw [List.filter_eq_nil_iff]
        intro candle hmem hkeep
        rw [decide_eq_true_eq] at hkeep
        have := this candle (List.mem_filter.2 ⟨hmem, decide_eq_true hkeep⟩)
        have := candle.openTime_lt_closeTime
        omega
      · apply List.filter_congr
        intro candle hmem
        rw [decide_eq_decide]
        constructor
        · intro hkeep
          have := this candle (List.mem_filter.2 ⟨hmem, decide_eq_true hkeep⟩)
          omega
        · intro hkeep
          omega
  have hfresh : ∀ last ∈ s.lastClose, store.closedAfter config.stream last boundary =
      store'.closedAfter config.stream last boundary := by
    intro last hlast
    rw [hcut (h last hlast), hcut (h' last hlast), hagree.closedAfter_eq (min_le_right _ _)]
  -- both polls find the same arrival, and observe it from the same series
  unfold pollContext
  cases hsession : s.session with
  | none =>
    unfold requireSession
    simp only [bind_assoc, get_bind_apply, hsession]
    rfl
  | some session =>
    have hrequire : requireSession s = .ok session s := requireSession_eq_ok.2 ⟨hsession, rfl⟩
    rw [bind_apply_of_ok hrequire, bind_apply_of_ok hrequire]
    have hconfig := createSession_eq_ok (hinstalled.created session hsession)
    have harrival : arrival (env.over store) session boundary s =
        arrival (env.over store') session boundary s := by
      unfold arrival
      rw [get_bind_apply, get_bind_apply]
      cases hlast : s.lastClose with
      | none => rfl
      | some last =>
        dsimp only
        unfold confirmedIncrement Environment.over
        dsimp only
        rw [hconfig, Store.readStreamAfter_feed, Store.readStreamAfter_feed, hfresh last hlast]
    cases harrived : arrival (env.over store) session boundary s with
    | error fault s₁ =>
      rw [bind_apply_of_error harrived, bind_apply_of_error (harrival.symm.trans harrived)]
    | ok arrived s₁ =>
      rw [bind_apply_of_ok harrived, bind_apply_of_ok (harrival.symm.trans harrived)]
      cases arrived with
      | nothing gaps => rfl
      | candle candle =>
        obtain ⟨-, last, hlast, hread, -⟩ := arrival_eq_candle harrived
        have hmem : candle ∈ store.closedAfter config.stream last boundary := by
          unfold confirmedIncrement Environment.over at hread
          dsimp only at hread
          rw [hconfig, Store.readStreamAfter_feed] at hread
          simp only [Except.bind_eq_ok] at hread
          obtain ⟨fresh, hfresh, _, -, hread⟩ := hread
          cases hread
          rw [Except.ok.inj hfresh]
          exact List.mem_singleton_self _
        dsimp only
        rw [observe_over hagree (h last hlast candle hmem)]

theorem poll_eq_of_closed (hagree : AgreeUpTo instant store store')
    (hinstalled : Installed (env.over store) config s)
    (h : ∀ last ∈ s.lastClose, ∀ candle ∈ store.closedAfter config.stream last boundary,
      candle.closeTime ≤ instant)
    (h' : ∀ last ∈ s.lastClose, ∀ candle ∈ store'.closedAfter config.stream last boundary,
      candle.closeTime ≤ instant) :
    poll (env.over store) boundary position s = poll (env.over store') boundary position s := by
  have hcontext := pollContext_eq_of_closed hagree hinstalled h h'
  unfold poll
  cases hfound : pollContext (env.over store) boundary s with
  | error fault s₁ =>
    rw [bind_apply_of_error hfound, bind_apply_of_error (hcontext.symm.trans hfound)]
  | ok found s₁ =>
    rw [bind_apply_of_ok hfound, bind_apply_of_ok (hcontext.symm.trans hfound)]
    rfl

theorem start_eq_of_startContext_eq
    (h : startContext (env.over store) config boundary =
      startContext (env.over store') config boundary) :
    start (env.over store) config boundary position =
      start (env.over store') config boundary position := by
  unfold start
  rw [h]
  rfl

/-- Starts within the instant do the same over both stores. -/
theorem startContext_eq_of_le (hagree : AgreeUpTo instant store store')
    (hle : boundary ≤ instant) :
    startContext (env.over store) config boundary =
      startContext (env.over store') config boundary := by
  cases hdecision : decisionCandle store config boundary with
  | some decision => exact startContext_over (SameDecision.of_le hagree hle hdecision)
  | none =>
    -- without a closed candle the history is too short
    have hempty : store.closedBy config.stream boundary = [] :=
      List.getLast?_eq_none_iff.1 hdecision
    have hempty' : store'.closedBy config.stream boundary = [] := by
      rw [← hagree.closedBy_eq hle, hempty]
    have hread : ∀ {some_store : Store}, some_store.closedBy config.stream boundary = [] →
        readStream (env.over some_store).feed config.stream boundary outsideConfigured =
          .ok [] := by
      intro some_store hnone
      rw [← hnone]
      exact Store.readStream_feed
    have hcreate : ∀ some_store : Store,
        createSession (env.over some_store) config = createSession env config := fun _ => rfl
    unfold startContext
    rw [hread hempty, hread hempty', hcreate, hcreate]
    refine bind_congr fun s => bind_congr fun _ => bind_congr fun session => ?_
    rw [runPure_ok_bind, runPure_ok_bind]
    exact raiseUnless_bind fun hlength => absurd hlength (Nat.not_succ_le_zero _)

end Run

/-! ### Two runs -/

section TwoRuns

variable {calls : List Call} {call : Call} {context context' : AnalysisContext}

theorem after_nil (env : Environment) (config : SignalGenerationConfig) :
    after env config [] = .fresh := rfl

theorem after_append (env : Environment) (config : SignalGenerationConfig) (calls : List Call)
    (call : Call) :
    after env config (calls ++ [call]) =
      finalState (call.perform env config (after env config calls)) := by
  unfold after
  rw [List.foldl_append]
  rfl

/-- A start on a started service raises and changes nothing. -/
theorem start_final_of_session {boundary : ℤ} {position : Option Position}
    (h : s.session ≠ none) : finalState (start env config boundary position s) = s := by
  have hraise : startContext env config boundary s =
      .error (.runtimeError "signal generation session is already started") s := by
    unfold startContext
    rw [get_bind_apply]
    apply raiseUnless_bind_apply_of_not
    simpa using h
  unfold start
  rw [bind_apply_of_error hraise]
  rfl

/-- A rewarm without a session raises and changes nothing. -/
theorem rewarm_of_idle {boundary : ℤ} {position : Option Position} (h : s.session = none) :
    rewarm env boundary position s =
      .error (.runtimeError "signal generation session is not started") s := by
  have hraise : discard s =
      .error (.runtimeError "signal generation session is not started") s := by
    unfold discard requireSession
    simp only [bind_assoc, get_bind_apply, h]
    rfl
  unfold rewarm
  rw [bind_apply_of_error hraise]

/-- A poll without a session raises and changes nothing. -/
theorem poll_final_of_idle {boundary : ℤ} {position : Option Position}
    (h : s.session = none) : finalState (poll env boundary position s) = s := by
  have hraise : pollContext env boundary s =
      .error (.runtimeError "signal generation session is not started") s := by
    unfold pollContext requireSession
    simp only [bind_assoc, get_bind_apply, h]
    rfl
  unfold poll
  rw [bind_apply_of_error hraise]
  rfl

/-- A service without a session is fresh, and its session is the configuration's. -/
theorem installed_after (env : Environment) (store : Store) (config : SignalGenerationConfig)
    (calls : List Call) :
    Installed (env.over store) config (after (env.over store) config calls) := by
  -- on the calls made so far, whether they raised or not
  induction calls using List.reverseRecOn with
  | nil => exact ⟨nofun, fun _ => rfl⟩
  | append_singleton calls call ih =>
    rw [after_append]
    generalize after (env.over store) config calls = s at ih
    obtain ⟨kind, boundary, position⟩ := call
    cases kind with
    | start =>
      change Installed _ _ (finalState (start (env.over store) config boundary position s))
      by_cases hsession : s.session = none
      · rw [ih.idle hsession]
        exact (start_final env store config boundary position).1
      · rw [start_final_of_session hsession]
        exact ih
    | rewarm =>
      change Installed _ _ (finalState (rewarm (env.over store) boundary position s))
      cases hsession : s.session with
      | none =>
        rw [rewarm_of_idle hsession]
        exact ih
      | some session =>
        rw [rewarm_apply hsession, createSession_eq_ok (ih.created session hsession)]
        exact (start_final env store config boundary position).1
    | poll =>
      change Installed _ _ (finalState (poll (env.over store) boundary position s))
      have hsession := (poll_final (s := s) (env.over store) boundary position).1
      by_cases hidle : s.session = none
      · rw [poll_final_of_idle hidle]
        exact ih
      · refine ⟨fun session h => ih.created session (hsession ▸ h), fun h => ?_⟩
        rw [hsession] at h
        exact absurd h hidle

/-- Two runs whose decision times are within the instant do the same. -/
theorem perform_eq_of_le (hagree : AgreeUpTo instant store store')
    (hinstalled : Installed (env.over store) config s) (hle : call.boundary ≤ instant) :
    call.perform (env.over store) config s = call.perform (env.over store') config s := by
  obtain ⟨kind, boundary, position⟩ := call
  have hstart : start (env.over store) config boundary position =
      start (env.over store') config boundary position :=
    start_eq_of_startContext_eq (startContext_eq_of_le hagree hle)
  cases kind with
  | start =>
    change start _ config boundary position s = start _ config boundary position s
    rw [hstart]
  | rewarm =>
    change rewarm _ boundary position s = rewarm _ boundary position s
    cases hsession : s.session with
    | none => rw [rewarm_of_idle hsession, rewarm_of_idle hsession]
    | some session =>
      rw [rewarm_apply hsession, rewarm_apply hsession,
        createSession_eq_ok (hinstalled.created session hsession), hstart]
  | poll =>
    change poll _ boundary position s = poll _ boundary position s
    refine poll_eq_of_closed hagree hinstalled (fun last _ candle hmem => ?_)
      fun last _ candle hmem => ?_
    · exact (Store.mem_closedAfter.1 hmem).2.2.trans hle
    · exact (Store.mem_closedAfter.1 hmem).2.2.trans hle

theorem after_eq_of_le (hagree : AgreeUpTo instant store store')
    (h : ∀ call ∈ calls, call.boundary ≤ instant) :
    after (env.over store) config calls = after (env.over store') config calls := by
  induction calls using List.reverseRecOn with
  | nil => rw [after_nil, after_nil]
  | append_singleton calls call ih =>
    have hcalls : ∀ c ∈ calls, c.boundary ≤ instant :=
      fun c hc => h c (List.mem_append_left _ hc)
    have hcall : call.boundary ≤ instant :=
      h call (List.mem_append_right _ (List.mem_singleton_self _))
    rw [after_append, after_append, ← ih hcalls,
      perform_eq_of_le hagree (installed_after env store config calls) hcall]

theorem Beyond.mono {time time' : ℤ} (h : Beyond store config instant time s)
    (hle : time ≤ time') : Beyond store config instant time' s :=
  fun hstarted last hlast boundary hboundary =>
    h hstarted last hlast boundary (hle.trans hboundary)

/-- **The relation of two runs past the instant.** The states are equal, or one of them
cannot judge a candle that closes by the instant any more. -/
def Related (store store' : Store) (config : SignalGenerationConfig) (instant time : ℤ)
    (s s' : ServiceState) : Prop :=
  s = s' ∨ Beyond store config instant time s ∨ Beyond store' config instant time s'

theorem Related.mono {time time' : ℤ} (h : Related store store' config instant time s s')
    (hle : time ≤ time') : Related store store' config instant time' s s' := by
  rcases h with heq | h | h
  · exact Or.inl heq
  · exact Or.inr (Or.inl (h.mono hle))
  · exact Or.inr (Or.inr (h.mono hle))

/-- One poll past the instant. -/
theorem poll_past {position : Option Position} (hagree : AgreeUpTo instant store store')
    (hinstalled : Installed (env.over store) config s)
    (hinstalled' : Installed (env.over store') config s')
    (h : Related store store' config instant boundary s s') :
    Related store store' config instant boundary
      (finalState (poll (env.over store) boundary position s))
      (finalState (poll (env.over store') boundary position s')) := by
  rcases h with rfl | hbeyond | hbeyond
  · by_cases hlater : ∃ last ∈ s.lastClose, ∃ candle ∈
        store.closedAfter config.stream last boundary, instant < candle.closeTime
    · obtain ⟨last, hlast, candle, hmem, hlate⟩ := hlater
      exact Or.inr (Or.inl (beyond_poll_of_later hinstalled hlast hmem hlate))
    by_cases hlater' : ∃ last ∈ s.lastClose, ∃ candle ∈
        store'.closedAfter config.stream last boundary, instant < candle.closeTime
    · obtain ⟨last, hlast, candle, hmem, hlate⟩ := hlater'
      exact Or.inr (Or.inr (beyond_poll_of_later hinstalled' hlast hmem hlate))
    · left
      have heq : poll (env.over store) boundary position s =
          poll (env.over store') boundary position s := by
        refine poll_eq_of_closed hagree hinstalled (fun last hlast candle hmem => ?_)
          fun last hlast candle hmem => ?_
        · exact not_lt.1 fun hlate => hlater ⟨last, hlast, candle, hmem, hlate⟩
        · exact not_lt.1 fun hlate => hlater' ⟨last, hlast, candle, hmem, hlate⟩
      rw [heq]
  · exact Or.inr (Or.inl (hbeyond.poll hinstalled le_rfl))
  · exact Or.inr (Or.inr (hbeyond.poll hinstalled' le_rfl))

/-- One start past the instant. -/
theorem start_past {position : Option Position}
    (hinstalled : Installed (env.over store) config s)
    (hinstalled' : Installed (env.over store') config s') (hle : instant ≤ boundary)
    (h : Related store store' config instant boundary s s') :
    Related store store' config instant boundary
      (finalState (start (env.over store) config boundary position s))
      (finalState (start (env.over store') config boundary position s')) := by
  by_cases hsession : s.session = none
  · have hfresh := hinstalled.idle hsession
    subst hfresh
    exact Or.inr (Or.inl (beyond_start hle))
  by_cases hsession' : s'.session = none
  · have hfresh := hinstalled'.idle hsession'
    subst hfresh
    exact Or.inr (Or.inr (beyond_start hle))
  · rw [start_final_of_session hsession, start_final_of_session hsession']
    exact h

/-- A rewarm past the instant leaves the state past it. -/
theorem beyond_rewarm {position : Option Position}
    (hinstalled : Installed (env.over store) config s) (hle : instant ≤ boundary) :
    Beyond store config instant boundary
      (finalState (rewarm (env.over store) boundary position s)) := by
  cases hsession : s.session with
  | none =>
    rw [rewarm_of_idle hsession]
    intro hstarted
    exact absurd hsession hstarted
  | some session =>
    rw [rewarm_apply hsession, createSession_eq_ok (hinstalled.created session hsession)]
    exact beyond_start hle

/-- **Two runs are related** after the same calls, when decision times do not go back. -/
theorem after_related (hagree : AgreeUpTo instant store store')
    (hordered : calls.Pairwise fun earlier later => earlier.boundary ≤ later.boundary)
    {time : ℤ} (htime : ∀ call ∈ calls, call.boundary ≤ time) :
    Related store store' config instant time (after (env.over store) config calls)
      (after (env.over store') config calls) := by
  induction calls using List.reverseRecOn generalizing time with
  | nil => exact Or.inl (by rw [after_nil, after_nil])
  | append_singleton calls call ih =>
    rw [List.pairwise_append] at hordered
    have hbefore : ∀ c ∈ calls, c.boundary ≤ call.boundary :=
      fun c hc => hordered.2.2 c hc call (List.mem_singleton_self _)
    have hlast : call.boundary ≤ time :=
      htime call (List.mem_append_right _ (List.mem_singleton_self _))
    rcases le_or_gt call.boundary instant with hle | hlt
    · -- nothing later than the instant was read
      refine Or.inl (after_eq_of_le hagree fun c hc => ?_)
      rcases List.mem_append.1 hc with hc | hc
      · exact (hbefore c hc).trans hle
      · rw [List.mem_singleton.1 hc]
        exact hle
    · rw [after_append, after_append]
      -- the last call is past the instant
      refine Related.mono ?_ hlast
      have hrelated := ih hordered.1 hbefore
      have hinstalled := installed_after env store config calls
      have hinstalled' := installed_after env store' config calls
      obtain ⟨kind, boundary, position⟩ := call
      cases kind with
      | start => exact start_past hinstalled hinstalled' hlt.le hrelated
      | rewarm => exact Or.inr (Or.inl (beyond_rewarm hinstalled hlt.le))
      | poll => exact poll_past hagree hinstalled hinstalled' hrelated

/-- A poll that judges a candle found it alone past its cursor. -/
theorem closed_of_pollContext (hinstalled : Installed (env.over store) config s)
    (h : pollContext (env.over store) boundary s = .ok (session, .inl context) s')
    (hle : context.candle.closeTime ≤ instant) :
    ∀ last ∈ s.lastClose, ∀ candle ∈ store.closedAfter config.stream last boundary,
      candle.closeTime ≤ instant := by
  intro last hlast candle hmem
  obtain ⟨-, cursor, hcursor, hfresh⟩ := pollContext_over hinstalled h
  rw [hcursor] at hlast
  cases hlast
  rw [hfresh, List.mem_singleton] at hmem
  rw [hmem]
  exact hle

theorem not_beyond_of_pollContext (hinstalled : Installed (env.over store) config s)
    (h : pollContext (env.over store) boundary s = .ok (session, .inl context) s')
    (hle : context.candle.closeTime ≤ instant) :
    ¬Beyond store config instant boundary s := by
  intro hbeyond
  obtain ⟨-, last, hlast, hfresh⟩ := pollContext_over hinstalled h
  obtain ⟨hsession, -⟩ := pollContext_eq_context h
  have := hbeyond (by simp [hsession]) last hlast boundary le_rfl _ hfresh
  omega

/-- A poll of two related runs that judges the same candle. -/
theorem poll_analysis_eq {position : Option Position} {s₁ s₁' : ServiceState}
    {session' : Session} (hagree : AgreeUpTo instant store store')
    (hinstalled : Installed (env.over store) config s)
    (hinstalled' : Installed (env.over store') config s')
    (hrelated : Related store store' config instant boundary s s')
    (h : pollContext (env.over store) boundary s = .ok (session, .inl context) s₁)
    (h' : pollContext (env.over store') boundary s' = .ok (session', .inl context') s₁')
    (hle : context.candle.closeTime ≤ instant) (hle' : context'.candle.closeTime ≤ instant) :
    context = context' ∧
      poll (env.over store) boundary position s = poll (env.over store') boundary position s' := by
  rcases hrelated with rfl | hbeyond | hbeyond
  · have hclosed := closed_of_pollContext hinstalled h hle
    have hclosed' := closed_of_pollContext hinstalled' h' hle'
    have hcontext := pollContext_eq_of_closed hagree hinstalled hclosed hclosed'
    rw [h, h'] at hcontext
    cases hcontext
    exact ⟨rfl, poll_eq_of_closed hagree hinstalled hclosed hclosed'⟩
  · exact absurd hbeyond (not_beyond_of_pollContext hinstalled h hle)
  · exact absurd hbeyond (not_beyond_of_pollContext hinstalled' h' hle')

/-- Two timely starts of fresh services that judge the same candle. -/
theorem start_analysis_eq {position : Option Position} {s₁ s₁' : ServiceState}
    {session' : Session} {gaps gaps' : List DataGap} (hagree : AgreeUpTo instant store store')
    (htimely : Timely env config store boundary) (htimely' : Timely env config store' boundary)
    (h : startContext (env.over store) config boundary .fresh = .ok (session, context, gaps) s₁)
    (h' : startContext (env.over store') config boundary .fresh =
      .ok (session', context', gaps') s₁')
    (hcandle : context.candle = context'.candle) (hle : context.candle.closeTime ≤ instant) :
    context = context' ∧ start (env.over store) config boundary position .fresh =
      start (env.over store') config boundary position .fresh := by
  have hdecision := (startContext_eq_ok h).2.2
  have hdecision' := (startContext_eq_ok h').2.2
  rw [← hcandle] at hdecision'
  have hsame := startContext_over
    (SameDecision.of_timely hagree hle hdecision hdecision' htimely htimely')
  have hresult := congrFun hsame .fresh
  rw [h, h'] at hresult
  cases hresult
  have hstart : start (env.over store) config boundary position =
      start (env.over store') config boundary position := start_eq_of_startContext_eq hsame
  exact ⟨rfl, congrFun hstart .fresh⟩

/-- **No look-ahead.** After the same calls over two stores that agree up to the close of a
candle, at decision times that do not go back, a call that judges this candle over both
shows the strategy the same context and ends the same way, provided a start or rewarm is
timely. -/
theorem analysis_eq {candle : Candle} (hagree : AgreeUpTo candle.closeTime store store')
    (hordered : (calls ++ [call]).Pairwise fun earlier later =>
      earlier.boundary ≤ later.boundary)
    (htimely : call.kind ≠ .poll →
      Timely env config store call.boundary ∧ Timely env config store' call.boundary)
    (h : call.analyzed (env.over store) config (after (env.over store) config calls) =
      some context)
    (h' : call.analyzed (env.over store') config (after (env.over store') config calls) =
      some context')
    (hcandle : context.candle = candle) (hcandle' : context'.candle = candle) :
    context = context' ∧
      call.perform (env.over store) config (after (env.over store) config calls) =
        call.perform (env.over store') config (after (env.over store') config calls) := by
  rw [List.pairwise_append] at hordered
  have hbefore : ∀ c ∈ calls, c.boundary ≤ call.boundary :=
    fun c hc => hordered.2.2 c hc call (List.mem_singleton_self _)
  have hrelated : Related store store' config candle.closeTime call.boundary
      (after (env.over store) config calls) (after (env.over store') config calls) :=
    after_related hagree hordered.1 hbefore
  have hinstalled := installed_after env store config calls
  have hinstalled' := installed_after env store' config calls
  -- only what relates the two states matters from here on
  generalize after (env.over store) config calls = s at h hrelated hinstalled ⊢
  generalize after (env.over store') config calls = s' at h' hrelated hinstalled' ⊢
  have heq : context.candle = context'.candle := hcandle.trans hcandle'.symm
  have hle : context.candle.closeTime ≤ candle.closeTime := by rw [hcandle]
  have hle' : context'.candle.closeTime ≤ candle.closeTime := by rw [hcandle']
  obtain ⟨kind, boundary, position⟩ := call
  -- a start needs a fresh service, a rewarm starts anew, and a poll goes on
  cases kind with
  | start =>
    obtain ⟨htimely, htimely'⟩ := htimely (by simp)
    unfold Call.analyzed at h h'
    dsimp only at h h'
    split at h
    · next started found gaps s₁ hwarm =>
      split at h'
      · next started' found' gaps' s₁' hwarm' =>
        cases h
        cases h'
        have hfresh := hinstalled.idle (startContext_eq_ok hwarm).1
        have hfresh' := hinstalled'.idle (startContext_eq_ok hwarm').1
        subst hfresh
        subst hfresh'
        exact start_analysis_eq hagree htimely htimely' hwarm hwarm' heq hle
      · cases h'
    · cases h
  | rewarm =>
    obtain ⟨htimely, htimely'⟩ := htimely (by simp)
    unfold Call.analyzed at h h'
    dsimp only at h h'
    -- a rewarm that judges has found a session to discard
    have hsome : ∀ {some_store : Store} {t : ServiceState} {found : AnalysisContext},
        (match rewarmContext (env.over some_store) boundary t with
          | .ok (_, context, _) _ => some context
          | .error _ _ => none) = some found → ∃ started, t.session = some started := by
      intro some_store t found hfound
      cases hsession : t.session with
      | some started => exact ⟨started, rfl⟩
      | none =>
        have hraise : discard t =
            .error (.runtimeError "signal generation session is not started") t := by
          unfold discard requireSession
          simp only [bind_assoc, get_bind_apply, hsession]
          rfl
        unfold rewarmContext at hfound
        rw [bind_apply_of_error hraise] at hfound
        cases hfound
    obtain ⟨started, hsession⟩ := hsome h
    obtain ⟨started', hsession'⟩ := hsome h'
    have hconfig := createSession_eq_ok (hinstalled.created started hsession)
    have hconfig' := createSession_eq_ok (hinstalled'.created started' hsession')
    rw [rewarmContext_apply hsession, hconfig] at h
    rw [rewarmContext_apply hsession', hconfig'] at h'
    change context = context' ∧ rewarm _ boundary position s = rewarm _ boundary position s'
    rw [rewarm_apply hsession, hconfig, rewarm_apply hsession', hconfig']
    split at h
    · next warmed found gaps s₁ hwarm =>
      split at h'
      · next warmed' found' gaps' s₁' hwarm' =>
        cases h
        cases h'
        exact start_analysis_eq hagree htimely htimely' hwarm hwarm' heq hle
      · cases h'
    · cases h
  | poll =>
    unfold Call.analyzed at h h'
    dsimp only at h h'
    split at h
    · next started found s₁ hpoll =>
      split at h'
      · next started' found' s₁' hpoll' =>
        cases h
        cases h'
        exact poll_analysis_eq hagree hinstalled hinstalled' hrelated hpoll hpoll' hle hle'
      · cases h'
    · cases h

end TwoRuns

/-! ### An hourly session with a five-minute series -/

/-- Three hourly candles, and some candles of five minutes. -/
def fineStore (count : ℕ) : Store :=
  regularStore fun stream =>
    if stream.2 = oneHour then 3 else if stream.2 = fiveMinutes then count else 0

/-- The thirty-seventh candle of five minutes closes after the third hour. -/
theorem fineStore_agree : AgreeUpTo (3 * Instant.hour) (fineStore 36) (fineStore 37) := by
  intro stream
  by_cases hfine : stream.2 = fiveMinutes
  · have hhour : stream.2 ≠ oneHour := by
      rw [hfine]
      decide
    have hcandles : (fineStore 37).candles stream =
        (fineStore 36).candles stream ++ [regularCandle stream 36] := by
      change (List.range (if _ then 3 else if _ then 37 else 0)).map _ =
        (List.range (if _ then 3 else if _ then 36 else 0)).map _ ++ _
      rw [if_neg hhour, if_pos hfine, if_neg hhour, if_pos hfine, List.range_succ,
        List.map_append]
      rfl
    -- the one candle in which they differ closes after the instant
    have hlate : ¬(regularCandle stream 36).closeTime ≤ 3 * Instant.hour := by
      change ¬stream.2.duration * 36 + stream.2.duration ≤ 3 * Instant.hour
      rw [hfine]
      decide
    unfold Store.closedBy
    rw [hcandles, List.filter_append, List.filter_singleton]
    simp [hlate]
  · have hsame : (fineStore 36).candles stream = (fineStore 37).candles stream := by
      change (List.range (if _ then 3 else if _ then 36 else 0)).map _ =
        (List.range (if _ then 3 else if _ then 37 else 0)).map _
      rw [if_neg hfine, if_neg hfine]
    unfold Store.closedBy
    rw [hsame]

/-- An hourly session that counts the candles of five minutes. -/
def watchingFine : Environment :=
  watching brokenFeed [countingSpec fiveMinutes]

/-- A start at a decision time. -/
def startAt (boundary : ℤ) : Call := ⟨.start, boundary, none⟩

/-- A start on the hour is timely. -/
theorem timely_of_hour (count : ℕ) :
    Timely watchingFine hourlyConfig (fineStore count) (3 * Instant.hour) := by
  intro session _ decision hdecision spec _ _ symbol _ candle _ hclosed
  have hclose : decisionCandle (fineStore count) hourlyConfig (3 * Instant.hour) =
      some (regularCandle hourlyConfig.stream 2) := by
    have hcandles : (fineStore count).candles hourlyConfig.stream =
        [regularCandle hourlyConfig.stream 0, regularCandle hourlyConfig.stream 1,
          regularCandle hourlyConfig.stream 2] := rfl
    unfold decisionCandle Store.closedBy
    rw [hcandles]
    rfl
  rw [hclose] at hdecision
  cases hdecision
  exact hclosed

/-- The five-minute series of the session. -/
def fineKey : SeriesKey := (countingSpec fiveMinutes).key

/-- A start shows the decision candle of the third hour and the count of a series. -/
def showsCount (count : ℚ) (context : AnalysisContext) : Bool :=
  decide (context.candle = regularCandle hourlyConfig.stream 2) &&
    decide (context.indicators fineKey = some (.scalar (some count)))

theorem exists_of_showsCount {found : Option AnalysisContext} {count : ℚ}
    (h : found.any (showsCount count) = true) : ∃ context, found = some context ∧
      context.candle = regularCandle hourlyConfig.stream 2 ∧
      context.indicators fineKey = some (.scalar (some count)) := by
  rw [Option.any_eq_true_iff_get] at h
  obtain ⟨hsome, htest⟩ := h
  unfold showsCount at htest
  rw [Bool.and_eq_true, decide_eq_true_eq, decide_eq_true_eq] at htest
  exact ⟨_, (Option.some_get hsome).symm, htest⟩

/-- A start on the third hour, over stores that differ after it. -/
theorem analysis_eq_on_hour : ∃ context context',
    (startAt (3 * Instant.hour)).analyzed (watchingFine.over (fineStore 36)) hourlyConfig
      (after (watchingFine.over (fineStore 36)) hourlyConfig []) = some context ∧
    (startAt (3 * Instant.hour)).analyzed (watchingFine.over (fineStore 37)) hourlyConfig
      (after (watchingFine.over (fineStore 37)) hourlyConfig []) = some context' ∧
    context = context' := by
  obtain ⟨context, hfound, hcandle, -⟩ := exists_of_showsCount
    (show ((startAt (3 * Instant.hour)).analyzed (watchingFine.over (fineStore 36)) hourlyConfig
      (after (watchingFine.over (fineStore 36)) hourlyConfig [])).any (showsCount 36) = true by
        decide +kernel)
  obtain ⟨context', hfound', hcandle', -⟩ := exists_of_showsCount
    (show ((startAt (3 * Instant.hour)).analyzed (watchingFine.over (fineStore 37)) hourlyConfig
      (after (watchingFine.over (fineStore 37)) hourlyConfig [])).any (showsCount 36) = true by
        decide +kernel)
  refine ⟨context, context', hfound, hfound', ?_⟩
  have hagree : AgreeUpTo (regularCandle hourlyConfig.stream 2).closeTime (fineStore 36)
    (fineStore 37) := fineStore_agree
  have htimely : (startAt (3 * Instant.hour)).kind ≠ .poll →
      Timely watchingFine hourlyConfig (fineStore 36) (startAt (3 * Instant.hour)).boundary ∧
        Timely watchingFine hourlyConfig (fineStore 37)
          (startAt (3 * Instant.hour)).boundary :=
    fun _ => ⟨timely_of_hour 36, timely_of_hour 37⟩
  exact (analysis_eq hagree (List.pairwise_singleton _ _) htimely hfound hfound' hcandle
    hcandle').1

/-- A start five minutes after the third hour judges its candle on a later candle of five
minutes. -/
theorem lookahead_after_hour :
    AgreeUpTo (regularCandle hourlyConfig.stream 2).closeTime (fineStore 36) (fineStore 37) ∧
    ∃ context context',
      (startAt (3 * Instant.hour + 5 * Instant.minute)).analyzed
        (watchingFine.over (fineStore 36)) hourlyConfig
        (after (watchingFine.over (fineStore 36)) hourlyConfig []) = some context ∧
      (startAt (3 * Instant.hour + 5 * Instant.minute)).analyzed
        (watchingFine.over (fineStore 37)) hourlyConfig
        (after (watchingFine.over (fineStore 37)) hourlyConfig []) = some context' ∧
      context.candle = regularCandle hourlyConfig.stream 2 ∧
      context'.candle = regularCandle hourlyConfig.stream 2 ∧
      context.indicators fineKey ≠ context'.indicators fineKey := by
  refine ⟨fineStore_agree, ?_⟩
  obtain ⟨context, hfound, hcandle, hcount⟩ := exists_of_showsCount
    (show ((startAt (3 * Instant.hour + 5 * Instant.minute)).analyzed
      (watchingFine.over (fineStore 36)) hourlyConfig
      (after (watchingFine.over (fineStore 36)) hourlyConfig [])).any (showsCount 36) = true by
        decide +kernel)
  obtain ⟨context', hfound', hcandle', hcount'⟩ := exists_of_showsCount
    (show ((startAt (3 * Instant.hour + 5 * Instant.minute)).analyzed
      (watchingFine.over (fineStore 37)) hourlyConfig
      (after (watchingFine.over (fineStore 37)) hourlyConfig [])).any (showsCount 37) = true by
        decide +kernel)
  refine ⟨context, context', hfound, hfound', hcandle, hcandle', ?_⟩
  rw [hcount, hcount']
  intro heq
  cases heq

end SignalService
end TradingSystem
