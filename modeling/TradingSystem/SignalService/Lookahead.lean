import TradingSystem.SignalService.Recovery

/-!
# Which candles a live decision depends on

Two runs of the service make the same calls over two stores that agree up to an instant.
Where both judge a candle that closes by the instant, a *poll* shows the strategy the same
context in both and ends the same way. A *start* or *rewarm* does so when no series of
another timeframe has a candle between the close of the decision candle and the decision
time: the warm-up reads those series up to the decision time.

* `observe_over` — observing reads nothing later than the candle's close.
* `startContext_over` — warming up, when both calls share their decision and their reads.
* `SameDecision.of_timely` — they do when the warm-ups are `Timely`.
-/

namespace TradingSystem
namespace SignalService

open Numeric Logic

variable {env : Environment} {store store' : Store} {session : Session}
  {config : SignalGenerationConfig} {s s' : ServiceState} {instant boundary : ℤ}

/-- The environment reading a store. -/
def Environment.over (env : Environment) (store : Store) : Environment :=
  { env with feed := store.feed }

/-! ### Observing -/

section Observe

variable {candle : Candle}

theorem readStream_over (hagree : AgreeUpTo instant store store') (hle : boundary ≤ instant)
    (stream : CandleStream) (outside : String) :
    readStream store.feed stream boundary outside =
      readStream store'.feed stream boundary outside := by
  rw [Store.readStream_feed, Store.readStream_feed, hagree.closedBy_eq hle]

theorem readStreamAfter_over (hagree : AgreeUpTo instant store store') (hle : boundary ≤ instant)
    (stream : CandleStream) (after : ℤ) (outside : String) :
    readStreamAfter store.feed stream after boundary outside =
      readStreamAfter store'.feed stream after boundary outside := by
  rw [Store.readStreamAfter_feed, Store.readStreamAfter_feed, hagree.closedAfter_eq hle]

theorem advanceNonExecutionSeries_over (hagree : AgreeUpTo instant store store')
    (hle : boundary ≤ instant) :
    advanceNonExecutionSeries (env.over store) session boundary =
      advanceNonExecutionSeries (env.over store') session boundary := by
  have hstream : advanceStream (env.over store) session.specs boundary =
      advanceStream (env.over store') session.specs boundary := by
    ext entry : 1
    unfold advanceStream Environment.over
    dsimp only
    rw [readStreamAfter_over hagree hle]
  have hpaired : ∀ reference,
      advancePaired (env.over store) session.config reference boundary =
        advancePaired (env.over store') session.config reference boundary := by
    intro reference
    ext spec : 1
    unfold advancePaired Environment.over
    dsimp only
    rw [readStream_over hagree hle, readStream_over hagree hle]
  unfold advanceNonExecutionSeries
  rw [hstream]
  simp only [hpaired]

/-- **Observing reads nothing later than the candle's close.** -/
theorem observe_over (hagree : AgreeUpTo instant store store')
    (hle : candle.closeTime ≤ instant) :
    observe (env.over store) session candle boundary =
      observe (env.over store') session candle boundary := by
  have hseries : observeSeries (env.over store) session.config candle =
      observeSeries (env.over store') session.config candle := by
    ext spec : 1
    unfold observeSeries Environment.over
    dsimp only
    simp only [readStream_over hagree hle]
  unfold observe
  rw [advanceNonExecutionSeries_over hagree hle, hseries]

end Observe

/-! ### Warming up -/

/-- The decision candle of a warm-up is the last one closed by the boundary. -/
def decisionCandle (store : Store) (config : SignalGenerationConfig) (boundary : ℤ) :
    Option Candle :=
  (store.closedBy config.stream boundary).getLast?

/-- The symbols whose candles the warm-up of a series reads. -/
def readSymbols (config : SignalGenerationConfig) (spec : ResolvedSeriesSpec) : List String :=
  config.symbol :: if spec.needsReferenceSeries then config.referenceSymbol.toList else []

/-- **A timely warm-up.** No series of another timeframe reads a candle that closes after the
decision candle and by the boundary. -/
def Timely (env : Environment) (config : SignalGenerationConfig) (store : Store)
    (boundary : ℤ) : Prop :=
  ∀ session, createSession env config = .ok session →
    ∀ decision ∈ decisionCandle store config boundary, ∀ spec ∈ session.specs,
      spec.timeframe ≠ config.timeframe →
        ∀ symbol ∈ readSymbols config spec,
          ∀ candle ∈ store.candles (symbol, spec.timeframe),
            candle.closeTime ≤ boundary → candle.closeTime ≤ decision.closeTime

/-- Candles closed by a boundary and no later than an earlier instant. -/
theorem closedBy_eq_of_le {stream : CandleStream} (hle : instant ≤ boundary)
    (h : ∀ candle ∈ store.candles stream, candle.closeTime ≤ boundary →
      candle.closeTime ≤ instant) :
    store.closedBy stream boundary = store.closedBy stream instant := by
  unfold Store.closedBy
  apply List.filter_congr
  intro candle hmem
  have := h candle hmem
  rw [decide_eq_decide]
  constructor
  · exact this
  · intro hclosed
    omega

/-- Matching only looks at reference candles with the close of a primary one. -/
theorem matchCandles_filter (primary : List Candle) {reference reference' : List Candle}
    {close : ℤ}
    (h : (reference.filter fun candle => candle.closeTime ≤ close) =
      reference'.filter fun candle => candle.closeTime ≤ close) :
    ((SeriesSetup.matchCandles primary reference).filter fun pair =>
        pair.1.closeTime < close) =
      (SeriesSetup.matchCandles primary reference').filter fun pair =>
        pair.1.closeTime < close := by
  have hcut : ∀ candles : List Candle,
      (SeriesSetup.matchCandles primary candles).filter (fun pair =>
        decide (pair.1.closeTime < close)) =
      SeriesSetup.matchCandles (primary.filter fun candle => candle.closeTime < close)
        (candles.filter fun candle => candle.closeTime < close) := by
    intro candles
    refine (SeriesSetup.matchCandles_cut
      (p := fun candle => decide (candle.closeTime < close)) ?_).symm
    intro candle _ other _ hclose
    rw [hclose]
  -- what closes before the bound is what remains of what closes by it
  have hbefore : ∀ candles : List Candle,
      (candles.filter fun candle => candle.closeTime < close) =
        (candles.filter fun candle => candle.closeTime ≤ close).filter
          fun candle => candle.closeTime < close := by
    intro candles
    rw [List.filter_filter]
    refine List.filter_congr fun candle _ => ?_
    by_cases hlt : candle.closeTime < close
    · simp [hlt, hlt.le]
    · simp [hlt]
  rw [hcut, hcut, hbefore reference, hbefore reference', h]

/-- What two warm-ups share: the decision candle, closed by the instant, and the reads of
the series of other timeframes. -/
structure SameDecision (env : Environment) (config : SignalGenerationConfig)
    (store store' : Store) (instant boundary : ℤ) (decision : Candle) : Prop where
  agree : AgreeUpTo instant store store'
  closed : decision.closeTime ≤ instant
  decision_eq : decisionCandle store config boundary = some decision
  decision_eq' : decisionCandle store' config boundary = some decision
  series_eq : ∀ session, createSession env config = .ok session → ∀ spec ∈ session.specs,
    spec.timeframe ≠ config.timeframe →
      ∀ symbol ∈ readSymbols config spec,
        store.closedBy (symbol, spec.timeframe) boundary =
          store'.closedBy (symbol, spec.timeframe) boundary

namespace SameDecision

variable {decision : Candle}

theorem le_of_decisionCandle {candle : Candle}
    (h : decisionCandle store config boundary = some decision)
    (hmem : candle ∈ store.closedBy config.stream boundary) :
    candle.closeTime ≤ decision.closeTime := by
  unfold decisionCandle at h
  rw [List.getLast?_eq_some_iff] at h
  obtain ⟨before, hbefore⟩ := h
  have hordered : (store.closedBy config.stream boundary).Pairwise fun left right =>
      left.closeTime ≤ right.openTime := Store.closedBy_ordered
  rw [hbefore] at hmem hordered
  rw [List.pairwise_append] at hordered
  rcases List.mem_append.1 hmem with hmem | hmem
  · have := hordered.2.2 candle hmem decision (List.mem_singleton_self _)
    have := decision.openTime_lt_closeTime
    omega
  · rw [List.mem_singleton] at hmem
    rw [hmem]

theorem closed_by_boundary (h : decisionCandle store config boundary = some decision) :
    decision.closeTime ≤ boundary :=
  (Store.mem_closedBy.1 (List.mem_of_getLast? h)).2

/-- The decision streams read the same. -/
theorem history_eq (h : SameDecision env config store store' instant boundary decision) :
    store.closedBy config.stream boundary = store'.closedBy config.stream boundary := by
  have hcut : ∀ {some_store : Store},
      decisionCandle some_store config boundary = some decision →
        some_store.closedBy config.stream boundary =
          some_store.closedBy config.stream decision.closeTime := by
    intro some_store hdecision
    refine closedBy_eq_of_le (closed_by_boundary hdecision) fun candle hmem hle => ?_
    exact le_of_decisionCandle hdecision (Store.mem_closedBy.2 ⟨hmem, hle⟩)
  rw [hcut h.decision_eq, hcut h.decision_eq', h.agree.closedBy_eq h.closed]

/-- Timely warm-ups share their reads. -/
theorem of_timely (hagree : AgreeUpTo instant store store')
    (hclosed : decision.closeTime ≤ instant)
    (hdecision : decisionCandle store config boundary = some decision)
    (hdecision' : decisionCandle store' config boundary = some decision)
    (htimely : Timely env config store boundary) (htimely' : Timely env config store' boundary) :
    SameDecision env config store store' instant boundary decision where
  agree := hagree
  closed := hclosed
  decision_eq := hdecision
  decision_eq' := hdecision'
  series_eq := by
    intro session hcreated spec hspec hother symbol hsymbol
    have hcut := closedBy_eq_of_le (closed_by_boundary hdecision)
      (htimely session hcreated decision hdecision spec hspec hother symbol hsymbol)
    have hcut' := closedBy_eq_of_le (closed_by_boundary hdecision')
      (htimely' session hcreated decision hdecision' spec hspec hother symbol hsymbol)
    rw [hcut, hcut', hagree.closedBy_eq hclosed]

/-- Warm-ups within the instant share their reads. -/
theorem of_le (hagree : AgreeUpTo instant store store') (hle : boundary ≤ instant)
    (hdecision : decisionCandle store config boundary = some decision) :
    SameDecision env config store store' instant boundary decision where
  agree := hagree
  closed := (closed_by_boundary hdecision).trans hle
  decision_eq := hdecision
  decision_eq' := by
    rw [← hdecision]
    unfold decisionCandle
    rw [hagree.closedBy_eq hle]
  series_eq := fun _ _ _ _ _ _ _ => hagree.closedBy_eq hle

/-- **Warming one series up** does the same over both stores. -/
theorem warmSeries_eq (h : SameDecision env config store store' instant boundary decision)
    (hcreated : createSession env config = .ok session) {spec : ResolvedSeriesSpec}
    (hspec : spec ∈ session.specs) (history : List Candle) :
    warmSeries (env.over store) session history decision.closeTime boundary spec =
      warmSeries (env.over store') session history decision.closeTime boundary spec := by
  have hconfig := createSession_eq_ok hcreated
  -- a series of another timeframe is read up to the boundary
  have hread : spec.timeframe ≠ config.timeframe →
      ∀ symbol ∈ readSymbols config spec, ∀ outside,
        readStream store.feed (symbol, spec.timeframe) boundary outside =
          readStream store'.feed (symbol, spec.timeframe) boundary outside := by
    intro hother symbol hsymbol outside
    rw [Store.readStream_feed, Store.readStream_feed,
      h.series_eq session hcreated spec hspec hother symbol hsymbol]
  have hown : config.symbol ∈ readSymbols config spec :=
    List.mem_cons_self ..
  have hrun : ∀ (candles : List Candle) (rest : List Candle → ServiceProgram PUnit),
      (runPure (.ok candles) >>= rest) = rest candles := fun _ _ => rfl
  have hstate : warmState (env.over store) session history decision.closeTime boundary spec =
      warmState (env.over store') session history decision.closeTime boundary spec := by
    unfold warmState
    rw [hconfig]
    split
    · next hpaired =>
      -- a paired series reads its reference too
      unfold warmPaired Environment.over
      by_cases hsame : spec.timeframe = config.timeframe
      · rw [if_pos hsame, if_pos hsame]
        congr 1
        ext primary : 1
        cases hreference : config.referenceSymbol with
        | none => rfl
        | some reference =>
          dsimp only
          rw [Store.readStream_feed, Store.readStream_feed]
          -- of the own timeframe only pairs before the decision candle are kept
          have hcut : ∀ some_store : Store,
              (some_store.closedBy (reference, spec.timeframe) boundary).filter
                (fun candle => candle.closeTime ≤ decision.closeTime) =
              some_store.closedBy (reference, spec.timeframe) decision.closeTime := fun _ =>
            (AgreeUpTo.closedBy_closedBy _ (closed_by_boundary h.decision_eq)).symm
          have hmatched := matchCandles_filter primary
            (((hcut store).trans (h.agree.closedBy_eq h.closed)).trans (hcut store').symm)
          have hpairs : (if spec.timeframe = config.timeframe then
              (SeriesSetup.matchCandles primary
                (store.closedBy (reference, spec.timeframe) boundary)).filter
                fun pair => pair.1.closeTime < decision.closeTime
              else SeriesSetup.matchCandles primary
                (store.closedBy (reference, spec.timeframe) boundary)) =
            if spec.timeframe = config.timeframe then
              (SeriesSetup.matchCandles primary
                (store'.closedBy (reference, spec.timeframe) boundary)).filter
                fun pair => pair.1.closeTime < decision.closeTime
              else SeriesSetup.matchCandles primary
                (store'.closedBy (reference, spec.timeframe) boundary) := by
            rw [if_pos hsame, if_pos hsame, hmatched]
          simp only [hrun]
          rw [hpairs]
      · rw [if_neg hsame, if_neg hsame]
        dsimp only
        rw [hread hsame _ hown]
        congr 1
        ext primary : 1
        cases hreference : config.referenceSymbol with
        | none => rfl
        | some reference =>
          dsimp only
          rw [hread hsame reference (by simp [readSymbols, hpaired, hreference])]
    split
    · rfl
    · next hother =>
      unfold warmSingle Environment.over
      dsimp only
      rw [hread hother _ hown]
  unfold warmSeries
  rw [hstate]

end SameDecision

theorem getLast?_window {history : List Candle} {required : ℕ}
    (h : required + 1 ≤ history.length) :
    (SeriesSetup.lastOf (required + 1) history).getLast? = history.getLast? := by
  unfold SeriesSetup.lastOf
  rw [if_neg (Nat.succ_ne_zero _), List.getLast?_drop, if_neg (by omega)]

/-- What a start passes before it installs its session. -/
theorem startContext_eq_ok {context : AnalysisContext} {gaps : List DataGap}
    (h : startContext (env.over store) config boundary s = .ok (session, context, gaps) s') :
    s.session = none ∧ createSession env config = .ok session ∧
      decisionCandle store config boundary = some context.candle := by
  unfold startContext at h
  simp only [bind_eq_ok] at h
  obtain ⟨_, _, hget, _, _, hidle, created, _, hcreated, history, _, hread, _, _, hlength, _, s₁,
    hinstalled, context', s₂, hwarm, h⟩ := h
  cases hget
  cases h
  -- the feed returns what the store has closed
  have hhistory : store.closedBy config.stream boundary = history := by
    have hstore := (runPure_eq_ok.1 hread).1
    change readStream store.feed config.stream boundary outsideConfigured = _ at hstore
    rw [Store.readStream_feed] at hstore
    cases hstore
    rfl
  refine ⟨Option.isNone_iff_eq_none.1 (raiseUnless_eq_ok.1 hidle).1,
    (runPure_eq_ok.1 hcreated).1, ?_⟩
  unfold decisionCandle
  rw [hhistory, ← getLast?_window (raiseUnless_eq_ok.1 hlength).1]
  -- and the last candle of it is the one that is judged
  unfold warmUp at hwarm
  cases hdecision : (SeriesSetup.lastOf
      (requiredWarmup config session.runtime session.specs config.stream + 1)
      history).getLast? with
  | none =>
    rw [hdecision] at hwarm
    cases hwarm
  | some decision =>
    rw [hdecision] at hwarm
    simp only [bind_eq_ok] at hwarm
    obtain ⟨_, _, -, _, _, -, hobserve⟩ := hwarm
    rw [observe_candle hobserve]

/-- **Warming up** does the same over both stores. -/
theorem startContext_over {decision : Candle}
    (h : SameDecision env config store store' instant boundary decision) :
    startContext (env.over store) config boundary =
      startContext (env.over store') config boundary := by
  have hread : ∀ some_store : Store,
      readStream (env.over some_store).feed config.stream boundary outsideConfigured =
        .ok (some_store.closedBy config.stream boundary) := fun _ => Store.readStream_feed
  -- the warm-up reads the series up to the decision time, where the stores agree
  have hwarm : ∀ session history, createSession env config = .ok session →
      history.getLast? = some decision → ∀ window : List Candle,
        window.getLast? = history.getLast? →
        warmUp (env.over store) session history window boundary =
          warmUp (env.over store') session history window boundary := by
    intro session history hcreated hlast window hwindow
    unfold warmUp
    rw [hwindow, hlast]
    dsimp only
    rw [observe_over h.agree h.closed]
    congr 1
    ext _ : 1
    rw [forEach_congr fun spec hspec => h.warmSeries_eq hcreated hspec history]
  have hcreate : ∀ some_store : Store,
      createSession (env.over some_store) config = createSession env config := fun _ => rfl
  unfold startContext
  rw [hread, hread, hcreate, hcreate, ← h.history_eq]
  refine bind_congr fun s => bind_congr fun _ => ?_
  -- the session is created before anything is read
  cases hcreated : createSession env config with
  | error fault => rw [runPure_error_bind, runPure_error_bind]
  | ok session =>
    rw [runPure_ok_bind, runPure_ok_bind, runPure_ok_bind, runPure_ok_bind]
    refine raiseUnless_bind fun hlength => bind_congr fun _ => ?_
    dsimp only
    rw [hwarm session _ hcreated h.decision_eq _ (getLast?_window hlength)]

end SignalService
end TradingSystem
