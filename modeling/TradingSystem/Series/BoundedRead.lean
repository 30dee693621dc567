import TradingSystem.Series.WarmUp
import TradingSystem.Logic.Frame

/-!
# A bounded warm-up read against an unbounded one

The floor under the reads of a run is meant as an optimization. What a run derives by
counting bars back from the start is the same with and without it; what it derives by
recursion over a whole history is not.

* `SameDerivation` — what two preparations of one run have in common.
* `preload_eq_of_cut`, `pairedPreload_eq_of_cut` — counting back does not see the floor.
* `sameDerivation_of_floorKeepsDays` — when the two preparations derive the same.
* `not_sameDerivation_of_ten_days` — eleven stored days on which they do not.
-/

namespace TradingSystem
namespace WarmUp

open Logic Numeric Wallet SeriesSetup SeriesBoard SignalService TurtleN

/-! ### The last elements of a list -/

section Lists

variable {α : Type} {count : ℕ}

/-- The last elements of a suffix that holds enough of them. -/
theorem lastOf_of_suffix {part whole : List α} (h : part <:+ whole) (hpos : 0 < count)
    (hcount : count ≤ part.length) : lastOf count part = lastOf count whole := by
  obtain ⟨front, rfl⟩ := h
  unfold lastOf
  rw [if_neg hpos.ne', if_neg hpos.ne', List.length_append]
  have hsplit : front.length + part.length - count = front.length + (part.length - count) := by
    omega
  rw [hsplit, ← List.drop_drop, List.drop_left]

/-- In a list ordered by a key, what lies from a bound on is a suffix. -/
theorem filter_suffix {f : α → ℤ} {l : List α} {bound : ℤ}
    (h : l.Pairwise fun left right => f left < f right) :
    l.filter (fun a => decide (bound ≤ f a)) <:+ l := by
  induction l with
  | nil => exact List.suffix_refl _
  | cons a l ih =>
    rw [List.pairwise_cons] at h
    by_cases ha : bound ≤ f a
    · have hall : (a :: l).filter (fun b => decide (bound ≤ f b)) = a :: l := by
        rw [List.filter_eq_self]
        intro b hb
        rw [decide_eq_true_eq]
        rcases List.mem_cons.1 hb with rfl | hb
        · exact ha
        · exact ha.trans (h.1 b hb).le
      rw [hall]
    · rw [List.filter_cons_of_neg (by simpa using ha)]
      exact (ih h.2).trans (List.suffix_cons a l)

theorem filter_comm (p q : α → Bool) (l : List α) :
    (l.filter p).filter q = (l.filter q).filter p := by
  rw [List.filter_filter, List.filter_filter]
  refine List.filter_congr fun a _ => ?_
  exact Bool.and_comm _ _

end Lists

/-! ### Demands -/

section Demands

variable {config : HistoryConfig} {demands : List (CandleStream × ℕ)} {stream : CandleStream}
  {count : ℕ}

theorem le_foldl_max {values : List ℕ} {start value : ℕ} (h : value ∈ values ∨ value ≤ start) :
    value ≤ values.foldl max start := by
  induction values generalizing start with
  | nil =>
    rcases h with h | h
    · cases h
    · exact h
  | cons first rest ih =>
    rw [List.foldl_cons]
    apply ih
    rcases h with h | h
    · rcases List.mem_cons.1 h with rfl | h
      · exact .inr (le_max_right _ _)
      · exact .inl h
    · exact .inr (h.trans (le_max_left _ _))

/-- A stream keeps at least what was declared for it. -/
theorem le_required (h : (stream, count) ∈ demands) : count ≤ required demands stream := by
  unfold required
  refine le_foldl_max (.inl (List.mem_map.2 ⟨(stream, count), ?_, rfl⟩))
  rw [List.mem_filter]
  exact ⟨h, by simp⟩

theorem mem_streamsOf : stream ∈ streamsOf demands ↔ ∃ count, (stream, count) ∈ demands := by
  unfold streamsOf
  rw [List.mem_eraseDups, List.mem_map]
  constructor
  · rintro ⟨⟨s, n⟩, hmem, rfl⟩
    exact ⟨n, hmem⟩
  · rintro ⟨n, hmem⟩
    exact ⟨_, hmem, rfl⟩

theorem seriesDemands_eq_ok {spec : ResolvedSeriesSpec}
    (h : config.seriesDemands spec = .ok demands) :
    ∀ demand ∈ demands, demand.2 = spec.minHistory := by
  unfold HistoryConfig.seriesDemands at h
  dsimp only at h
  by_cases hreference : spec.needsReferenceSeries = true
  · rw [if_pos hreference] at h
    cases hsymbol : config.referenceSymbol with
    | none =>
      rw [hsymbol] at h
      cases h
    | some reference =>
      rw [hsymbol] at h
      cases h
      simp
  · rw [if_neg hreference] at h
    cases h
    simp

theorem allSeriesDemands_eq_ok {specs : List ResolvedSeriesSpec}
    (h : config.allSeriesDemands specs = .ok demands) :
    ∀ demand ∈ demands, ∃ spec ∈ specs, demand.2 = spec.minHistory := by
  induction specs generalizing demands with
  | nil =>
    cases h
    simp
  | cons spec rest ih =>
    unfold HistoryConfig.allSeriesDemands at h
    simp only [Except.bind_eq_ok] at h
    obtain ⟨first, hfirst, others, hothers, h⟩ := h
    cases h
    intro demand hmem
    rcases List.mem_append.1 hmem with hmem | hmem
    · exact ⟨spec, List.mem_cons_self .., seriesDemands_eq_ok hfirst demand hmem⟩
    · obtain ⟨other, hother, heq⟩ := ih hothers demand hmem
      exact ⟨other, List.mem_cons_of_mem _ hother, heq⟩

/-- Every declared bar count is positive. -/
theorem demands_pos (h : config.demands = .ok demands) : ∀ demand ∈ demands, 0 < demand.2 := by
  unfold HistoryConfig.demands at h
  rw [Except.bind_eq_ok] at h
  obtain ⟨series, hseries, h⟩ := h
  cases h
  intro demand hmem
  rcases List.mem_cons.1 hmem with rfl | hmem
  · exact config.minHistory_pos
  rcases List.mem_append.1 hmem with hmem | hmem
  · obtain ⟨spec, hspec, heq⟩ := allSeriesDemands_eq_ok hseries demand hmem
    rw [heq]
    exact config.specs_pos spec hspec
  · unfold HistoryConfig.policyDemands at hmem
    cases hpolicy : config.policy with
    | none =>
      rw [hpolicy] at hmem
      cases hmem
    | some policy =>
      rw [hpolicy] at hmem
      obtain ⟨requirement, -, rfl⟩ := List.mem_map.1 hmem
      exact requirement.minHistory_pos

theorem required_pos (h : config.demands = .ok demands) (hstream : stream ∈ streamsOf demands) :
    0 < required demands stream := by
  obtain ⟨count, hcount⟩ := mem_streamsOf.1 hstream
  exact (demands_pos h _ hcount).trans_le (le_required hcount)

/-- What the policy needs is read. -/
theorem policy_stream_mem (h : config.demands = .ok demands) {policy : DeclaredPolicy}
    (hpolicy : config.policy = some policy) {requirement : PolicyIndicatorRequirement}
    (hmem : requirement ∈ policy.requiredIndicators) :
    (config.symbol, requirement.timeframe.getD config.timeframe) ∈ streamsOf demands := by
  unfold HistoryConfig.demands at h
  rw [Except.bind_eq_ok] at h
  obtain ⟨series, -, h⟩ := h
  cases h
  refine mem_streamsOf.2 ⟨requirement.minHistory,
    List.mem_cons_of_mem _ (List.mem_append_right _ ?_)⟩
  unfold HistoryConfig.policyDemands
  rw [hpolicy]
  exact List.mem_map.2 ⟨requirement, hmem, rfl⟩

end Demands

/-! ### The reads -/

section Reads

variable {store : MinuteStore} {floor : Option ℤ} {bound finish : ℤ} {stream : CandleStream}
  {streams : List CandleStream} {history : List Candle} {histories bounded free : Histories}

/-- The checks of a read never fail on these candles. -/
theorem readHistory_eq_candles :
    readHistory store floor finish stream =
      CandleFeed.candles store floor stream.1 stream.2 finish := by
  unfold readHistory
  cases hcandles : CandleFeed.candles store floor stream.1 stream.2 finish with
  | error fault => rfl
  | ok candles =>
    have hordered := CandleFeed.candles_ordered hcandles
    have hsorted : sortedByOpen candles = candles := by
      apply List.Pairwise.insertionSort_eq
      exact hordered.imp fun hlt => hlt.le
    have hincreasing := rel_of_mem_zip_tail hordered
    have hstream : ∀ candle ∈ candles, candle.symbol = stream.1 ∧ candle.timeframe = stream.2 :=
      fun candle hmem => CandleFeed.stream_of_mem_candles hcandles hmem
    change (do
      require (∀ pair ∈ (sortedByOpen candles).zip (sortedByOpen candles).tail,
        pair.1.openTime < pair.2.openTime) _
      require (∀ candle ∈ sortedByOpen candles,
        candle.symbol = stream.1 ∧ candle.timeframe = stream.2) _
      return sortedByOpen candles : Except Fault (List Candle)) = _
    rw [hsorted, (require_eq_ok (u := ())).2 hincreasing, (require_eq_ok (u := ())).2 hstream]
    rfl

theorem readHistory_ok (h : readHistory store floor finish stream = .ok history) :
    CandleFeed.candles store floor stream.1 stream.2 finish = .ok history :=
  readHistory_eq_candles ▸ h

/-- What was read of each stream. -/
theorem readHistories_eq_ok (h : readHistories store floor finish streams = .ok histories) :
    (∀ stream ∈ streams, ∃ history, readHistory store floor finish stream = .ok history ∧
      histories stream = some history) ∧ ∀ stream ∉ streams, histories stream = none := by
  induction streams generalizing histories with
  | nil =>
    cases h
    exact ⟨by simp, fun _ _ => rfl⟩
  | cons first rest ih =>
    unfold readHistories at h
    simp only [Except.bind_eq_ok] at h
    obtain ⟨history, hfirst, others, hothers, h⟩ := h
    cases h
    obtain ⟨hread, hnone⟩ := ih hothers
    refine ⟨?_, ?_⟩
    · intro stream hmem
      -- a stream that is read twice keeps what was read first
      by_cases heq : stream = first
      · subst heq
        exact ⟨history, hfirst, if_pos rfl⟩
      · rcases List.mem_cons.1 hmem with hmem | hmem
        · exact absurd hmem heq
        · obtain ⟨history', hread', hsome⟩ := hread stream hmem
          exact ⟨history', hread', (if_neg heq).trans hsome⟩
    · intro stream hmem
      rw [List.mem_cons, not_or] at hmem
      exact (if_neg hmem.1).trans (hnone stream hmem.2)

/-- The streams a policy asks for are among those read. -/
theorem policy_stream_read {config : HistoryConfig} {demands : List (CandleStream × ℕ)}
    (hdemands : config.demands = .ok demands)
    (hread : readHistories store floor finish (streamsOf demands) = .ok histories) :
    ∀ policy, config.policy = some policy → ∀ requirement ∈ policy.requiredIndicators,
      histories (config.symbol, requirement.timeframe.getD config.timeframe) ≠ none := by
  intro policy hpolicy requirement hrequirement
  obtain ⟨history, -, hsome⟩ :=
    (readHistories_eq_ok hread).1 _ (policy_stream_mem hdemands hpolicy hrequirement)
  rw [hsome]
  exact Option.some_ne_none history

/-- What a history holds: candles of its stream, in the order in which they open. -/
structure IsHistory (stream : CandleStream) (history : List Candle) : Prop where
  ordered : history.Pairwise fun left right => left.openTime < right.openTime
  timeframe : ∀ candle ∈ history, candle.timeframe = stream.2

theorem isHistory_historyOf (h : readHistories store floor finish streams = .ok histories)
    (stream : CandleStream) : IsHistory stream (historyOf histories stream) := by
  obtain ⟨hread, hnone⟩ := readHistories_eq_ok h
  unfold historyOf
  by_cases hmem : stream ∈ streams
  · obtain ⟨history, hhistory, hsome⟩ := hread stream hmem
    have hcandles := readHistory_ok hhistory
    rw [hsome]
    exact ⟨CandleFeed.candles_ordered hcandles,
      fun candle hcandle => (CandleFeed.stream_of_mem_candles hcandles hcandle).2⟩
  · rw [hnone stream hmem]
    exact ⟨List.Pairwise.nil, by simp⟩

/-- The histories above a floor. -/
def IsCut (bound : ℤ) (bounded free : Histories) : Prop :=
  ∀ stream, bounded stream =
    (free stream).map fun history => history.filter fun candle => bound ≤ candle.openTime

/-- **The floor cuts every history.** -/
theorem isCut_of_readHistories
    (hbounded : readHistories store (some bound) finish streams = .ok bounded)
    (hfree : readHistories store none finish streams = .ok free) : IsCut bound bounded free := by
  obtain ⟨hread, hnone⟩ := readHistories_eq_ok hbounded
  obtain ⟨hread', hnone'⟩ := readHistories_eq_ok hfree
  intro stream
  by_cases hmem : stream ∈ streams
  · obtain ⟨since, hsince, hsome⟩ := hread stream hmem
    obtain ⟨all, hall, hsome'⟩ := hread' stream hmem
    rw [hsome, hsome', Option.map_some,
      CandleFeed.candles_since (readHistory_ok hall) (readHistory_ok hsince)]
  · rw [hnone stream hmem, hnone' stream hmem]
    rfl

theorem IsCut.historyOf (h : IsCut bound bounded free) (stream : CandleStream) :
    historyOf bounded stream =
      (historyOf free stream).filter fun candle => bound ≤ candle.openTime := by
  unfold WarmUp.historyOf
  rw [h stream]
  cases free stream with
  | none => rfl
  | some history => rfl

end Reads

/-! ### Counting back from the start -/

section Cut

variable {store : MinuteStore} {config : HistoryConfig} {demands : List (CandleStream × ℕ)}
  {bound : ℤ} {bounded free : Histories} {stream : CandleStream} {spec : ResolvedSeriesSpec}

theorem closedPreload_cut (h : IsCut bound bounded free) (stream : CandleStream) :
    closedPreload config bounded stream =
      (closedPreload config free stream).filter fun candle => bound ≤ candle.openTime := by
  unfold closedPreload
  rw [h.historyOf, filter_comm]

/-- A stream that is not short has the bars declared for it. -/
theorem required_le_of_not_short (h : shortWarmups config demands bounded = [])
    (hstream : stream ∈ streamsOf demands) :
    required demands stream ≤ (closedPreload config bounded stream).length := by
  have hstreams : (streamsOf demands).filterMap (fun stream =>
      if (closedPreload config bounded stream).length < required demands stream then
        some (stream.1 ++ " " ++ stream.2.text, required demands stream,
          (closedPreload config bounded stream).length)
      else none) = [] := by
    unfold shortWarmups at h
    dsimp only at h
    cases hreference : config.referenceSymbol with
    | none =>
      rw [hreference] at h
      exact h
    | some reference =>
      rw [hreference] at h
      exact (List.append_eq_nil_iff.1 h).1
  rw [List.filterMap_eq_nil_iff] at hstreams
  have hnone := hstreams stream hstream
  by_contra hlt
  rw [if_pos (not_le.1 hlt)] at hnone
  cases hnone

/-- **The preloaded bars** do not see the floor. -/
theorem preload_eq_of_cut (hdemands : config.demands = .ok demands)
    (hcut : IsCut bound bounded free)
    (hordered : ∀ stream, IsHistory stream (historyOf free stream))
    (hnone : ∀ stream ∉ streamsOf demands, free stream = none)
    (hshort : shortWarmups config demands bounded = []) (stream : CandleStream) :
    lastOf (required demands stream) (closedPreload config bounded stream) =
      lastOf (required demands stream) (closedPreload config free stream) := by
  by_cases hmem : stream ∈ streamsOf demands
  · have hcount := required_le_of_not_short hshort hmem
    rw [closedPreload_cut hcut] at hcount ⊢
    exact lastOf_of_suffix (filter_suffix ((hordered stream).ordered.filter _))
      (required_pos hdemands hmem) hcount
  · have hempty : closedPreload config free stream = [] := by
      unfold closedPreload historyOf
      rw [hnone stream hmem]
      rfl
    rw [closedPreload_cut hcut, hempty]
    rfl

/-- The matched pairs above the floor. -/
theorem pairs_cut (hcut : IsCut bound bounded free)
    (hordered : ∀ stream, IsHistory stream (historyOf free stream)) :
    (setupOf config demands bounded).pairs spec =
      ((setupOf config demands free).pairs spec).filter fun pair => bound ≤ pair.1.openTime := by
  unfold SeriesSetup.pairs setupOf
  dsimp only
  rw [hcut.historyOf]
  cases config.referenceSymbol with
  | none =>
    have hempty : ∀ primary : List Candle, matchCandles primary [] = [] := by
      intro primary
      unfold matchCandles
      rw [List.filterMap_eq_nil_iff]
      intro candle _
      rfl
    dsimp only
    rw [hempty, hempty]
    rfl
  | some reference =>
    dsimp only
    rw [hcut.historyOf]
    refine matchCandles_cut (p := fun candle => decide (bound ≤ candle.openTime)) ?_
    -- the two legs of a pair share their timeframe, so they open together as well
    intro candle hcandle other hother hclose
    have htimeframe := (hordered _).timeframe candle hcandle
    have htimeframe' := (hordered _).timeframe other hother
    have hopen : other.openTime = candle.openTime := by
      have hspan := candle.closeTime_eq
      have hspan' := other.closeTime_eq
      rw [htimeframe] at hspan
      rw [htimeframe'] at hspan'
      dsimp only at hspan hspan'
      omega
    rw [hopen]

theorem checkPaired_eq_ok {setup : SeriesSetup} {specs : List ResolvedSeriesSpec}
    (h : checkPaired config setup specs = .ok ()) (hspec : spec ∈ specs) :
    spec.minHistory ≤
      ((setup.pairs spec).filter fun pair => pair.1.closeTime ≤ setup.start).length := by
  induction specs with
  | nil => cases hspec
  | cons first rest ih =>
    unfold checkPaired at h
    simp only [Except.bind_eq_ok, require_eq_ok] at h
    obtain ⟨-, hfirst, hrest⟩ := h
    rcases List.mem_cons.1 hspec with rfl | hspec
    · exact hfirst
    · exact ih hrest hspec

/-- **The warm-up pairs** do not see the floor. -/
theorem pairedPreload_eq_of_cut (hcut : IsCut bound bounded free)
    (hordered : ∀ stream, IsHistory stream (historyOf free stream)) (hspec : spec ∈ config.specs)
    (hreference : spec.needsReferenceSeries = true)
    (hpaired : checkPaired config (setupOf config demands bounded)
      (config.specs.filter (·.needsReferenceSeries)) = .ok ()) :
    (setupOf config demands bounded).pairedPreload spec =
      (setupOf config demands free).pairedPreload spec := by
  have hcount := checkPaired_eq_ok hpaired (List.mem_filter.2 ⟨hspec, hreference⟩)
  have hopen : ((setupOf config demands free).pairs spec).Pairwise fun left right =>
      left.1.openTime < right.1.openTime := by
    unfold SeriesSetup.pairs matchCandles
    refine (hordered _).ordered.filterMap _ ?_
    intro left right hlt pair hpair pair' hpair'
    rw [Option.map_eq_some_iff] at hpair hpair'
    obtain ⟨_, -, rfl⟩ := hpair
    obtain ⟨_, -, rfl⟩ := hpair'
    exact hlt
  have hstart : (setupOf config demands bounded).start = (setupOf config demands free).start := rfl
  unfold pairedPreload
  rw [pairs_cut hcut hordered, filter_comm] at hcount ⊢
  rw [hstart] at hcount ⊢
  exact lastOf_of_suffix
    (filter_suffix (f := fun pair : Candle × Candle => pair.1.openTime) (hopen.filter _))
    (config.specs_pos spec hspec) hcount

end Cut

/-! ### Seeding -/

section Seeding

variable {setup setup' : SeriesSetup} {board : SeriesBoard}

/-- A board with other read positions. -/
def repositioned (positions : Timeframe → ℕ) (pairedPositions : SeriesKey → ℕ)
    (board : SeriesBoard) : SeriesBoard :=
  { board with positions := positions, pairedPositions := pairedPositions }

variable (positions : Timeframe → ℕ) (pairedPositions : SeriesKey → ℕ)

theorem simulates_seed (spec : ResolvedSeriesSpec) (inputs : List SeriesInput) :
    Simulates (repositioned positions pairedPositions) (seed spec inputs) (seed spec inputs) := by
  intro s a s' h
  cases h
  rfl

theorem simulates_get {ρ : Type} (read : SeriesBoard → ρ)
    (body : ρ → Program Fault SeriesBoard PUnit)
    (hread : ∀ s, read (repositioned positions pairedPositions s) = read s)
    (hbody : ∀ r, Simulates (repositioned positions pairedPositions) (body r) (body r)) :
    Simulates (repositioned positions pairedPositions)
      (do let s ← get; body (read s)) (do let s ← get; body (read s)) := by
  intro s a s' h
  rw [get_bind_apply] at h ⊢
  rw [hread]
  exact hbody _ s a s' h

/-- Feeding a series reads no position. -/
theorem simulates_feed (spec : ResolvedSeriesSpec) (input : SeriesInput) :
    Simulates (repositioned positions pairedPositions) (feed spec input) (feed spec input) := by
  unfold feed
  refine Simulates.bind (fun s a s' h => by cases h; rfl) fun _ => ?_
  refine simulates_get positions pairedPositions (fun s => spec.compute (s.consumed spec.key))
    (fun value => do
      runPure (assertFiniteIndicator spec value)
      modify fun board => { board with
        values := Function.update board.values spec.key (some value)
        sources := Function.update board.sources spec.key (some input.1) })
    (fun _ => rfl) fun value => ?_
  refine Simulates.bind ?_ fun _ => fun s a s' h => by cases h; rfl
  intro s a s' h
  rw [runPure_eq_ok] at h ⊢
  obtain ⟨hvalue, rfl⟩ := h
  exact ⟨hvalue, rfl⟩

theorem simulates_preloadSeries (spec : ResolvedSeriesSpec) :
    Simulates (repositioned positions pairedPositions) (preloadSeries setup spec)
      (preloadSeries setup spec) := by
  have hcheck : Simulates (repositioned positions pairedPositions)
      (do let board ← get
          raiseUnless (spec.warmedUp (board.consumed spec.key))
            (Fault.valueError "indicator state did not warm up after required preload"))
      (do let board ← get
          raiseUnless (spec.warmedUp (board.consumed spec.key))
            (Fault.valueError "indicator state did not warm up after required preload")) := by
    refine simulates_get positions pairedPositions (fun s => spec.warmedUp (s.consumed spec.key))
      (fun warm => raiseUnless warm
        (.valueError "indicator state did not warm up after required preload"))
      (fun _ => rfl) fun warm => ?_
    intro s a s' h
    rw [raiseUnless_eq_ok] at h ⊢
    obtain ⟨hwarm, rfl⟩ := h
    exact ⟨hwarm, rfl⟩
  unfold preloadSeries
  dsimp only
  split
  · exact Simulates.bind (simulates_seed positions pairedPositions spec _) fun _ => hcheck
  · split
    · intro s a s' h
      cases h
    · exact Simulates.bind (simulates_seed positions pairedPositions spec _) fun _ =>
        Simulates.bind (simulates_feed positions pairedPositions spec _) fun _ => hcheck

/-- The warm-up reads no position. -/
theorem simulates_preload :
    Simulates (repositioned positions pairedPositions) (SeriesBoard.preload setup)
      (SeriesBoard.preload setup) :=
  simulates_forEach fun spec => simulates_preloadSeries positions pairedPositions spec

/-- A warm-up is determined by the inputs of each series. -/
theorem preload_congr (htimeframe : setup.timeframe = setup'.timeframe)
    (hspecs : setup.specs = setup'.specs)
    (hinputs : ∀ spec ∈ setup.specs, warmInputs setup spec = warmInputs setup' spec) :
    SeriesBoard.preload setup = SeriesBoard.preload setup' := by
  unfold SeriesBoard.preload
  rw [← hspecs]
  refine forEach_congr fun spec hspec => ?_
  have hsame := hinputs spec hspec
  unfold warmInputs at hsame
  unfold preloadSeries
  rw [hsame, htimeframe]

end Seeding

/-- The indicator states and values of the first bar are the same. -/
def SameSeeding (setup setup' : SeriesSetup) : Prop :=
  ∀ board, SeriesBoard.preload setup (initial setup) = .ok ⟨⟩ board →
    ∃ board', SeriesBoard.preload setup' (initial setup') = .ok ⟨⟩ board' ∧
      board'.consumed = board.consumed ∧ board'.values = board.values ∧
      board'.sources = board.sources

theorem sameSeeding_of_inputs {setup setup' : SeriesSetup}
    (htimeframe : setup.timeframe = setup'.timeframe) (hspecs : setup.specs = setup'.specs)
    (hinputs : ∀ spec ∈ setup.specs, warmInputs setup spec = warmInputs setup' spec) :
    SameSeeding setup setup' := by
  intro board h
  rw [preload_congr htimeframe hspecs hinputs] at h
  have hboard : initial setup' = repositioned (initial setup').positions
      (initial setup').pairedPositions (initial setup) := rfl
  refine ⟨repositioned (initial setup').positions (initial setup').pairedPositions board,
    ?_, rfl, rfl, rfl⟩
  rw [hboard]
  exact simulates_preload _ _ _ _ _ h

/-! ### The sources of the policy -/

section Sources

variable {store : MinuteStore} {config : HistoryConfig} {floor : Option ℤ} {limited : Bool}
  {histories histories' : Histories} {series : List (ℤ × Binary64)}

/-- No daily values are derived. -/
def NoDailyPolicy (config : HistoryConfig) : Prop :=
  ∀ policy ∈ config.policy, policy.id ≠ "turtle"

/-- A daily history that was read is not read again. -/
theorem turtleNFromDaily_of_read {days : List Candle} {period : ℤ}
    (h : histories (config.symbol, daily) = some days) :
    turtleNFromDaily store floor config histories period = turtleNSeries days period := by
  unfold turtleNFromDaily
  rw [h]
  rfl

/-- **The daily values** come from the daily history, under any floor. -/
theorem moneyManagementSources_eq_ok
    (hread : ∀ policy, config.policy = some policy → ∀ requirement ∈ policy.requiredIndicators,
      histories (config.symbol, requirement.timeframe.getD config.timeframe) ≠ none)
    (h : moneyManagementSources store config floor histories limited = .ok series)
    (hsame : NoDailyPolicy config ∨
      histories (config.symbol, daily) = histories' (config.symbol, daily)) :
    ∀ store' floor' limited', moneyManagementSources store' config floor' histories' limited' =
      .ok series := by
  intro store' floor' limited'
  unfold moneyManagementSources at h ⊢
  cases hpolicy : config.policy with
  | none =>
    rw [hpolicy] at h
    exact h
  | some policy =>
    rw [hpolicy] at h
    dsimp only at h ⊢
    by_cases hturtle : policy.id = "turtle"
    · rw [if_neg (by simpa using hturtle)] at h ⊢
      have hdays : histories (config.symbol, daily) = histories' (config.symbol, daily) :=
        hsame.resolve_left fun hnone => hnone policy hpolicy hturtle
      cases hfilter : policy.requiredIndicators.filter fun requirement =>
          requirement.name = "TURTLE_N" ∧ requirement.timeframe = some daily with
      | nil =>
        rw [hfilter] at h
        cases h
      | cons requirement others =>
        rw [hfilter] at h
        cases others with
        | cons _ _ => cases h
        | nil =>
          have hmem : requirement ∈ policy.requiredIndicators.filter fun requirement =>
              requirement.name = "TURTLE_N" ∧ requirement.timeframe = some daily := by
            rw [hfilter]
            exact List.mem_singleton.2 rfl
          rw [List.mem_filter, decide_eq_true_eq] at hmem
          have hdaily := hread policy hpolicy requirement hmem.1
          rw [hmem.2.2, Option.getD_some] at hdaily
          obtain ⟨days, hsome⟩ := Option.ne_none_iff_exists'.1 hdaily
          dsimp only at h ⊢
          cases hperiod : requirement.period with
          | none =>
            rw [hperiod] at h
            cases h
          | some period =>
            rw [hperiod] at h
            dsimp only at h ⊢
            rw [turtleNFromDaily_of_read hsome, turtleNFromDaily_of_read hsome] at h
            rw [turtleNFromDaily_of_read (hdays ▸ hsome),
              turtleNFromDaily_of_read (hdays ▸ hsome)]
            simp only [Except.bind_eq_ok] at h ⊢
            obtain ⟨values, hvalues, h⟩ := h
            refine ⟨values, hvalues, ?_⟩
            rw [hvalues] at h ⊢
            -- reading the same days again gives the same values
            rw [ite_self] at h ⊢
            exact h
    · rw [if_pos hturtle] at h ⊢
      exact h

end Sources

/-! ### Eleven stored days -/

section Days

/-- Prices around 100 that span two units, or one. -/
def pricesAround (wide : Bool) : PriceRange where
  «open» := Binary64.ofRat 100
  high := Binary64.ofRat (if wide then 101 else 201 / 2)
  low := Binary64.ofRat (if wide then 99 else 199 / 2)
  close := Binary64.ofRat 100
  open_pos := by decide +kernel
  low_pos := by cases wide <;> decide +kernel
  close_pos := by decide +kernel
  open_le_high := by cases wide <;> decide +kernel
  close_le_high := by cases wide <;> decide +kernel
  low_le_open := by cases wide <;> decide +kernel
  low_le_close := by cases wide <;> decide +kernel

/-- The prices of a day: the first two days are wide. -/
def pricesOfDay (day : ℕ) : PriceRange := pricesAround (day < 2)

/-- The minutes of a day. -/
def minutesPerDay : ℕ := 1440

/-- A stored minute. -/
def minuteCandle (index : ℕ) : Candle :=
  (pricesOfDay (index / minutesPerDay)).toCandle "BTC" Timeframe.oneMinute
    (index * Instant.minute)

/-- The minutes of eleven days. -/
def storedDays : MinuteStore := (List.range (11 * minutesPerDay)).map minuteCandle

/-- The candle of a day. -/
def dayCandle (day : ℕ) : Candle :=
  (pricesOfDay day).toCandle "BTC" daily (day * Instant.day)

/-- The end of the stored days. -/
def lastInstant : ℤ := 11 * Instant.day

/-- A range of prices repeated is the same range. -/
theorem append_self (prices : PriceRange) : prices.append prices = prices := by
  have hmax : ∀ x, PriceRange.maxOf x x = x := fun x => ite_self x
  have hmin : ∀ x, PriceRange.minOf x x = x := fun x => ite_self x
  unfold PriceRange.append
  simp only [hmax, hmin]

/-- A bucket of equal minutes has their prices. -/
theorem buildCandle_of_constant {symbol : String} {timeframe : Timeframe} {openTime : ℤ}
    {bucket : List Candle} {prices : PriceRange} (hne : bucket ≠ [])
    (h : ∀ minute ∈ bucket, PriceRange.ofCandle minute = prices) :
    buildCandle symbol timeframe openTime bucket =
      some (prices.toCandle symbol timeframe openTime) := by
  cases bucket with
  | nil => exact absurd rfl hne
  | cons first rest =>
    have hfold : rest.foldl (fun prices minute => prices.append (.ofCandle minute)) prices =
        prices := by
      have hrest : ∀ minute ∈ rest, PriceRange.ofCandle minute = prices :=
        fun minute hmem => h minute (List.mem_cons_of_mem _ hmem)
      clear h hne
      induction rest with
      | nil => rfl
      | cons minute rest ih =>
        rw [List.foldl_cons, hrest minute (List.mem_cons_self ..), append_self]
        exact ih fun m hm => hrest m (List.mem_cons_of_mem _ hm)
    unfold buildCandle
    dsimp only
    rw [h first (List.mem_cons_self ..), hfold]

/-- All stored minutes are read. -/
theorem sourceRows_storedDays :
    CandleFeed.sourceRows storedDays none "BTC" lastInstant = storedDays := by
  unfold CandleFeed.sourceRows
  rw [List.filter_eq_self]
  intro minute hmem
  obtain ⟨index, hindex, rfl⟩ := List.mem_map.1 hmem
  rw [List.mem_range] at hindex
  rw [decide_eq_true_eq]
  refine ⟨rfl, rfl, by simp, ?_⟩
  change (index : ℤ) * Instant.minute < lastInstant
  have : (index : ℤ) < 11 * 1440 := by exact_mod_cast hindex
  unfold lastInstant Instant.day Instant.hour Instant.minute Instant.second
  omega

theorem nodup_storedDays : (storedDays.map (·.openTime)).Nodup := by
  unfold storedDays
  rw [List.map_map]
  refine List.Nodup.map ?_ List.nodup_range
  intro i j h
  change (i : ℤ) * Instant.minute = j * Instant.minute at h
  have := mul_right_cancel₀ (by decide) h
  exact_mod_cast this

/-- Every read of the stored days succeeds. -/
theorem exists_candles (bound : Option ℤ) : ∃ result,
    CandleFeed.candles storedDays bound "BTC" daily lastInstant = .ok result := by
  have hnodup : ((CandleFeed.sourceRows storedDays bound "BTC" lastInstant).map
      (·.openTime)).Nodup :=
    nodup_storedDays.sublist (List.filter_sublist.map _)
  unfold CandleFeed.candles CandleFeed.resample
  rw [(require_eq_ok (u := ())).2 hnodup]
  cases ((CandleFeed.sourceRows storedDays bound "BTC" lastInstant).map fun row =>
      CandleFeed.bucketStart row.openTime daily.duration).min? with
  | none => exact ⟨_, rfl⟩
  | some first => exact ⟨_, rfl⟩

theorem minuteAt_storedDays {index : ℕ} (h : index < 11 * minutesPerDay) :
    minuteAt storedDays "BTC" (index * Instant.minute) = some (minuteCandle index) := by
  have hmem : minuteCandle index ∈ storedDays := List.mem_map_of_mem (List.mem_range.2 h)
  unfold minuteAt
  cases hfind : storedDays.find? fun minute => minute.symbol = "BTC" ∧
      minute.timeframe = Timeframe.oneMinute ∧ minute.openTime = index * Instant.minute with
  | none =>
    rw [List.find?_eq_none] at hfind
    have := hfind _ hmem
    rw [decide_eq_true_eq] at this
    exact absurd ⟨rfl, rfl, rfl⟩ this
  | some found =>
    have hfound := List.find?_some hfind
    rw [decide_eq_true_eq] at hfound
    obtain ⟨other, -, rfl⟩ := List.mem_map.1 (List.mem_of_find?_eq_some hfind)
    have hsame : (other : ℤ) * Instant.minute = index * Instant.minute := hfound.2.2
    have := mul_right_cancel₀ (by decide) hsame
    rw [show other = index by exact_mod_cast this]

/-- A minute of a day, counted from the epoch. -/
theorem minuteOfDay_eq (day k : ℕ) : (day : ℤ) * Instant.day + k * Instant.minute =
    ((day * 1440 + k : ℕ) : ℤ) * Instant.minute := by
  have : Instant.day = 1440 * Instant.minute := rfl
  rw [this]
  push_cast
  ring

/-- The stored minutes are on whole minutes. -/
theorem onMinutes_storedDays (day : ℕ) :
    OnMinutes storedDays "BTC" daily (day * Instant.day) := by
  rintro minute hmem ⟨-, -, hlow, hhigh⟩
  obtain ⟨index, -, rfl⟩ := List.mem_map.1 hmem
  change (day : ℤ) * Instant.day ≤ index * Instant.minute at hlow
  change (index : ℤ) * Instant.minute < day * Instant.day + Instant.day at hhigh
  have hday : Instant.day = 1440 * Instant.minute := rfl
  have hpos : 0 < Instant.minute := by decide
  have hfirst : (day : ℤ) * 1440 ≤ index := by
    refine le_of_mul_le_mul_right ?_ hpos
    calc (day : ℤ) * 1440 * Instant.minute = day * Instant.day := by rw [hday, mul_assoc]
      _ ≤ index * Instant.minute := hlow
  have hlast : (index : ℤ) < (day + 1) * 1440 := by
    refine lt_of_mul_lt_mul_right ?_ hpos.le
    calc (index : ℤ) * Instant.minute < day * Instant.day + Instant.day := hhigh
      _ = (day + 1) * 1440 * Instant.minute := by rw [hday]; ring
  refine CandleFeed.mem_bucketTimes.2 ⟨index - day * 1440, ?_, ?_⟩
  · change index - day * 1440 < 1440
    omega
  · rw [minuteOfDay_eq]
    congr 2
    omega

/-- The confirmed day. -/
theorem confirmed_storedDays {day : ℕ} (h : day < 11) :
    confirmedCandle storedDays "BTC" daily (day * Instant.day) = some (dayCandle day) := by
  have hmul : (day * Instant.day) % daily.duration = 0 :=
    Int.emod_eq_zero_of_dvd (Dvd.intro_left _ rfl)
  unfold confirmedCandle
  rw [if_pos ⟨hmul, onMinutes_storedDays day⟩]
  -- every minute of the day is stored, at the prices of the day
  have hminutes : (bucketTimes daily (day * Instant.day)).mapM (minuteAt storedDays "BTC") =
      some ((bucketTimes daily (day * Instant.day)).map fun time =>
        minuteCandle (time / Instant.minute).toNat) := by
    rw [CandleFeed.mapM_option_congr (g := fun time =>
      some (minuteCandle (time / Instant.minute).toNat)) ?_]
    · exact List.mapM_pure
    · intro time htime
      obtain ⟨k, hk, rfl⟩ := CandleFeed.mem_bucketTimes.1 htime
      have hk' : k < 1440 := hk
      have hindex : day * 1440 + k < 11 * minutesPerDay := by
        unfold minutesPerDay
        omega
      rw [minuteOfDay_eq, minuteAt_storedDays hindex, Int.mul_ediv_cancel _ (by decide),
        Int.toNat_natCast]
  rw [hminutes, Option.bind_some]
  refine buildCandle_of_constant ?_ ?_
  · intro hnil
    have := CandleFeed.mem_bucketTimes_self daily (day * Instant.day)
    rw [List.map_eq_nil_iff.1 hnil] at this
    cases this
  · intro minute hmem
    obtain ⟨time, htime, rfl⟩ := List.mem_map.1 hmem
    obtain ⟨k, hk, rfl⟩ := CandleFeed.mem_bucketTimes.1 htime
    have hk' : k < 1440 := hk
    have hquot : ((day * Instant.day + k * Instant.minute) / Instant.minute).toNat /
        minutesPerDay = day := by
      rw [minuteOfDay_eq, Int.mul_ediv_cancel _ (by decide), Int.toNat_natCast]
      unfold minutesPerDay
      omega
    change pricesOfDay _ = pricesOfDay day
    rw [hquot]

/-- **The stored days are read as eleven candles.** -/
theorem candles_storedDays : CandleFeed.candles storedDays none "BTC" daily lastInstant =
    .ok ((List.range 11).map dayCandle) := by
  obtain ⟨result, hresult⟩ := exists_candles none
  rw [hresult]
  have hirrefl : Std.Irrefl fun left right : Candle => left.openTime < right.openTime :=
    ⟨fun candle => lt_irrefl candle.openTime⟩
  -- both lists are in the order of their opens, so it is enough to compare members
  have hdays : ((List.range 11).map dayCandle).Pairwise fun left right =>
      left.openTime < right.openTime := by
    refine List.pairwise_map.2 (List.pairwise_lt_range.imp ?_)
    intro i j hij
    have hlt : (i : ℤ) < j := by exact_mod_cast hij
    exact mul_lt_mul_of_pos_right hlt (by decide)
  refine congrArg Except.ok ((CandleFeed.candles_ordered hresult).eq_of_mem_iff hdays ?_)
  intro candle
  rw [CandleFeed.mem_candles hresult, sourceRows_storedDays, List.mem_map]
  constructor
  · rintro ⟨hconfirmed, hclose⟩
    obtain ⟨hmul, row, hrow, hopen⟩ := CandleFeed.exists_row_of_confirmed hconfirmed
    obtain ⟨index, hindex, rfl⟩ := List.mem_map.1 hrow
    rw [List.mem_range] at hindex
    have hindex' : index < 11 * 1440 := hindex
    change (index : ℤ) * Instant.minute = candle.openTime at hopen
    have hday : daily.duration = 1440 * Instant.minute := by decide
    rw [← hopen, hday] at hmul
    have hmod : (index : ℤ) % 1440 = 0 := by
      unfold Instant.minute Instant.second at hmul
      omega
    -- a confirmed day opens at a multiple of 1440 minutes
    obtain ⟨day, rfl⟩ : ∃ day, index = day * 1440 := ⟨index / 1440, by omega⟩
    have hbound : day < 11 := by omega
    have htime : candle.openTime = day * Instant.day := by
      rw [← hopen]
      have : Instant.day = 1440 * Instant.minute := rfl
      rw [this]
      push_cast
      ring
    rw [htime, confirmed_storedDays hbound] at hconfirmed
    exact ⟨day, List.mem_range.2 hbound, by injection hconfirmed⟩
  · rintro ⟨day, hday, rfl⟩
    rw [List.mem_range] at hday
    refine ⟨confirmed_storedDays hday, ?_⟩
    change (day : ℤ) * Instant.day + daily.duration ≤ lastInstant
    have : (day : ℤ) ≤ 10 := by exact_mod_cast Nat.lt_succ_iff.1 hday
    have hduration : daily.duration = Instant.day := by decide
    rw [hduration]
    unfold lastInstant Instant.day Instant.hour Instant.minute Instant.second
    omega

/-- A floor keeps the days behind it. -/
theorem candles_storedDays_since (bound : ℤ) :
    CandleFeed.candles storedDays (some bound) "BTC" daily lastInstant =
      .ok (((List.range 11).map dayCandle).filter fun candle => bound ≤ candle.openTime) := by
  obtain ⟨result, hresult⟩ := exists_candles (some bound)
  rw [hresult, CandleFeed.candles_since candles_storedDays hresult]

/-- A daily run under the turtle policy, started after some of the stored days. -/
def turtleConfig (start : ℤ) : HistoryConfig where
  symbol := "BTC"
  referenceSymbol := none
  timeframe := daily
  start := start
  finish := lastInstant
  minHistory := 1
  specs := []
  policy := some ⟨"turtle", [⟨"TURTLE_N", some 2, some daily, 2, Nat.two_pos⟩]⟩
  minHistory_pos := Nat.one_pos
  specs_pos := by simp

/-- The streams of the run. -/
def turtleDemands : List (CandleStream × ℕ) := [(("BTC", daily), 1), (("BTC", daily), 2)]

/-- The histories of a run that reads the daily stream. -/
def dailyHistories (days : List Candle) : Histories := fun other =>
  if other = ("BTC", daily) then some days else none

theorem readHistories_daily {store : MinuteStore} {floor : Option ℤ} {days : List Candle}
    (h : CandleFeed.candles store floor "BTC" daily lastInstant = .ok days) :
    readHistories store floor lastInstant (streamsOf turtleDemands) =
      .ok (dailyHistories days) := by
  have hstreams : streamsOf turtleDemands = [("BTC", daily)] := by decide
  have hread : readHistory store floor lastInstant ("BTC", daily) = .ok days := by
    rw [readHistory_eq_candles]
    exact h
  rw [hstreams]
  unfold readHistories
  rw [hread]
  rfl

/-- The part of a preparation that follows the reads. -/
theorem exists_prepare {store : MinuteStore} {config : HistoryConfig}
    {demands : List (CandleStream × ℕ)} {histories : Histories} (limited : Bool)
    (test : Prepared → Bool) (hdemands : config.demands = .ok demands)
    (hread : readHistories store (if limited then some (floorOf config demands) else none)
      config.finish (streamsOf demands) = .ok histories)
    (henough : shortWarmups config demands histories = [])
    (h : returnsWith (do
      let setup := setupOf config demands histories
      checkPaired config setup (config.specs.filter (·.needsReferenceSeries))
      require (evaluation config histories ≠ [])
        (.valueError "evaluation period contains no confirmed candles")
      let turtleN ← moneyManagementSources store config
        (if limited then some (floorOf config demands) else none) histories limited
      return (⟨histories, fun stream => lastOf (required demands stream)
        (closedPreload config histories stream), setup, turtleN⟩ : Prepared)) test = true) :
    ∃ prepared, prepare store config limited = .ok prepared ∧ test prepared = true := by
  obtain ⟨prepared, hprepared, htest⟩ := exists_of_returnsWith h
  refine ⟨prepared, ?_, htest⟩
  -- enough history was read, so the bounded read is not released
  have hload : loadHistories store config demands limited =
      .ok (histories, if limited then some (floorOf config demands) else none) := by
    unfold loadHistories
    dsimp only
    rw [hread]
    change (if limited = true ∧ shortWarmups config demands histories ≠ [] then _ else _) = _
    rw [if_neg fun hshort => hshort.2 henough]
    change (require (shortWarmups config demands histories = []) _ >>= fun _ => _) = _
    rw [(require_eq_ok (u := ())).2 henough]
    rfl
  unfold prepare
  rw [hdemands]
  change (loadHistories store config demands limited >>= _) = _
  rw [hload]
  exact hprepared

end Days

/-! ### The two preparations -/

section Preparations

variable {store : MinuteStore} {config : HistoryConfig} {demands : List (CandleStream × ℕ)}
  {limited : Bool} {histories : Histories} {floor : Option ℤ} {bounded free : Prepared}

/-- **What both preparations derive**: the preloaded bars, the warm-up pairs, the indicator
states and values, and the volatility of every instant from the start on. -/
structure SameDerivation (config : HistoryConfig) (bounded free : Prepared) : Prop where
  preload : ∀ stream, bounded.preload stream = free.preload stream
  pairedPreload : ∀ spec ∈ config.specs, spec.needsReferenceSeries = true →
    bounded.setup.pairedPreload spec = free.setup.pairedPreload spec
  seeding : SameSeeding bounded.setup free.setup
  seeding' : SameSeeding free.setup bounded.setup
  turtleN : ∀ time, config.start ≤ time →
    latestN bounded.turtleN time = latestN free.turtleN time

/-- The bounded read cannot supply a warm-up, and is released. -/
def BoundedReadShort (store : MinuteStore) (config : HistoryConfig) : Prop :=
  ∀ demands histories, config.demands = .ok demands →
    readHistories store (some (floorOf config demands)) config.finish (streamsOf demands) =
      .ok histories → shortWarmups config demands histories ≠ []

/-- The floor lies before every stored day of the run's symbol. -/
def FloorKeepsDays (store : MinuteStore) (config : HistoryConfig) : Prop :=
  ∀ demands days, config.demands = .ok demands →
    CandleFeed.candles store none config.symbol daily config.finish = .ok days →
      ∀ day ∈ days, floorOf config demands ≤ day.openTime

/-- The reads without a floor. -/
theorem loadHistories_free (h : loadHistories store config demands false = .ok (histories, floor)) :
    readHistories store none config.finish (streamsOf demands) = .ok histories := by
  unfold loadHistories at h
  simp only [Except.bind_eq_ok, Bool.false_eq_true, if_false, false_and] at h
  obtain ⟨read, hread, _, hloaded, -, -, h⟩ := h
  cases hloaded
  cases h
  exact hread

/-- **The reads with a floor**: the cut histories when they are long enough, and the
histories read without a floor otherwise. -/
theorem loadHistories_limited
    (h : loadHistories store config demands true = .ok (histories, floor)) :
    (readHistories store (some (floorOf config demands)) config.finish (streamsOf demands) =
        .ok histories ∧ shortWarmups config demands histories = []) ∨
      readHistories store none config.finish (streamsOf demands) = .ok histories ∧
        ∃ short, readHistories store (some (floorOf config demands)) config.finish
          (streamsOf demands) = .ok short ∧ shortWarmups config demands short ≠ [] := by
  unfold loadHistories at h
  simp only [Except.bind_eq_ok, if_true, true_and] at h
  obtain ⟨read, hread, h⟩ := h
  by_cases hshort : shortWarmups config demands read = []
  · rw [if_neg (by simpa using hshort)] at h
    simp only [Except.bind_eq_ok, require_eq_ok] at h
    obtain ⟨_, hloaded, -, henough, h⟩ := h
    cases hloaded
    cases h
    exact .inl ⟨hread, henough⟩
  · rw [if_pos hshort] at h
    simp only [Except.bind_eq_ok, require_eq_ok] at h
    obtain ⟨again, hagain, _, hloaded, -, -, h⟩ := h
    cases hloaded
    cases h
    exact .inr ⟨hagain, read, hread, hshort⟩

/-- What a preparation is made of. -/
theorem prepare_eq_ok {prepared : Prepared} (h : prepare store config limited = .ok prepared) :
    ∃ demands floor, config.demands = .ok demands ∧
      loadHistories store config demands limited = .ok (prepared.histories, floor) ∧
      checkPaired config prepared.setup (config.specs.filter (·.needsReferenceSeries)) = .ok () ∧
      moneyManagementSources store config floor prepared.histories limited =
        .ok prepared.turtleN ∧
      prepared.setup = setupOf config demands prepared.histories ∧
      prepared.preload = fun stream => lastOf (required demands stream)
        (closedPreload config prepared.histories stream) := by
  unfold prepare at h
  simp only [Except.bind_eq_ok] at h
  obtain ⟨demands, hdemands, ⟨histories, floor⟩, hload, ⟨⟩, hpaired, -, -, turtleN, hturtle, h⟩ :=
    h
  cases h
  exact ⟨demands, floor, hdemands, hload, hpaired, hturtle, rfl, rfl⟩

/-- The two preparations of a run derive the same, when its policy takes no daily values, or
the bounded read is released, or the floor lies before the stored days. -/
theorem sameDerivation_of_floorKeepsDays
    (hfloor : NoDailyPolicy config ∨ BoundedReadShort store config ∨ FloorKeepsDays store config)
    (hbounded : prepare store config true = .ok bounded)
    (hfree : prepare store config false = .ok free) : SameDerivation config bounded free := by
  obtain ⟨demands, floor, hdemands, hload, hpaired, hturtle, hsetup, hpreload⟩ :=
    prepare_eq_ok hbounded
  obtain ⟨demands', floor', hdemands', hload', hpaired', hturtle', hsetup', hpreload'⟩ :=
    prepare_eq_ok hfree
  have heq : demands = demands' := by
    rw [hdemands] at hdemands'
    injection hdemands'
  subst heq
  have hread' := loadHistories_free hload'
  have hhistory := isHistory_historyOf hread'
  have hnone := (readHistories_eq_ok hread').2
  rw [hsetup] at hpaired
  rw [hsetup'] at hpaired'
  rcases loadHistories_limited hload with ⟨hread, henough⟩ | ⟨hread, short, hshort, hne⟩
  · -- the cut histories: counting back does not see the floor
    have hcut := isCut_of_readHistories hread hread'
    have hbars := preload_eq_of_cut hdemands hcut hhistory hnone henough
    have hpairs : ∀ spec ∈ config.specs, spec.needsReferenceSeries = true →
        (setupOf config demands bounded.histories).pairedPreload spec =
          (setupOf config demands free.histories).pairedPreload spec :=
      fun spec hspec hreference =>
        pairedPreload_eq_of_cut hcut hhistory hspec hreference hpaired
    have hinputs : ∀ spec ∈ config.specs,
        warmInputs (setupOf config demands bounded.histories) spec =
          warmInputs (setupOf config demands free.histories) spec := by
      intro spec hspec
      unfold warmInputs
      by_cases hreference : spec.needsReferenceSeries = true
      · rw [if_pos hreference, if_pos hreference, hpairs spec hspec hreference]
      · rw [if_neg hreference, if_neg hreference]
        exact congrArg _ (hbars (config.symbol, spec.timeframe))
    -- the daily history is read whole
    have hdays : NoDailyPolicy config ∨ free.histories (config.symbol, daily) =
        bounded.histories (config.symbol, daily) := by
      rcases hfloor with hfloor | hfloor | hfloor
      · exact .inl hfloor
      · exact absurd henough (hfloor demands _ hdemands hread)
      · refine .inr ?_
        rw [hcut]
        by_cases hmem : (config.symbol, daily) ∈ streamsOf demands
        · obtain ⟨days, hdays, hsome⟩ := (readHistories_eq_ok hread').1 _ hmem
          rw [hsome, Option.map_some]
          refine congrArg some (List.filter_eq_self.2 fun day hday => ?_).symm
          rw [decide_eq_true_eq]
          exact hfloor demands days hdemands (readHistory_ok hdays) day hday
        · rw [hnone _ hmem]
          rfl
    have hsame := moneyManagementSources_eq_ok (policy_stream_read hdemands hread')
      hturtle' hdays store floor true
    rw [hturtle] at hsame
    injection hsame with hsame
    refine ⟨?_, ?_, ?_, ?_, fun time _ => by rw [hsame]⟩
    · intro stream
      rw [hpreload, hpreload']
      exact hbars stream
    · rw [hsetup, hsetup']
      exact hpairs
    · rw [hsetup, hsetup']
      exact sameSeeding_of_inputs rfl rfl hinputs
    · rw [hsetup, hsetup']
      exact sameSeeding_of_inputs rfl rfl fun spec hspec => (hinputs spec hspec).symm
  · -- the released reads: both preparations have the same histories
    have heq : bounded.histories = free.histories := by
      rw [hread] at hread'
      injection hread'
    rw [heq] at hturtle hsetup hpreload
    have hsame := moneyManagementSources_eq_ok (policy_stream_read hdemands hread')
      hturtle' (.inr rfl) store floor true
    rw [hturtle] at hsame
    injection hsame with hsame
    have hsetups : bounded.setup = free.setup := hsetup.trans hsetup'.symm
    refine ⟨?_, ?_, ?_, ?_, fun time _ => by rw [hsame]⟩
    · rw [hpreload, hpreload']
      exact fun _ => rfl
    · rw [hsetups]
      exact fun _ _ _ => rfl
    · rw [hsetups]
      exact fun board h => ⟨board, h, rfl, rfl, rfl⟩
    · rw [hsetups]
      exact fun board h => ⟨board, h, rfl, rfl, rfl⟩

/-- On eleven stored days a run that starts after the eighth reads from the first day on, and
derives the same with and without the floor. -/
theorem sameDerivation_of_eight_days : ∃ bounded free,
    prepare storedDays (turtleConfig (8 * Instant.day)) true = .ok bounded ∧
      prepare storedDays (turtleConfig (8 * Instant.day)) false = .ok free ∧
      SameDerivation (turtleConfig (8 * Instant.day)) bounded free := by
  have hdemands : (turtleConfig (8 * Instant.day)).demands = .ok turtleDemands := rfl
  obtain ⟨bounded, hbounded, -⟩ := exists_prepare true (fun _ => true)
    hdemands (readHistories_daily (candles_storedDays_since _)) (by decide +kernel)
    (by decide +kernel)
  obtain ⟨free, hfree, -⟩ := exists_prepare false (fun _ => true)
    hdemands (readHistories_daily candles_storedDays) (by decide +kernel) (by decide +kernel)
  refine ⟨bounded, free, hbounded, hfree, ?_⟩
  refine sameDerivation_of_floorKeepsDays (.inr (.inr ?_)) hbounded hfree
  intro demands days hother hdays
  rw [hdemands] at hother
  injection hother with hother
  change CandleFeed.candles storedDays none "BTC" daily lastInstant = .ok days at hdays
  rw [candles_storedDays] at hdays
  injection hdays with hdays
  rw [← hother, ← hdays]
  decide +kernel

/-- **The floor is not an optimization only.** On eleven stored days, the first two wider than
the rest, a turtle run that starts after the tenth reads from the third day on. The bounded
recursion starts at a range of one; the unbounded one still carries the wide days. -/
theorem not_sameDerivation_of_ten_days : ∃ bounded free,
    prepare storedDays (turtleConfig (10 * Instant.day)) true = .ok bounded ∧
      prepare storedDays (turtleConfig (10 * Instant.day)) false = .ok free ∧
      ¬SameDerivation (turtleConfig (10 * Instant.day)) bounded free := by
  have hdemands : (turtleConfig (10 * Instant.day)).demands = .ok turtleDemands := rfl
  obtain ⟨bounded, hbounded, hn⟩ := exists_prepare true
    (fun prepared => decide (latestN prepared.turtleN (10 * Instant.day) =
      some (Binary64.ofRat 1)))
    hdemands (readHistories_daily (candles_storedDays_since _)) (by decide +kernel)
    (by decide +kernel)
  obtain ⟨free, hfree, hn'⟩ := exists_prepare false
    (fun prepared => decide (latestN prepared.turtleN (10 * Instant.day) =
      some (Binary64.ofRat (257 / 256))))
    hdemands (readHistories_daily candles_storedDays) (by decide +kernel) (by decide +kernel)
  refine ⟨bounded, free, hbounded, hfree, fun hsame => ?_⟩
  have heq := hsame.turtleN (10 * Instant.day) le_rfl
  rw [of_decide_eq_true hn, of_decide_eq_true hn'] at heq
  revert heq
  decide +kernel

end Preparations

end WarmUp
end TradingSystem
