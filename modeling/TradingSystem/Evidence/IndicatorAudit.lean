import TradingSystem.Engine.EquityCurve
import TradingSystem.Engine.Lookahead
import TradingSystem.Series.Sources

/-!
# The indicators of a finished run

The audit of a run compares the snapshots of each series with the bars of the equity table. The
snapshots of a series on the run's own timeframe must close with the bars, one by one; those of
another timeframe may be older, but not later, and never go back.

* `Shown` — what the snapshots of one series are after some bars.
* `indicatorFailures_of_finished` — when the audit of a run finds nothing.
-/

namespace TradingSystem

open Numeric Logic Engine

/-! ### The check -/

/-- The BACKTEST_RUN_LOCAL row, by the columns that the check of the indicators reads. -/
structure DeclaredRun where
  resolvedIndicators : List SeriesKey
  timeframe : Timeframe

/-- `_expected_indicator_keys`: the declared series whose names are registered. -/
def expectedIndicatorKeys (registered : String → Bool) (run? : Option DeclaredRun) :
    List SeriesKey :=
  match run? with
  | none => []
  | some run => run.resolvedIndicators.filter fun key => registered key.name

/-- `_indicator_timeframes`: of two declarations of a key the later counts. -/
def indicatorTimeframes (run : DeclaredRun) (key : SeriesKey) : Option Timeframe :=
  (run.resolvedIndicators.reverse.find? fun entry => entry = key).map (·.timeframe)

section Check

variable (text : SeriesKey → String)

/-- Keys in the order of their texts. -/
def sortedKeys (keys : List SeriesKey) : List SeriesKey :=
  keys.mergeSort fun key key' => decide (text key ≤ text key')

/-- The keys of a list that another one lacks, as the failure lists them. -/
def listedKeys (keys others : List SeriesKey) : String :=
  match sortedKeys text (keys.filter (· ∉ others)).dedup with
  | [] => "-"
  | missing => String.intercalate "," (missing.map text)

/-- `ORDER BY feature_ts, snapshot_seq`. -/
def featureOrder (row row' : IndicatorSnapshotRow) : Bool :=
  decide (epochMilliseconds row.candleCloseTime < epochMilliseconds row'.candleCloseTime ∨
    epochMilliseconds row.candleCloseTime = epochMilliseconds row'.candleCloseTime ∧
      row.snapshotSeq ≤ row'.snapshotSeq)

/-- The stored feature times of a series. -/
def featureTimes (key : SeriesKey) (rows : List IndicatorSnapshotRow) : List ℤ :=
  ((rows.filter fun row => row.indicatorKey = key).mergeSort featureOrder).map fun row =>
    epochMilliseconds row.candleCloseTime

/-- The feature times of a series against the bars. -/
def featureTimesValid (execution timeframe : Timeframe) (actual grid : List ℤ) : Bool :=
  if timeframe = execution then decide (actual = grid)
  else decide (actual.length = grid.length ∧ (∀ pair ∈ actual.zip grid, pair.1 ≤ pair.2) ∧
    ∀ pair ∈ actual.zip actual.tail, pair.1 ≤ pair.2)

/-- The failures of some keys. -/
def gridMismatches (run : DeclaredRun) (rows : List IndicatorSnapshotRow) (grid : List ℤ) :
    List SeriesKey → Except Fault (List String)
  | [] => .ok []
  | key :: keys => do
    let actual := featureTimes key rows
    match indicatorTimeframes run key with
    | none => .error (.keyError (text key))
    | some timeframe =>
      let rest ← gridMismatches run rows grid keys
      if featureTimesValid run.timeframe timeframe actual grid then return rest
      else return ("indicator_grid_mismatch:" ++ text key ++ ":expected=" ++ toString grid.length ++
        ":actual=" ++ toString actual.length) :: rest

def indicatorFailures (registered : String → Bool) (run? : Option DeclaredRun)
    (definitions : List SeriesKey) (rows : List IndicatorSnapshotRow)
    (portfolio : List PortfolioRow) : Except Fault (List String) :=
  let keys := sortedKeys text definitions
  let expected := expectedIndicatorKeys registered run?
  if sortedKeys text expected ≠ sortedKeys text keys then
    .ok ["indicator_definition_mismatch:missing=" ++ listedKeys text expected keys ++
      ":extra=" ++ listedKeys text keys expected]
  else if keys = [] then .ok []
  else
    match run? with
    | none => .error (.typeError "NoneType object is not subscriptable")
    | some run => gridMismatches text run rows (portfolioBarGrid portfolio) keys

theorem mem_sortedKeys {keys : List SeriesKey} {key : SeriesKey} :
    key ∈ sortedKeys text keys ↔ key ∈ keys := List.mem_mergeSort

theorem sortedKeys_sortedKeys (keys : List SeriesKey) :
    sortedKeys text (sortedKeys text keys) = sortedKeys text keys := by
  unfold sortedKeys
  refine List.mergeSort_of_pairwise (List.pairwise_mergeSort ?_ ?_ keys)
  · intro a b c hab hbc
    rw [decide_eq_true_eq] at hab hbc ⊢
    exact String.le_trans hab hbc
  · intro a b
    rw [Bool.or_eq_true, decide_eq_true_eq, decide_eq_true_eq]
    exact String.le_total _ _

/-- No failure: every key is declared and its times are valid. -/
theorem gridMismatches_eq_nil {run : DeclaredRun} {rows : List IndicatorSnapshotRow}
    {grid : List ℤ} {keys : List SeriesKey}
    (hdeclared : ∀ key ∈ keys, indicatorTimeframes run key = some key.timeframe) :
    gridMismatches text run rows grid keys = .ok [] ↔ ∀ key ∈ keys,
      featureTimesValid run.timeframe key.timeframe (featureTimes key rows) grid = true := by
  -- the keys that follow may only fail, never raise
  suffices hboth : ∃ failures, gridMismatches text run rows grid keys = .ok failures ∧
      (failures = [] ↔ ∀ key ∈ keys,
        featureTimesValid run.timeframe key.timeframe (featureTimes key rows) grid = true) by
    obtain ⟨failures, hrun, hiff⟩ := hboth
    rw [hrun, Except.ok.injEq]
    exact hiff
  induction keys with
  | nil => exact ⟨[], rfl, by simp⟩
  | cons key keys ih =>
    rw [List.forall_mem_cons] at hdeclared
    obtain ⟨failures, hrun, hiff⟩ := ih hdeclared.2
    unfold gridMismatches
    rw [hdeclared.1]
    dsimp only
    rw [hrun]
    rw [List.forall_mem_cons]
    by_cases hvalid : featureTimesValid run.timeframe key.timeframe (featureTimes key rows) grid =
        true
    · refine ⟨failures, if_pos hvalid, ?_⟩
      rw [hiff]
      exact ⟨fun h => ⟨hvalid, h⟩, fun h => h.2⟩
    · refine ⟨_, if_neg hvalid, fun h => ?_, fun h => absurd h.1 hvalid⟩
      cases h

end Check

/-! ### The snapshots of a bar -/

/-- The closes a series was recorded with. -/
def recordedCloses (key : SeriesKey) (rows : List IndicatorSnapshotRow) : List ℤ :=
  (rows.filter fun row => row.indicatorKey = key).map (·.candleCloseTime)

theorem recordedCloses_append {key : SeriesKey} {rows later : List IndicatorSnapshotRow} :
    recordedCloses key (rows ++ later) = recordedCloses key rows ++ recordedCloses key later := by
  unfold recordedCloses
  rw [List.filter_append, List.map_append]

namespace Engine

variable {setup : SeriesSetup} {spec : ResolvedSeriesSpec} {specs : List ResolvedSeriesSpec}
  {track track' : IndicatorTrack} {candle : Candle} {bars : List Candle} {time : ℤ}

/-- A row with the source of a series. -/
def FromSource (board : SeriesBoard) (spec : ResolvedSeriesSpec) (row : IndicatorSnapshotRow) :
    Prop :=
  row.indicatorKey = spec.key ∧
    ∃ source, board.sources spec.key = some source ∧ row.candleCloseTime = source.closeTime

/-- Recording adds a row for each series. -/
theorem trackSnapshots_eq_ok (h : forEach specs trackSnapshot track = .ok ⟨⟩ track') :
    track'.board = track.board ∧ ∃ rows, track'.snapshots = track.snapshots ++ rows ∧
      List.Forall₂ (FromSource track.board) specs rows := by
  induction specs generalizing track with
  | nil =>
    cases h
    exact ⟨rfl, [], (List.append_nil _).symm, .nil⟩
  | cons spec specs ih =>
    rw [forEach_cons, bind_eq_ok] at h
    obtain ⟨_, track₁, hfirst, hrest⟩ := h
    unfold trackSnapshot onBoard at hfirst
    simp only [bind_eq_ok, zoom_eq_ok, modify_apply, EStateM.Result.ok.injEq] at hfirst
    obtain ⟨published, _, ⟨board, hpublished, rfl⟩, -, rfl⟩ := hfirst
    obtain ⟨rfl, -, hsource⟩ := published_eq_ok hpublished
    obtain ⟨hboard, rows, hsnapshots, hrows⟩ := ih hrest
    let row : IndicatorSnapshotRow :=
      ⟨track.snapshotSeq + 1, spec.key, published.2.openTime, published.2.closeTime, published.1⟩
    have hrow : FromSource track.board spec row := ⟨rfl, published.2, hsource, rfl⟩
    refine ⟨hboard, row :: rows, ?_, .cons hrow hrows⟩
    rw [hsnapshots]
    exact List.append_assoc _ [row] _

/-- Of the rows of a bar one is that of the series. -/
theorem recordedCloses_bar {board : SeriesBoard} {rows : List IndicatorSnapshotRow}
    (hnodup : (specs.map (·.key)).Nodup) (hrows : List.Forall₂ (FromSource board) specs rows) :
    (∀ spec ∈ specs, ∃ source, board.sources spec.key = some source ∧
      recordedCloses spec.key rows = [source.closeTime]) ∧
      ∀ key, key ∉ specs.map (·.key) → recordedCloses key rows = [] := by
  induction hrows with
  | nil => exact ⟨fun _ hspec => absurd hspec List.not_mem_nil, fun _ _ => rfl⟩
  | @cons first row specs rows hfirst hrest ih =>
    rw [List.map_cons, List.nodup_cons] at hnodup
    obtain ⟨hown, hother⟩ := ih hnodup.2
    obtain ⟨hkey, source, hsource, hclose⟩ := hfirst
    refine ⟨fun spec hspec => ?_, fun key hnot => ?_⟩
    · unfold recordedCloses
      rcases List.mem_cons.1 hspec with rfl | hspec
      · refine ⟨source, hsource, ?_⟩
        rw [List.filter_cons_of_pos (by simpa using hkey), List.map_cons, hclose]
        exact congrArg (_ :: ·) (hother _ hnodup.1)
      · -- the first row has another key
        have hne : row.indicatorKey ≠ spec.key := by
          rw [hkey]
          intro heq
          exact hnodup.1 (heq ▸ List.mem_map_of_mem hspec)
        rw [List.filter_cons_of_neg (by simpa using hne)]
        exact hown spec hspec
    · rw [List.map_cons, List.mem_cons, not_or] at hnot
      unfold recordedCloses
      rw [List.filter_cons_of_neg (by simpa [hkey] using Ne.symm hnot.1)]
      exact hother key hnot.2

/-! ### The snapshots of a run -/

/-- The bars at which a series has its candle: all of them, unless it needs a reference that
lacks one. -/
def HasReferences (setup : SeriesSetup) (spec : ResolvedSeriesSpec) (bars : List Candle) : Prop :=
  spec.needsReferenceSeries = true → ∀ bar ∈ bars,
    ∃ other ∈ setup.references setup.timeframe, other.closeTime = bar.closeTime

theorem hasReferences_append : HasReferences setup spec (bars ++ [candle]) ↔
    HasReferences setup spec bars ∧ (spec.needsReferenceSeries = true →
      ∃ other ∈ setup.references setup.timeframe, other.closeTime = candle.closeTime) := by
  unfold HasReferences
  constructor
  · intro h
    exact ⟨fun hreference bar hbar => h hreference bar (List.mem_append_left _ hbar),
      fun hreference => h hreference candle (List.mem_append_right _ (List.mem_singleton_self _))⟩
  · rintro ⟨hbars, hlast⟩ hreference bar hbar
    rcases List.mem_append.1 hbar with hbar | hbar
    · exact hbars hreference bar hbar
    · rw [List.mem_singleton.1 hbar]
      exact hlast hreference

/-- **The snapshots of one series** after some bars: one for each bar, not later than it and not
earlier than the ones before. On the run's own timeframe they close with the bars where the
reference of the series allows it, and only there. -/
structure Shown (setup : SeriesSetup) (bars : List Candle) (track : IndicatorTrack)
    (spec : ResolvedSeriesSpec) : Prop where
  past : List.Forall₂ (· ≤ ·) (recordedCloses spec.key track.snapshots) (bars.map (·.closeTime))
  ordered : (recordedCloses spec.key track.snapshots).Pairwise (· ≤ ·)
  consumed : ∀ close ∈ recordedCloses spec.key track.snapshots,
    ∃ input ∈ track.board.consumed spec.key, input.1.closeTime = close
  exact : spec.timeframe = setup.timeframe →
    (recordedCloses spec.key track.snapshots = bars.map (·.closeTime) ↔
      HasReferences setup spec bars)

/-- **One bar.** -/
theorem shown_bar (hordered : setup.Ordered) (hkeys : SeriesBoard.KeysDistinct setup)
    (hcurrent : SeriesBoard.Current setup time track.board) (hlater : time < candle.closeTime)
    (hcandle : candle ∈ setup.histories setup.timeframe)
    (hshown : ∀ spec ∈ setup.specs, Shown setup bars track spec)
    (h : trackBar setup candle track = .ok ⟨⟩ track') :
    SeriesBoard.Current setup candle.closeTime track'.board ∧
      ∀ spec ∈ setup.specs, Shown setup (bars ++ [candle]) track' spec := by
  unfold trackBar onBoard at h
  simp only [bind_eq_ok, zoom_eq_ok] at h
  obtain ⟨_, _, ⟨board, hadvance, rfl⟩, hsnapshots⟩ := h
  obtain ⟨hboard, rows, hrecorded, hrows⟩ := trackSnapshots_eq_ok hsnapshots
  change track'.board = board at hboard
  change track'.snapshots = track.snapshots ++ rows at hrecorded
  have hnext := hcurrent.advance hordered hkeys hlater hadvance
  rw [hboard]
  refine ⟨hnext, fun spec hspec => ?_⟩
  obtain ⟨source, hsource, hrow⟩ := (recordedCloses_bar hkeys hrows).1 spec hspec
  change board.sources spec.key = some source at hsource
  have hcloses : recordedCloses spec.key track'.snapshots =
      recordedCloses spec.key track.snapshots ++ [source.closeTime] := by
    rw [hrecorded, recordedCloses_append, hrow]
  -- what the series had consumed it has consumed still
  have hkept : ∀ input ∈ track.board.consumed spec.key, input ∈ board.consumed spec.key := by
    intro input hinput
    rw [(SeriesBoard.consumed_advance hkeys hadvance).consumed spec hspec]
    exact List.mem_append_left _ hinput
  obtain ⟨hpast, hincreasing, hconsumed, hexact⟩ := hshown spec hspec
  constructor
  · rw [hcloses, List.map_append]
    exact List.rel_append hpast (.cons (hnext.source_le hspec hsource) .nil)
  · rw [hcloses, List.pairwise_append]
    refine ⟨hincreasing, List.pairwise_singleton _ _, fun close hclose other hother => ?_⟩
    obtain ⟨input, hinput, rfl⟩ := hconsumed close hclose
    rw [List.mem_singleton.1 hother]
    exact hnext.le_source hspec hsource (hkept input hinput)
  · intro close hclose
    rw [hcloses, List.mem_append, List.mem_singleton] at hclose
    rw [hboard]
    rcases hclose with hclose | rfl
    · obtain ⟨input, hinput, heq⟩ := hconsumed close hclose
      exact ⟨input, hkept input hinput, heq⟩
    · obtain ⟨partner, hmem⟩ := hnext.source_mem hsource
      exact ⟨_, hmem, rfl⟩
  · intro hexecution
    have hclose := hcurrent.closeTime_source hordered hkeys hlater hadvance hspec hexecution hcandle
      hsource
    rw [hcloses, List.map_append, hasReferences_append, ← hexact hexecution, ← hclose]
    constructor
    · intro hequal
      obtain ⟨hbars, hlast⟩ := List.append_inj' hequal rfl
      exact ⟨hbars, (List.cons.inj hlast).1⟩
    · rintro ⟨hbars, hlast⟩
      rw [hbars, hlast]
      rfl

/-- **The bars of a run**, one after the other. -/
theorem shown_bars (hordered : setup.Ordered) (hkeys : SeriesBoard.KeysDistinct setup)
    {later : List Candle} (hcurrent : SeriesBoard.Current setup time track.board)
    (hshown : ∀ spec ∈ setup.specs, Shown setup bars track spec) (hbars : ByClose later)
    (hlater : ∀ bar ∈ later, time < bar.closeTime)
    (hhistory : ∀ bar ∈ later, bar ∈ setup.histories setup.timeframe)
    (h : forEach later (trackBar setup) track = .ok ⟨⟩ track') :
    (∀ spec ∈ setup.specs, Shown setup (bars ++ later) track' spec) ∧
      ∃ time', SeriesBoard.Current setup time' track'.board := by
  induction later generalizing time track bars with
  | nil =>
    cases h
    rw [List.append_nil]
    exact ⟨hshown, time, hcurrent⟩
  | cons bar later ih =>
    unfold ByClose at hbars
    rw [List.pairwise_cons] at hbars
    rw [forEach_cons, bind_eq_ok] at h
    obtain ⟨_, track₁, hbar, hrest⟩ := h
    obtain ⟨hcurrent₁, hshown₁⟩ := shown_bar hordered hkeys hcurrent
      (hlater bar (List.mem_cons_self ..)) (hhistory bar (List.mem_cons_self ..)) hshown hbar
    rw [List.append_cons]
    exact ih hcurrent₁ hshown₁ hbars.2 hbars.1
      (fun next hnext => hhistory next (List.mem_cons_of_mem _ hnext)) hrest

/-! ### Stored times -/

/-- Whole seconds can be told apart when they are stored. -/
theorem map_epochMilliseconds_inj {times times' : List ℤ}
    (hwhole : ∀ t ∈ times, ∃ seconds, WholeSecond t seconds)
    (hwhole' : ∀ t ∈ times', ∃ seconds, WholeSecond t seconds)
    (h : times.map epochMilliseconds = times'.map epochMilliseconds) : times = times' := by
  have hback : ∀ {values : List ℤ}, (∀ t ∈ values, ∃ seconds, WholeSecond t seconds) →
      (values.map epochMilliseconds).map (· * 1000) = values := by
    intro values hvalues
    rw [List.map_map]
    exact (List.map_congr_left fun t ht => (instant_eq_of_second (hvalues t ht)).symm).trans
      (List.map_id _)
  rw [← hback hwhole, h, hback hwhole']

/-- Closes that never go back are read in the order they were recorded. -/
theorem featureTimes_eq {key : SeriesKey} {rows : List IndicatorSnapshotRow}
    (h : (recordedCloses key rows).Pairwise (· ≤ ·)) :
    featureTimes key rows = (recordedCloses key rows).map epochMilliseconds := by
  unfold featureTimes
  unfold recordedCloses at h ⊢
  rw [List.map_map]
  -- two sorted lists of the same times
  refine List.Perm.eq_of_pairwise' (r := (· ≤ ·)) ?_ ?_ ((List.mergeSort_perm _ _).map _)
  · rw [List.pairwise_map]
    refine (List.pairwise_mergeSort ?_ ?_ _).imp fun {row row'} hle => ?_
    · intro row row' row'' hle hle'
      unfold featureOrder at hle hle' ⊢
      rw [decide_eq_true_eq] at hle hle' ⊢
      omega
    · intro row row'
      unfold featureOrder
      rw [Bool.or_eq_true, decide_eq_true_eq, decide_eq_true_eq]
      omega
    · unfold featureOrder at hle
      rw [decide_eq_true_eq] at hle
      omega
  · rw [List.pairwise_map] at h ⊢
    exact h.imp fun hle => epochMilliseconds_mono hle

theorem le_of_mem_zip_tail {times : List ℤ} (h : times.Pairwise (· ≤ ·)) :
    ∀ pair ∈ times.zip times.tail, pair.1 ≤ pair.2 := by
  intro pair hpair
  induction times with
  | nil => cases hpair
  | cons first times ih =>
    rw [List.pairwise_cons] at h
    cases times with
    | nil => cases hpair
    | cons second times =>
      rcases List.mem_cons.1 hpair with rfl | hpair
      · exact h.1 second (List.mem_cons_self ..)
      · exact ih h.2 hpair

/-- A series has one time for each bar. -/
theorem length_featureTimes (hshown : Shown setup bars track spec) :
    (featureTimes spec.key track.snapshots).length = bars.length := by
  rw [featureTimes_eq hshown.ordered, List.length_map, hshown.past.length_eq, List.length_map]

/-- Times that pass the check are as many as the bars. -/
theorem length_eq_of_featureTimesValid {execution timeframe : Timeframe} {actual grid : List ℤ}
    (h : featureTimesValid execution timeframe actual grid = true) :
    actual.length = grid.length := by
  unfold featureTimesValid at h
  split at h
  · rw [of_decide_eq_true h]
  · exact (of_decide_eq_true h).1

/-- **The times of one series** pass the check when its reference allows it. -/
theorem featureTimesValid_iff (hshown : Shown setup bars track spec)
    (hcurrent : SeriesBoard.Current setup time track.board) (hspec : spec ∈ setup.specs)
    (hwhole : ∀ other ∈ setup.histories setup.timeframe,
      ∃ seconds, WholeSecond other.closeTime seconds)
    (hbars : ∀ bar ∈ bars, ∃ seconds, WholeSecond bar.closeTime seconds) :
    featureTimesValid setup.timeframe spec.timeframe (featureTimes spec.key track.snapshots)
        (bars.map fun bar => epochMilliseconds bar.closeTime) = true ↔
      (spec.timeframe = setup.timeframe → HasReferences setup spec bars) := by
  have hgrid : (bars.map fun bar => epochMilliseconds bar.closeTime) =
      (bars.map (·.closeTime)).map epochMilliseconds := by
    rw [List.map_map]
    rfl
  rw [featureTimes_eq hshown.ordered, hgrid]
  unfold featureTimesValid
  by_cases hexecution : spec.timeframe = setup.timeframe
  · rw [if_pos hexecution, decide_eq_true_eq, ← hshown.exact hexecution]
    refine ⟨fun hstored _ => ?_, fun hequal => by rw [hequal hexecution]⟩
    by_cases hreference : spec.needsReferenceSeries = true
    · refine map_epochMilliseconds_inj (fun close hclose => ?_) (fun close hclose => ?_) hstored
      · -- what a paired series consumes are candles of its history
        obtain ⟨input, hinput, rfl⟩ := hshown.consumed close hclose
        obtain ⟨pair, hpair, hsame⟩ := hcurrent.fromPairs spec hspec hreference input hinput
        rw [← hsame]
        refine hwhole _ ?_
        rw [← hexecution]
        exact (SeriesBoard.mem_matchCandles.1 hpair).1
      · obtain ⟨bar, hbar, rfl⟩ := List.mem_map.1 hclose
        exact hbars bar hbar
    · exact (hshown.exact hexecution).2 fun htrue => absurd htrue hreference
  · rw [if_neg hexecution, decide_eq_true_eq]
    refine ⟨fun _ hequal => absurd hequal hexecution, fun _ => ⟨?_, ?_, ?_⟩⟩
    · rw [List.length_map, List.length_map, hshown.past.length_eq]
    · have hstored : List.Forall₂ (· ≤ ·)
          ((recordedCloses spec.key track.snapshots).map epochMilliseconds)
          ((bars.map (·.closeTime)).map epochMilliseconds) :=
        List.forall₂_map_left_iff.2 (List.forall₂_map_right_iff.2
          (hshown.past.imp fun _ _ hle => epochMilliseconds_mono hle))
      intro pair hpair
      exact (List.forall₂_iff_zip.1 hstored).2 hpair
    · refine le_of_mem_zip_tail (List.pairwise_map.2 ?_)
      exact hshown.ordered.imp fun hle => epochMilliseconds_mono hle

/-! ### The audit of a finished run -/

variable {input : RunInput} {reference : Option String} {feed : HistoryFeed} {state : RunState}

/-- `_daily_policy_indicator_evidence`: what a policy requires on the daily timeframe. -/
def dailyPolicyIndicatorEvidence (requirements : List SeriesKey) : List SeriesKey :=
  requirements.filter fun requirement => requirement.timeframe = ⟨1, .days, Nat.one_pos⟩

/-- What the local row of a run declares: its series, and those a policy requires. -/
def declaredRun (input : RunInput) (requirements : List SeriesKey) : DeclaredRun where
  resolvedIndicators :=
    input.series.specs.map (·.key) ++ dailyPolicyIndicatorEvidence requirements
  timeframe := input.config.timeframe

theorem shown_of_finished (h : ReadsFrom input reference feed)
    (hreach : (system input).Reachable state) (hfinished : state.1 = .finished) :
    (∀ spec ∈ input.series.specs, Shown input.series input.evaluation (trackOf state.2) spec) ∧
      ∃ time, SeriesBoard.Current input.series time (trackOf state.2).board := by
  obtain ⟨done, hdone, hrun⟩ := tracked_of_reachable hreach
  rw [hfinished] at hdone
  obtain rfl : done = input.evaluation := hdone
  -- the boards of the run are those of a warm-up and one round for each bar
  unfold trackRun onBoard at hrun
  simp only [bind_eq_ok, zoom_eq_ok] at hrun
  obtain ⟨_, _, ⟨board, hwarm, rfl⟩, hbars⟩ := hrun
  have hcurrent := SeriesBoard.current_preload h.ordered h.keys hwarm
  -- before the first bar nothing has been shown
  have hempty : ∀ spec ∈ input.series.specs, Shown input.series []
      { initialTrack input.series with board := board } spec := by
    intro spec _
    exact ⟨.nil, .nil, fun _ hclose => absurd hclose List.not_mem_nil,
      fun _ => ⟨fun _ _ _ hbar => absurd hbar List.not_mem_nil, fun _ => rfl⟩⟩
  refine shown_bars h.ordered h.keys hcurrent hempty evaluation_byClose ?_ ?_ hbars
  · intro bar hbar
    have hopen := (mem_evaluation.1 hbar).2.1
    have hclose := bar.openTime_lt_closeTime
    rw [h.start]
    omega
  · intro bar hbar
    rw [h.histories, h.timeframe, ← h.history]
    exact (mem_evaluation.1 hbar).1

/-- **The audit of the indicators.** In a finished run, whose candles close on whole seconds, it
finds nothing exactly when there is no series, or the last row is stored a millisecond after the
last close and each paired series on the run's own timeframe has a reference candle at every
bar. -/
theorem indicatorFailures_of_finished (text : SeriesKey → String) {registered : String → Bool}
    {requirements : List SeriesKey} (h : ReadsFrom input reference feed)
    (hregistered : ∀ spec ∈ input.series.specs, registered spec.name = true)
    (hpolicy : ∀ key ∈ dailyPolicyIndicatorEvidence requirements, registered key.name = false)
    (hseconds : ∀ candle ∈ input.history, ∃ seconds, WholeSecond candle.closeTime seconds)
    (hreach : (system input).Reachable state) (hfinished : state.1 = .finished) :
    indicatorFailures text registered (some (declaredRun input requirements))
        (definitionKeys state.2.records) (snapshotsOf state.2)
        (portfolioRows state.2.records) = .ok [] ↔
      ∀ spec ∈ input.series.specs, TerminalStored input ∧
        (spec.timeframe = input.config.timeframe →
          HasReferences input.series spec input.evaluation) := by
  obtain ⟨hshown, time, hcurrent⟩ := shown_of_finished h hreach hfinished
  have hgridded := gridded_of_reachable hreach
  have hexpected : expectedIndicatorKeys registered (some (declaredRun input requirements)) =
      input.series.specs.map (·.key) := by
    unfold expectedIndicatorKeys declaredRun
    dsimp only
    rw [List.filter_append, List.filter_eq_self.2, List.filter_eq_nil_iff.2, List.append_nil]
    · intro key hkey
      rw [hpolicy key hkey]
      exact Bool.false_ne_true
    · intro key hkey
      obtain ⟨spec, hspec, rfl⟩ := List.mem_map.1 hkey
      exact hregistered spec hspec
  have hdeclared : ∀ key ∈ sortedKeys text (input.series.specs.map (·.key)),
      indicatorTimeframes (declaredRun input requirements) key = some key.timeframe := by
    intro key hkey
    rw [mem_sortedKeys] at hkey
    have hmem : key ∈ (declaredRun input requirements).resolvedIndicators.reverse :=
      List.mem_reverse.2 (List.mem_append_left _ hkey)
    unfold indicatorTimeframes
    cases hfind : (declaredRun input requirements).resolvedIndicators.reverse.find?
        fun entry => entry = key with
    | none =>
      rw [List.find?_eq_none] at hfind
      exact absurd (decide_eq_true rfl) (hfind key hmem)
    | some entry =>
      have heq := List.find?_some hfind
      rw [decide_eq_true_eq] at heq
      rw [heq]
      rfl
  unfold indicatorFailures
  dsimp only
  rw [hgridded.defined, hexpected, if_neg (not_not.2 (sortedKeys_sortedKeys text _).symm)]
  by_cases hempty : sortedKeys text (input.series.specs.map (·.key)) = []
  · -- without a series there is nothing to check
    rw [if_pos hempty]
    refine ⟨fun _ spec hspec => ?_, fun _ => rfl⟩
    have hmem := (mem_sortedKeys text).2 (List.mem_map_of_mem (f := (·.key)) hspec)
    rw [hempty] at hmem
    cases hmem
  · rw [if_neg hempty, gridMismatches_eq_nil text hdeclared]
    -- the check of each key is that of its series
    have hvalid : ∀ spec ∈ input.series.specs,
        (featureTimesValid input.config.timeframe spec.timeframe
          (featureTimes spec.key (snapshotsOf state.2))
          (portfolioBarGrid (portfolioRows state.2.records)) = true ↔
        TerminalStored input ∧ (spec.timeframe = input.config.timeframe →
          HasReferences input.series spec input.evaluation)) := by
      intro spec hspec
      by_cases hterminal : TerminalStored input
      · rw [portfolioBarGrid_of_terminalStored hgridded hfinished hterminal, ← h.timeframe]
        refine (featureTimesValid_iff (hshown spec hspec) hcurrent hspec ?_ fun bar hbar =>
          hseconds bar (mem_evaluation.1 hbar).1).trans (and_iff_right hterminal).symm
        rw [h.histories, h.timeframe, ← h.history]
        exact hseconds
      · -- the last row is a bar that no series has
        refine iff_of_false (fun hpassed => ?_) fun hboth => hterminal hboth.1
        have hlength := length_eq_of_featureTimesValid hpassed
        rw [length_portfolioBarGrid hgridded hfinished hterminal] at hlength
        have hseries := length_featureTimes (hshown spec hspec)
        change (featureTimes spec.key (snapshotsOf state.2)).length = _ at hseries
        omega
    constructor
    · intro hall spec hspec
      exact (hvalid spec hspec).1
        (hall spec.key ((mem_sortedKeys text).2 (List.mem_map_of_mem hspec)))
    · intro hall key hkey
      obtain ⟨spec, hspec, rfl⟩ := List.mem_map.1 ((mem_sortedKeys text).1 hkey)
      exact (hvalid spec hspec).2 (hall spec hspec)

/-- A run has ended. -/
def hasEnded (state : RunState) : Bool :=
  match state.1 with
  | .finished => true
  | _ => false

theorem finished_of_hasEnded (h : hasEnded state = true) : state.1 = .finished := by
  unfold hasEnded at h
  split at h
  · assumption
  · cases h

/-- The two hours of a run that counts its bars pass the audit. -/
theorem indicatorFailures_of_two_hours : ∃ state : RunState, state.1 = .finished ∧
    indicatorFailures (fun key => key.name) (fun name => name = "count")
      (some (declaredRun (countingRun steadyBars (by decide)) []))
      (definitionKeys state.2.records) (snapshotsOf state.2) (portfolioRows state.2.records) =
        .ok [] := by
  obtain ⟨state, hstate, hended⟩ := exists_of_simulated (countingRun steadyBars (by decide))
    (fun _ => true) 12 hasEnded (by decide +kernel)
  have hfinished := finished_of_hasEnded hended
  refine ⟨state, hfinished, (indicatorFailures_of_finished _
    (readsFrom_countingRun steadyBars (by decide)) (fun spec hspec => ?_)
    (fun key hkey => absurd hkey List.not_mem_nil) (fun candle hcandle => ?_)
    (reachable_of_simulated hstate) hfinished).2 ?_⟩
  · rw [List.mem_singleton.1 hspec]
    rfl
  · obtain ⟨bar, hbar, rfl⟩ := List.mem_map.1 hcandle
    simp only [steadyBars, List.mem_cons, List.not_mem_nil, or_false] at hbar
    rcases hbar with rfl | rfl
    · exact ⟨7200, rfl, by norm_num⟩
    · exact ⟨10800, rfl, by norm_num⟩
  · intro spec hspec
    refine ⟨fun last hlast => ?_, fun _ hreference => ?_⟩
    · cases hlast
      decide +kernel
    · rw [List.mem_singleton.1 hspec] at hreference
      cases hreference

end Engine
end TradingSystem
