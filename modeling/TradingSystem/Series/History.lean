import TradingSystem.Series.Board

/-!
# Reading histories forward

The board reads each history once, from the front: a bar takes what closes by its own close
and moves the read position behind it. Two histories that agree up to an instant are read
alike by every bar that closes by that instant.

* `AgreeUpTo` — two setups whose candles agree up to an instant.
* `advance_eq`, `preload_eq`, `initial_eq` — the board programs of two such setups.
* `consumed_advance` — what a bar feeds to each series.
* `Fed` — what has been fed is in strictly increasing order, and what is unread is later.
-/

namespace TradingSystem

open Logic

/-! ### Cuts of ordered lists -/

section Cut

variable {α : Type} {f : α → ℤ} {l : List α} {n : ℕ} {c T : ℤ}

/-- Nothing is taken from a list that starts late. -/
theorem takeWhile_eq_nil_of_late (h : ∀ a ∈ l, c < f a) :
    l.takeWhile (fun a => decide (f a ≤ c)) = [] := by
  cases l with
  | nil => rfl
  | cons a l =>
    have hlate := h a (List.mem_cons_self ..)
    rw [List.takeWhile_cons_of_neg]
    simp only [decide_eq_true_eq]
    omega

/-- A bar that closes by `T` does not read what closes after `T`. -/
theorem takeWhile_drop_filter (h : l.Pairwise fun a b => f a < f b) (hle : c ≤ T) :
    (l.drop n).takeWhile (fun a => decide (f a ≤ c)) =
      ((l.filter fun a => decide (f a ≤ T)).drop n).takeWhile
        fun a => decide (f a ≤ c) := by
  -- on the list, for every number of candles read before
  induction l generalizing n with
  | nil => rfl
  | cons a l ih =>
    rw [List.pairwise_cons] at h
    by_cases ha : f a ≤ T
    · rw [List.filter_cons_of_pos (by simpa using ha)]
      cases n with
      | zero =>
        have hrest := ih (n := 0) h.2
        rw [List.drop_zero, List.drop_zero] at hrest ⊢
        by_cases hc : f a ≤ c
        · rw [List.takeWhile_cons_of_pos (by simpa using hc),
            List.takeWhile_cons_of_pos (by simpa using hc), hrest]
        · rw [List.takeWhile_cons_of_neg (by simpa using hc),
            List.takeWhile_cons_of_neg (by simpa using hc)]
      | succ n =>
        rw [List.drop_succ_cons, List.drop_succ_cons]
        exact ih h.2
    · -- the rest of the list is later still
      have hlate : ∀ b ∈ a :: l, c < f b := by
        intro b hb
        rcases List.mem_cons.1 hb with rfl | hb
        · omega
        · have := h.1 b hb
          omega
      have hnone : (a :: l).filter (fun b => decide (f b ≤ T)) = [] := by
        rw [List.filter_eq_nil_iff]
        intro b hb
        rcases List.mem_cons.1 hb with rfl | hb
        · simpa using ha
        · have := h.1 b hb
          simp only [decide_eq_true_eq]
          omega
      rw [hnone, List.drop_nil, List.takeWhile_nil]
      exact takeWhile_eq_nil_of_late fun b hb => hlate b (List.mem_of_mem_drop hb)

/-- An earlier cut of a cut is the earlier cut. -/
theorem filter_filter_le (hle : c ≤ T) :
    (l.filter fun a => decide (f a ≤ T)).filter (fun a => decide (f a ≤ c)) =
      l.filter fun a => decide (f a ≤ c) := by
  rw [List.filter_filter]
  refine List.filter_congr fun a _ => ?_
  by_cases h : f a ≤ c
  · have := h.trans hle
    simp [h, this]
  · simp [h]

/-- What stands behind the cut of an ordered list is later. -/
theorem lt_of_mem_drop_filter (h : l.Pairwise fun a b => f a < f b) {a : α}
    (ha : a ∈ l.drop (l.filter fun a => decide (f a ≤ T)).length) : T < f a := by
  induction l with
  | nil => simp at ha
  | cons b l ih =>
    rw [List.pairwise_cons] at h
    by_cases hb : f b ≤ T
    · rw [List.filter_cons_of_pos (by simpa using hb), List.length_cons,
        List.drop_succ_cons] at ha
      exact ih h.2 ha
    · rcases List.mem_cons.1 (List.mem_of_mem_drop ha) with rfl | ha
      · omega
      · have := h.1 a ha
        omega

/-- What stands behind the taken part of an ordered list is later. -/
theorem lt_of_mem_drop_takeWhile (h : l.Pairwise fun a b => f a < f b) {a : α}
    (ha : a ∈ l.drop (l.takeWhile fun a => decide (f a ≤ c)).length) : c < f a := by
  induction l with
  | nil => simp at ha
  | cons b l ih =>
    rw [List.pairwise_cons] at h
    by_cases hb : f b ≤ c
    · rw [List.takeWhile_cons_of_pos (by simpa using hb), List.length_cons,
        List.drop_succ_cons] at ha
      exact ih h.2 ha
    · rcases List.mem_cons.1 (List.mem_of_mem_drop ha) with rfl | ha
      · omega
      · have := h.1 a ha
        omega

/-- Each element is kept once. -/
theorem nodup_eraseDups {β : Type} [BEq β] [LawfulBEq β] (values : List β) :
    values.eraseDups.Nodup := by
  induction h : values.length using Nat.strong_induction_on generalizing values with
  | _ n ih =>
    cases values with
    | nil => simp
    | cons a values =>
      rw [List.eraseDups_cons, List.nodup_cons]
      refine ⟨?_, ih _ ?_ _ rfl⟩
      · rw [List.mem_eraseDups, List.mem_filter]
        simp
      · have hle := List.length_filter_le (fun b => !b == a) values
        rw [List.length_cons] at h
        omega

/-- What is taken satisfies the test. -/
theorem le_of_mem_takeWhile {a : α} (h : a ∈ l.takeWhile fun a => decide (f a ≤ c)) :
    f a ≤ c := by
  have hall := List.all_takeWhile (p := fun a => decide (f a ≤ c)) (l := l)
  rw [List.all_eq_true] at hall
  simpa using hall a h

end Cut

/-- Strictly increasing close times. -/
def ByClose (candles : List Candle) : Prop :=
  candles.Pairwise fun left right => left.closeTime < right.closeTime

/-- The candles closed by an instant. -/
def upTo (instant : ℤ) (candles : List Candle) : List Candle :=
  candles.filter fun candle => candle.closeTime ≤ instant

namespace SeriesSetup

variable {setup setup' : SeriesSetup} {instant : ℤ}

/-- The histories of a setup are ordered by close. -/
structure Ordered (setup : SeriesSetup) : Prop where
  histories : ∀ timeframe, ByClose (setup.histories timeframe)
  references : ∀ timeframe, ByClose (setup.references timeframe)

/-- **Agreement.** Two setups of one run that read the same candles up to an instant. -/
structure AgreeUpTo (instant : ℤ) (setup setup' : SeriesSetup) : Prop where
  symbol : setup.symbol = setup'.symbol
  timeframe : setup.timeframe = setup'.timeframe
  start : setup.start = setup'.start
  specs : setup.specs = setup'.specs
  warmup : setup.warmup = setup'.warmup
  histories : ∀ timeframe,
    upTo instant (setup.histories timeframe) = upTo instant (setup'.histories timeframe)
  references : ∀ timeframe,
    upTo instant (setup.references timeframe) = upTo instant (setup'.references timeframe)

/-- Matching the cuts at an instant is cutting the matched pairs. -/
theorem filter_matchCandles (primary reference : List Candle) :
    (matchCandles primary reference).filter (fun pair => decide (pair.1.closeTime ≤ instant)) =
      matchCandles (upTo instant primary) (upTo instant reference) := by
  refine (matchCandles_cut (p := fun candle => decide (candle.closeTime ≤ instant)) ?_).symm
  intro candle _ other _ hclose
  rw [hclose]

/-- Pairs are ordered as their primary candles. -/
theorem matchCandles_ordered {primary reference : List Candle} (h : ByClose primary) :
    (matchCandles primary reference).Pairwise fun left right =>
      left.1.closeTime < right.1.closeTime := by
  unfold matchCandles
  refine h.filterMap _ ?_
  intro left right hlt pair hpair pair' hpair'
  rw [Option.map_eq_some_iff] at hpair hpair'
  obtain ⟨_, -, rfl⟩ := hpair
  obtain ⟨_, -, rfl⟩ := hpair'
  exact hlt

theorem Ordered.pairs (h : setup.Ordered) (spec : ResolvedSeriesSpec) :
    (setup.pairs spec).Pairwise fun left right => left.1.closeTime < right.1.closeTime :=
  matchCandles_ordered (h.histories _)

namespace AgreeUpTo

theorem symm (h : AgreeUpTo instant setup setup') : AgreeUpTo instant setup' setup :=
  ⟨h.symbol.symm, h.timeframe.symm, h.start.symm, h.specs.symm, h.warmup.symm,
    fun timeframe => (h.histories timeframe).symm, fun timeframe => (h.references timeframe).symm⟩

theorem pairs (h : AgreeUpTo instant setup setup') (spec : ResolvedSeriesSpec) :
    (setup.pairs spec).filter (fun pair => decide (pair.1.closeTime ≤ instant)) =
      (setup'.pairs spec).filter fun pair => decide (pair.1.closeTime ≤ instant) := by
  unfold SeriesSetup.pairs
  rw [filter_matchCandles, filter_matchCandles, h.histories, h.references]

/-- A bar reads the same candles. -/
theorem unread_eq (h : AgreeUpTo instant setup setup') (hordered : setup.Ordered)
    (hordered' : setup'.Ordered) {close : ℤ} (hle : close ≤ instant) (timeframe : Timeframe)
    (position : ℕ) :
    ((setup.histories timeframe).drop position).takeWhile
        (fun source => decide (source.closeTime ≤ close)) =
      ((setup'.histories timeframe).drop position).takeWhile
        fun source => decide (source.closeTime ≤ close) := by
  rw [takeWhile_drop_filter (f := Candle.closeTime) (hordered.histories timeframe) hle,
    takeWhile_drop_filter (f := Candle.closeTime) (hordered'.histories timeframe) hle]
  have hcut := h.histories timeframe
  unfold upTo at hcut
  rw [hcut]

theorem unread_pairs_eq (h : AgreeUpTo instant setup setup') (hordered : setup.Ordered)
    (hordered' : setup'.Ordered) {close : ℤ} (hle : close ≤ instant) (spec : ResolvedSeriesSpec)
    (position : ℕ) :
    ((setup.pairs spec).drop position).takeWhile
        (fun pair => decide (pair.1.closeTime ≤ close)) =
      ((setup'.pairs spec).drop position).takeWhile
        fun pair => decide (pair.1.closeTime ≤ close) := by
  have hcut := takeWhile_drop_filter (f := fun pair : Candle × Candle => pair.1.closeTime)
    (n := position) (hordered.pairs spec) hle
  have hcut' := takeWhile_drop_filter (f := fun pair : Candle × Candle => pair.1.closeTime)
    (n := position) (hordered'.pairs spec) hle
  rw [hcut, hcut', h.pairs spec]

/-- The warm-up reads the same candles. -/
theorem closedBefore_eq (h : AgreeUpTo instant setup setup') (hle : setup.start ≤ instant)
    (timeframe : Timeframe) :
    setup.closedBefore (setup.histories timeframe) =
      setup'.closedBefore (setup'.histories timeframe) := by
  have hle' : setup'.start ≤ instant := h.start ▸ hle
  have hcut := h.histories timeframe
  unfold upTo at hcut
  unfold closedBefore
  rw [← filter_filter_le (f := Candle.closeTime) hle,
    ← filter_filter_le (f := Candle.closeTime) hle', hcut, h.start]

theorem pairsBefore_eq (h : AgreeUpTo instant setup setup') (hle : setup.start ≤ instant)
    (spec : ResolvedSeriesSpec) :
    ((setup.pairs spec).filter fun pair => decide (pair.1.closeTime ≤ setup.start)) =
      (setup'.pairs spec).filter fun pair => decide (pair.1.closeTime ≤ setup'.start) := by
  have hle' : setup'.start ≤ instant := h.start ▸ hle
  rw [← filter_filter_le (f := fun pair : Candle × Candle => pair.1.closeTime) hle,
    ← filter_filter_le (f := fun pair : Candle × Candle => pair.1.closeTime) hle',
    h.pairs spec, h.start]

end AgreeUpTo
end SeriesSetup

namespace SeriesBoard

open SeriesSetup

variable {setup setup' : SeriesSetup} {instant : ℤ} {candle : Candle}

/-! ### Two setups -/

/-- **The first board** of two setups that agree up to the start. -/
theorem initial_eq (h : AgreeUpTo instant setup setup') (hle : setup.start ≤ instant) :
    initial setup = initial setup' := by
  have hpositions : ∀ timeframe, (setup.closedBefore (setup.histories timeframe)).length =
      (setup'.closedBefore (setup'.histories timeframe)).length :=
    fun timeframe => congrArg List.length (h.closedBefore_eq hle timeframe)
  have hpaired : ∀ spec, ((setup.pairs spec).filter fun pair =>
      decide (pair.1.closeTime ≤ setup.start)).length = ((setup'.pairs spec).filter fun pair =>
        decide (pair.1.closeTime ≤ setup'.start)).length :=
    fun spec => congrArg List.length (h.pairsBefore_eq hle spec)
  unfold initial
  simp only [hpositions, hpaired, h.specs]

/-- **The same warm-up.** -/
theorem preload_eq (h : AgreeUpTo instant setup setup') (hle : setup.start ≤ instant) :
    preload setup = preload setup' := by
  unfold preload
  rw [h.specs]
  refine forEach_congr fun spec _ => ?_
  have hpreload : setup.preloadOf spec.timeframe = setup'.preloadOf spec.timeframe := by
    unfold preloadOf
    rw [h.warmup, h.closedBefore_eq hle]
  have hpaired : setup.pairedPreload spec = setup'.pairedPreload spec := by
    unfold pairedPreload
    rw [h.pairsBefore_eq hle]
  unfold preloadSeries
  rw [hpreload, hpaired, h.timeframe]

/-- **The same bar.** -/
theorem advance_eq (h : AgreeUpTo instant setup setup') (hordered : setup.Ordered)
    (hordered' : setup'.Ordered) (hle : candle.closeTime ≤ instant) :
    advance setup candle = advance setup' candle := by
  -- each part of a bar reads nothing that closes after the instant
  have hfresh : ∀ timeframe,
      freshCandles setup candle timeframe = freshCandles setup' candle timeframe := by
    intro timeframe
    unfold freshCandles
    rw [h.timeframe]
    by_cases hown : timeframe = setup'.timeframe
    · rw [if_pos hown, if_pos hown]
    · rw [if_neg hown, if_neg hown]
      congr 1
      ext board : 1
      simp only [h.unread_eq hordered hordered' hle]
  have hstream : ∀ timeframe,
      advanceStream setup candle timeframe = advanceStream setup' candle timeframe := by
    intro timeframe
    unfold advanceStream
    rw [hfresh, h.specs]
  have hpaired : ∀ spec, advancePaired setup candle spec = advancePaired setup' candle spec := by
    intro spec
    unfold advancePaired
    congr 1
    ext board : 1
    simp only [h.unread_pairs_eq hordered hordered' hle]
  have hstreams : setup.streams = setup'.streams := by
    unfold streams
    rw [h.specs]
  unfold advance
  rw [hstreams, h.specs, forEach_congr fun timeframe _ => hstream timeframe,
    forEach_congr fun spec _ => hpaired spec]

/-! ### What a bar feeds -/

variable {board board' : SeriesBoard} {spec : ResolvedSeriesSpec} {specs : List ResolvedSeriesSpec}

/-- The read positions of a board. -/
def reading (board : SeriesBoard) : (Timeframe → ℕ) × (SeriesKey → ℕ) :=
  (board.positions, board.pairedPositions)

/-- **Feeding one series** appends to what it consumed, and reads nothing. -/
theorem feed_eq_ok {input : SeriesInput} (h : feed spec input board = .ok ⟨⟩ board') :
    board'.consumed = Function.update board.consumed spec.key
        (board.consumed spec.key ++ [input]) ∧ board'.reading = board.reading := by
  unfold feed at h
  simp only [bind_eq_ok, modify_apply, get_apply, runPure_eq_ok, EStateM.Result.ok.injEq] at h
  obtain ⟨_, _, ⟨-, rfl⟩, _, _, ⟨rfl, rfl⟩, _, _, ⟨-, rfl⟩, -, rfl⟩ := h
  exact ⟨rfl, rfl⟩

/-- A loop over a mapped list. -/
theorem forEach_map {α β σ : Type} (g : α → β) (items : List α)
    (body : β → Program Fault σ PUnit) :
    forEach (items.map g) body = forEach items fun item => body (g item) := by
  induction items with
  | nil => rfl
  | cons item items ih => rw [List.map_cons, forEach_cons, forEach_cons, ih]

/-- What feeding a list of inputs to one series does. -/
theorem feedAll_eq_ok {inputs : List SeriesInput}
    (h : forEach inputs (feed spec) board = .ok ⟨⟩ board') :
    board'.consumed spec.key = board.consumed spec.key ++ inputs ∧
      (∀ key, key ≠ spec.key → board'.consumed key = board.consumed key) ∧
      board'.reading = board.reading := by
  induction inputs generalizing board with
  | nil =>
    cases h
    rw [List.append_nil]
    exact ⟨rfl, fun _ _ => rfl, rfl⟩
  | cons input inputs ih =>
    rw [forEach_cons, bind_eq_ok] at h
    obtain ⟨_, board₁, hfeed, hrest⟩ := h
    obtain ⟨hconsumed, hreading⟩ := feed_eq_ok hfeed
    obtain ⟨hown, hother, hreading'⟩ := ih hrest
    refine ⟨?_, ?_, hreading'.trans hreading⟩
    · rw [hown, hconsumed, Function.update_self, List.append_assoc]
      rfl
    · intro key hne
      rw [hother key hne, hconsumed, Function.update_of_ne hne]

/-- **A loop over distinct series**, each step of which rewrites what its own key consumed. -/
theorem forEach_consumed {body : ResolvedSeriesSpec → Program Fault SeriesBoard PUnit}
    (gives : ResolvedSeriesSpec → List SeriesInput → List SeriesInput)
    (hbody : ∀ spec before after, body spec before = .ok ⟨⟩ after →
      after.consumed = Function.update before.consumed spec.key
        (gives spec (before.consumed spec.key)) ∧ after.reading = before.reading)
    (hnodup : (specs.map (·.key)).Nodup) (h : forEach specs body board = .ok ⟨⟩ board') :
    (∀ spec ∈ specs, board'.consumed spec.key = gives spec (board.consumed spec.key)) ∧
      (∀ key, key ∉ specs.map (·.key) → board'.consumed key = board.consumed key) ∧
      board'.reading = board.reading := by
  induction specs generalizing board with
  | nil =>
    cases h
    exact ⟨by simp, fun _ _ => rfl, rfl⟩
  | cons first specs ih =>
    rw [List.map_cons, List.nodup_cons] at hnodup
    rw [forEach_cons, bind_eq_ok] at h
    obtain ⟨_, board₁, hfirst, hrest⟩ := h
    obtain ⟨hconsumed, hreading⟩ := hbody _ _ _ hfirst
    -- the rest of the loop leaves the first series alone
    obtain ⟨hown, hother, hreading'⟩ := ih hnodup.2 hrest
    refine ⟨?_, ?_, hreading'.trans hreading⟩
    · intro spec hspec
      rcases List.mem_cons.1 hspec with rfl | hlater
      · rw [hother _ hnodup.1, hconsumed, Function.update_self]
      · -- the keys are distinct, so the first step leaves a later series alone
        have hne : spec.key ≠ first.key := by
          intro heq
          exact hnodup.1 (heq ▸ List.mem_map_of_mem hlater)
        rw [hown spec hlater, hconsumed, Function.update_of_ne hne]
    · intro key hkey
      rw [List.map_cons, List.mem_cons, not_or] at hkey
      rw [hother key hkey.2, hconsumed, Function.update_of_ne hkey.1]

/-- One source candle goes to each series of the stream once. -/
theorem feedEach_eq_ok {input : SeriesInput} (hnodup : (specs.map (·.key)).Nodup)
    (h : forEach specs (fun spec => feed spec input) board = .ok ⟨⟩ board') :
    (∀ spec ∈ specs, board'.consumed spec.key = board.consumed spec.key ++ [input]) ∧
      (∀ key, key ∉ specs.map (·.key) → board'.consumed key = board.consumed key) ∧
      board'.reading = board.reading :=
  forEach_consumed (fun _ prior => prior ++ [input]) (fun _ _ _ hfeed => feed_eq_ok hfeed)
    hnodup h

/-- The source candles of a stream go to each of its series in order. -/
theorem feedSources_eq_ok {sources : List Candle} (hnodup : (specs.map (·.key)).Nodup)
    (h : forEach sources (fun source => forEach specs fun spec => feed spec (source, none)) board =
      .ok ⟨⟩ board') :
    (∀ spec ∈ specs, board'.consumed spec.key =
      board.consumed spec.key ++ sources.map fun source => (source, none)) ∧
      (∀ key, key ∉ specs.map (·.key) → board'.consumed key = board.consumed key) ∧
      board'.reading = board.reading := by
  induction sources generalizing board with
  | nil =>
    cases h
    refine ⟨fun spec _ => ?_, fun _ _ => rfl, rfl⟩
    rw [List.map_nil, List.append_nil]
  | cons source sources ih =>
    rw [forEach_cons, bind_eq_ok] at h
    obtain ⟨_, board₁, hfirst, hrest⟩ := h
    obtain ⟨hone, hsame, hreading⟩ := feedEach_eq_ok hnodup hfirst
    obtain ⟨hown, hother, hreading'⟩ := ih hrest
    refine ⟨?_, ?_, hreading'.trans hreading⟩
    · intro spec hspec
      rw [hown spec hspec, hone spec hspec, List.append_assoc]
      rfl
    · intro key hkey
      rw [hother key hkey, hsame key hkey]

/-- The series of one stream. -/
def streamSpecs (setup : SeriesSetup) (timeframe : Timeframe) : List ResolvedSeriesSpec :=
  setup.specs.filter fun spec =>
    !spec.needsReferenceSeries && decide (spec.timeframe = timeframe)

theorem mem_streamSpecs {timeframe : Timeframe} : spec ∈ streamSpecs setup timeframe ↔
    spec ∈ setup.specs ∧ spec.needsReferenceSeries = false ∧ spec.timeframe = timeframe := by
  unfold streamSpecs
  rw [List.mem_filter, Bool.and_eq_true, Bool.not_eq_true', decide_eq_true_eq]

/-- A setup with one series for each key. -/
def KeysDistinct (setup : SeriesSetup) : Prop := (setup.specs.map (·.key)).Nodup

theorem KeysDistinct.eq_of_key (h : KeysDistinct setup) {spec' : ResolvedSeriesSpec}
    (hspec : spec ∈ setup.specs) (hspec' : spec' ∈ setup.specs) (heq : spec.key = spec'.key) :
    spec = spec' := List.inj_on_of_nodup_map h hspec hspec' heq

theorem KeysDistinct.filter (h : KeysDistinct setup) (p : ResolvedSeriesSpec → Bool) :
    ((setup.specs.filter p).map (·.key)).Nodup :=
  h.sublist (List.filter_sublist.map _)

/-- The candles of a stream a bar reads. -/
def freshOf (setup : SeriesSetup) (candle : Candle) (board : SeriesBoard)
    (timeframe : Timeframe) : List Candle :=
  if timeframe = setup.timeframe then [candle]
  else ((setup.histories timeframe).drop (board.positions timeframe)).takeWhile
    fun source => source.closeTime ≤ candle.closeTime

/-- The pairs of a paired series a bar reads. -/
def freshPairs (setup : SeriesSetup) (candle : Candle) (board : SeriesBoard)
    (spec : ResolvedSeriesSpec) : List (Candle × Candle) :=
  ((setup.pairs spec).drop (board.pairedPositions spec.key)).takeWhile
    fun pair => pair.1.closeTime ≤ candle.closeTime

/-- The positions after a bar has read a stream. -/
def positionAfter (setup : SeriesSetup) (candle : Candle) (board : SeriesBoard)
    (timeframe : Timeframe) : ℕ :=
  if timeframe = setup.timeframe then board.positions timeframe
  else board.positions timeframe + (freshOf setup candle board timeframe).length

theorem advanceStream_eq_ok (hkeys : KeysDistinct setup) {timeframe : Timeframe}
    (h : advanceStream setup candle timeframe board = .ok ⟨⟩ board') :
    (∀ spec ∈ streamSpecs setup timeframe, board'.consumed spec.key =
      board.consumed spec.key ++ (freshOf setup candle board timeframe).map fun s => (s, none)) ∧
      (∀ key, key ∉ (streamSpecs setup timeframe).map (·.key) →
        board'.consumed key = board.consumed key) ∧
      board'.positions = Function.update board.positions timeframe
        (positionAfter setup candle board timeframe) ∧
      board'.pairedPositions = board.pairedPositions := by
  unfold advanceStream at h
  rw [bind_eq_ok] at h
  obtain ⟨fresh, board₁, hfresh, hfeed⟩ := h
  obtain ⟨hown, hother, hreading⟩ := feedSources_eq_ok (hkeys.filter _) hfeed
  have hpositions : board'.positions = board₁.positions := congrArg Prod.fst hreading
  have hpaired : board'.pairedPositions = board₁.pairedPositions := congrArg Prod.snd hreading
  unfold freshCandles at hfresh
  -- the own stream is given the candle of the bar, another one is read up to its close
  by_cases hexecution : timeframe = setup.timeframe
  · rw [if_pos hexecution] at hfresh
    cases hfresh
    have hsame : freshOf setup candle board timeframe = [candle] := if_pos hexecution
    refine ⟨?_, hother, ?_, hpaired⟩
    · rw [hsame]
      exact hown
    · rw [hpositions]
      unfold positionAfter
      rw [if_pos hexecution, Function.update_eq_self]
  · rw [if_neg hexecution] at hfresh
    simp only [bind_eq_ok, get_apply, modify_apply, pure_apply, EStateM.Result.ok.injEq] at hfresh
    obtain ⟨_, _, ⟨rfl, rfl⟩, _, _, ⟨-, rfl⟩, rfl, rfl⟩ := hfresh
    have hsame : freshOf setup candle board timeframe =
        ((setup.histories timeframe).drop (board.positions timeframe)).takeWhile
          fun source => source.closeTime ≤ candle.closeTime := if_neg hexecution
    refine ⟨?_, hother, ?_, hpaired⟩
    · rw [hsame]
      exact hown
    · rw [hpositions]
      unfold positionAfter
      rw [if_neg hexecution, hsame]

/-- **The streams of a bar.** Each series gets what its own stream has to read. -/
theorem advanceStreams_eq_ok (hkeys : KeysDistinct setup) {timeframes : List Timeframe}
    (hnodup : timeframes.Nodup)
    (h : forEach timeframes (advanceStream setup candle) board = .ok ⟨⟩ board') :
    (∀ timeframe ∈ timeframes, ∀ spec ∈ streamSpecs setup timeframe,
      board'.consumed spec.key = board.consumed spec.key ++
        (freshOf setup candle board timeframe).map fun source => (source, none)) ∧
      (∀ key, (∀ timeframe ∈ timeframes, key ∉ (streamSpecs setup timeframe).map (·.key)) →
        board'.consumed key = board.consumed key) ∧
      (∀ timeframe, board'.positions timeframe = if timeframe ∈ timeframes then
        positionAfter setup candle board timeframe else board.positions timeframe) ∧
      board'.pairedPositions = board.pairedPositions := by
  induction timeframes generalizing board with
  | nil =>
    cases h
    exact ⟨by simp, fun _ _ => rfl, fun _ => rfl, rfl⟩
  | cons first timeframes ih =>
    rw [List.nodup_cons] at hnodup
    rw [forEach_cons, bind_eq_ok] at h
    obtain ⟨_, board₁, hfirst, hrest⟩ := h
    obtain ⟨hown, hother, hpositions, hpaired⟩ := advanceStream_eq_ok hkeys hfirst
    obtain ⟨hown', hother', hpositions', hpaired'⟩ := ih hnodup.2 hrest
    -- the first stream does not move the positions of the others
    have hkept : ∀ timeframe, timeframe ≠ first →
        board₁.positions timeframe = board.positions timeframe := by
      intro timeframe hne
      rw [hpositions, Function.update_of_ne hne]
    have hdisjoint : ∀ spec timeframe, spec ∈ streamSpecs setup timeframe → timeframe ≠ first →
        spec.key ∉ (streamSpecs setup first).map (·.key) := by
      intro spec timeframe hspec hne hmem
      obtain ⟨spec', hspec', heq⟩ := List.mem_map.1 hmem
      obtain ⟨hin, -, htimeframe⟩ := mem_streamSpecs.1 hspec
      obtain ⟨hin', -, htimeframe'⟩ := mem_streamSpecs.1 hspec'
      have := hkeys.eq_of_key hin' hin heq
      rw [this, htimeframe] at htimeframe'
      exact hne htimeframe'
    refine ⟨?_, ?_, ?_, hpaired'.trans hpaired⟩
    · intro timeframe hmem spec hspec
      rcases List.mem_cons.1 hmem with rfl | hlater
      · rw [hother' spec.key, hown spec hspec]
        intro other hlater hin
        obtain ⟨spec', hspec', heq⟩ := List.mem_map.1 hin
        have hne : other ≠ timeframe := by
          rintro rfl
          exact hnodup.1 hlater
        exact hdisjoint spec' other hspec' hne (heq ▸ List.mem_map_of_mem hspec)
      · have hne : timeframe ≠ first := by
          rintro rfl
          exact hnodup.1 hlater
        rw [hown' timeframe hlater spec hspec, hother _ (hdisjoint spec timeframe hspec hne)]
        unfold freshOf
        rw [hkept timeframe hne]
    · intro key hkey
      rw [hother' key fun timeframe hmem => hkey timeframe (List.mem_cons_of_mem _ hmem),
        hother key (hkey first (List.mem_cons_self ..))]
    · intro timeframe
      rw [hpositions' timeframe]
      by_cases heq : timeframe = first
      · subst heq
        rw [if_neg hnodup.1, if_pos (List.mem_cons_self ..), hpositions, Function.update_self]
      · by_cases hmem : timeframe ∈ timeframes
        · rw [if_pos hmem, if_pos (List.mem_cons_of_mem _ hmem)]
          unfold positionAfter freshOf
          rw [hkept timeframe heq]
        · have hnot : timeframe ∉ first :: timeframes := by
            rw [List.mem_cons, not_or]
            exact ⟨heq, hmem⟩
          rw [if_neg hmem, if_neg hnot, hkept timeframe heq]

theorem advancePaired_eq_ok (h : advancePaired setup candle spec board = .ok ⟨⟩ board') :
    board'.consumed spec.key = board.consumed spec.key ++
        (freshPairs setup candle board spec).map (fun pair => (pair.1, some pair.2)) ∧
      (∀ key, key ≠ spec.key → board'.consumed key = board.consumed key) ∧
      board'.positions = board.positions ∧
      board'.pairedPositions = Function.update board.pairedPositions spec.key
        (board.pairedPositions spec.key + (freshPairs setup candle board spec).length) := by
  unfold advancePaired at h
  simp only [bind_eq_ok, get_apply, modify_apply, EStateM.Result.ok.injEq] at h
  obtain ⟨_, _, ⟨rfl, rfl⟩, _, board₁, hfeed, -, rfl⟩ := h
  have hmap : forEach ((freshPairs setup candle board spec).map fun pair => (pair.1, some pair.2))
      (feed spec) board = .ok ⟨⟩ board₁ := by
    rw [forEach_map]
    exact hfeed
  obtain ⟨hown, hother, hreading⟩ := feedAll_eq_ok hmap
  have hpositions : board₁.positions = board.positions := congrArg Prod.fst hreading
  have hpaired : board₁.pairedPositions = board.pairedPositions := congrArg Prod.snd hreading
  refine ⟨hown, hother, hpositions, ?_⟩
  change Function.update board₁.pairedPositions spec.key _ = _
  rw [hpaired]
  rfl

/-- **The paired series of a bar.** -/
theorem advancePairs_eq_ok (hnodup : (specs.map (·.key)).Nodup)
    (h : forEach specs (advancePaired setup candle) board = .ok ⟨⟩ board') :
    (∀ spec ∈ specs, board'.consumed spec.key = board.consumed spec.key ++
        (freshPairs setup candle board spec).map (fun pair => (pair.1, some pair.2)) ∧
      board'.pairedPositions spec.key = board.pairedPositions spec.key +
        (freshPairs setup candle board spec).length) ∧
      (∀ key, key ∉ specs.map (·.key) → board'.consumed key = board.consumed key ∧
        board'.pairedPositions key = board.pairedPositions key) ∧
      board'.positions = board.positions := by
  -- on the series: the keys are distinct, so each step leaves the others as they are
  induction specs generalizing board with
  | nil =>
    cases h
    exact ⟨by simp, fun _ _ => ⟨rfl, rfl⟩, rfl⟩
  | cons first specs ih =>
    rw [List.map_cons, List.nodup_cons] at hnodup
    rw [forEach_cons, bind_eq_ok] at h
    obtain ⟨_, board₁, hfirst, hrest⟩ := h
    obtain ⟨hown, hother, hpositions, hpaired⟩ := advancePaired_eq_ok hfirst
    obtain ⟨hown', hother', hpositions'⟩ := ih hnodup.2 hrest
    refine ⟨?_, ?_, hpositions'.trans hpositions⟩
    · intro spec hspec
      rcases List.mem_cons.1 hspec with rfl | hlater
      · obtain ⟨hsame, hsame'⟩ := hother' spec.key hnodup.1
        rw [hsame, hsame', hown, hpaired, Function.update_self]
        exact ⟨rfl, rfl⟩
      · have hne : spec.key ≠ first.key := by
          intro heq
          exact hnodup.1 (heq ▸ List.mem_map_of_mem hlater)
        have hposition : board₁.pairedPositions spec.key = board.pairedPositions spec.key := by
          rw [hpaired, Function.update_of_ne hne]
        have hfresh : freshPairs setup candle board₁ spec = freshPairs setup candle board spec := by
          unfold freshPairs
          rw [hposition]
        obtain ⟨hconsumed, hread⟩ := hown' spec hlater
        rw [hconsumed, hread, hfresh, hother _ hne, hposition]
        exact ⟨rfl, rfl⟩
    · intro key hkey
      rw [List.map_cons, List.mem_cons, not_or] at hkey
      obtain ⟨hsame, hsame'⟩ := hother' key hkey.2
      rw [hsame, hsame', hother key hkey.1, hpaired, Function.update_of_ne hkey.1]
      exact ⟨rfl, rfl⟩

/-- What a bar feeds to one series. -/
def freshInputs (setup : SeriesSetup) (candle : Candle) (board : SeriesBoard)
    (spec : ResolvedSeriesSpec) : List SeriesInput :=
  if spec.needsReferenceSeries then
    (freshPairs setup candle board spec).map fun pair => (pair.1, some pair.2)
  else (freshOf setup candle board spec.timeframe).map fun source => (source, none)

/-- **A bar**: what it feeds to each series, and where reading stands afterwards. -/
structure Advanced (setup : SeriesSetup) (candle : Candle) (board board' : SeriesBoard) :
    Prop where
  consumed : ∀ spec ∈ setup.specs,
    board'.consumed spec.key = board.consumed spec.key ++ freshInputs setup candle board spec
  positions : ∀ spec ∈ setup.specs, spec.needsReferenceSeries = false →
    board'.positions spec.timeframe = positionAfter setup candle board spec.timeframe
  pairedPositions : ∀ spec ∈ setup.specs, spec.needsReferenceSeries = true →
    board'.pairedPositions spec.key =
      board.pairedPositions spec.key + (freshPairs setup candle board spec).length

theorem consumed_advance (hkeys : KeysDistinct setup)
    (h : advance setup candle board = .ok ⟨⟩ board') : Advanced setup candle board board' := by
  unfold advance at h
  rw [bind_eq_ok] at h
  obtain ⟨_, board₁, hstreams, hpairs⟩ := h
  have hnodup : setup.streams.Nodup := by
    unfold streams
    exact nodup_eraseDups _
  obtain ⟨hown, hother, hpositions, hpaired⟩ := advanceStreams_eq_ok hkeys hnodup hstreams
  obtain ⟨hown', hother', hpositions'⟩ := advancePairs_eq_ok (hkeys.filter _) hpairs
  have hstream : ∀ spec ∈ setup.specs, spec.needsReferenceSeries = false →
      spec.timeframe ∈ setup.streams := by
    intro spec hspec hsingle
    unfold streams
    rw [List.mem_eraseDups]
    refine List.mem_map_of_mem (List.mem_filter.2 ⟨hspec, ?_⟩)
    rw [hsingle]
    rfl
  -- paired and unpaired series have different keys
  have hunpaired : ∀ spec ∈ setup.specs, spec.needsReferenceSeries = false →
      spec.key ∉ (setup.specs.filter (·.needsReferenceSeries)).map (·.key) := by
    intro spec hspec hsingle hmem
    obtain ⟨spec', hspec', heq⟩ := List.mem_map.1 hmem
    rw [List.mem_filter] at hspec'
    rw [hkeys.eq_of_key hspec'.1 hspec heq] at hspec'
    rw [hsingle] at hspec'
    exact absurd hspec'.2 (by simp)
  have hfresh : ∀ spec, freshPairs setup candle board₁ spec =
      freshPairs setup candle board spec := by
    intro spec
    unfold freshPairs
    rw [hpaired]
  refine ⟨?_, ?_, ?_⟩
  · intro spec hspec
    unfold freshInputs
    by_cases hreference : spec.needsReferenceSeries = true
    · rw [if_pos hreference]
      have hmem : spec ∈ setup.specs.filter (·.needsReferenceSeries) :=
        List.mem_filter.2 ⟨hspec, hreference⟩
      have hkept : board₁.consumed spec.key = board.consumed spec.key := by
        refine hother spec.key fun timeframe _ hin => ?_
        obtain ⟨spec', hspec', heq⟩ := List.mem_map.1 hin
        obtain ⟨hin', hsingle, -⟩ := mem_streamSpecs.1 hspec'
        rw [hkeys.eq_of_key hin' hspec heq, hreference] at hsingle
        cases hsingle
      rw [(hown' spec hmem).1, hkept, hfresh]
    · rw [if_neg hreference]
      rw [Bool.not_eq_true] at hreference
      rw [(hother' _ (hunpaired spec hspec hreference)).1,
        hown spec.timeframe (hstream spec hspec hreference) spec
          (mem_streamSpecs.2 ⟨hspec, hreference, rfl⟩)]
  · intro spec hspec hsingle
    rw [hpositions', hpositions, if_pos (hstream spec hspec hsingle)]
  · intro spec hspec hreference
    rw [(hown' spec (List.mem_filter.2 ⟨hspec, hreference⟩)).2, hpaired, hfresh]

/-! ### The order of what is fed -/

/-- **What every bar keeps.** -/
structure Fed (setup : SeriesSetup) (time : ℤ) (board : SeriesBoard) : Prop where
  /-- A series consumes candles in strictly increasing order. -/
  ordered : ∀ spec ∈ setup.specs, (board.consumed spec.key).Pairwise fun earlier later =>
    earlier.1.closeTime < later.1.closeTime
  /-- What was consumed has closed. -/
  past : ∀ spec ∈ setup.specs, ∀ input ∈ board.consumed spec.key, input.1.closeTime ≤ time
  /-- What a stream has not read closes later. -/
  unread : ∀ spec ∈ setup.specs, spec.needsReferenceSeries = false →
    spec.timeframe ≠ setup.timeframe →
      ∀ source ∈ (setup.histories spec.timeframe).drop (board.positions spec.timeframe),
        time < source.closeTime
  /-- What a paired series has not read closes later. -/
  unreadPairs : ∀ spec ∈ setup.specs, spec.needsReferenceSeries = true →
    ∀ pair ∈ (setup.pairs spec).drop (board.pairedPositions spec.key), time < pair.1.closeTime

/-- The candles a bar reads from a stream follow what was consumed, and close by the bar. -/
theorem Fed.freshOf {time : ℤ} (h : Fed setup time board) (hordered : setup.Ordered)
    (hlater : time < candle.closeTime) (hspec : spec ∈ setup.specs)
    (hsingle : spec.needsReferenceSeries = false) :
    ((freshOf setup candle board spec.timeframe).Pairwise fun earlier later =>
        earlier.closeTime < later.closeTime) ∧
      ∀ source ∈ freshOf setup candle board spec.timeframe,
        time < source.closeTime ∧ source.closeTime ≤ candle.closeTime := by
  unfold SeriesBoard.freshOf
  by_cases hexecution : spec.timeframe = setup.timeframe
  · rw [if_pos hexecution]
    refine ⟨List.pairwise_singleton _ _, ?_⟩
    intro source hsource
    rw [List.mem_singleton.1 hsource]
    exact ⟨hlater, le_rfl⟩
  · rw [if_neg hexecution]
    refine ⟨?_, ?_⟩
    · exact (hordered.histories spec.timeframe).sublist
        ((List.takeWhile_sublist _).trans (List.drop_sublist _ _))
    · intro source hsource
      refine ⟨h.unread spec hspec hsingle hexecution source
        ((List.takeWhile_sublist _).subset hsource), ?_⟩
      exact le_of_mem_takeWhile (f := Candle.closeTime) hsource

theorem Fed.freshPairs {time : ℤ} (h : Fed setup time board) (hordered : setup.Ordered)
    (hspec : spec ∈ setup.specs) (hreference : spec.needsReferenceSeries = true) :
    ((freshPairs setup candle board spec).Pairwise fun earlier later =>
        earlier.1.closeTime < later.1.closeTime) ∧
      ∀ pair ∈ freshPairs setup candle board spec,
        time < pair.1.closeTime ∧ pair.1.closeTime ≤ candle.closeTime := by
  unfold SeriesBoard.freshPairs
  refine ⟨(hordered.pairs spec).sublist
    ((List.takeWhile_sublist _).trans (List.drop_sublist _ _)), ?_⟩
  intro pair hpair
  refine ⟨h.unreadPairs spec hspec hreference pair ((List.takeWhile_sublist _).subset hpair), ?_⟩
  exact le_of_mem_takeWhile (f := fun pair : Candle × Candle => pair.1.closeTime) hpair

/-- The inputs of a bar follow what was consumed, and close by the bar. -/
theorem Fed.freshInputs {time : ℤ} (h : Fed setup time board) (hordered : setup.Ordered)
    (hlater : time < candle.closeTime) (hspec : spec ∈ setup.specs) :
    ((freshInputs setup candle board spec).Pairwise fun earlier later =>
        earlier.1.closeTime < later.1.closeTime) ∧
      ∀ input ∈ freshInputs setup candle board spec,
        time < input.1.closeTime ∧ input.1.closeTime ≤ candle.closeTime := by
  unfold SeriesBoard.freshInputs
  by_cases hreference : spec.needsReferenceSeries = true
  · rw [if_pos hreference]
    obtain ⟨hpairwise, hbounds⟩ :
        ((SeriesBoard.freshPairs setup candle board spec).Pairwise _) ∧ _ :=
      h.freshPairs hordered hspec hreference
    refine ⟨List.pairwise_map.2 hpairwise, ?_⟩
    intro input hinput
    obtain ⟨pair, hpair, rfl⟩ := List.mem_map.1 hinput
    exact hbounds pair hpair
  · rw [if_neg hreference]
    rw [Bool.not_eq_true] at hreference
    obtain ⟨hpairwise, hbounds⟩ := h.freshOf hordered hlater hspec hreference
    refine ⟨List.pairwise_map.2 hpairwise, ?_⟩
    intro input hinput
    obtain ⟨source, hsource, rfl⟩ := List.mem_map.1 hinput
    exact hbounds source hsource

/-- **One bar** keeps the order. -/
theorem Fed.advance {time : ℤ} (h : Fed setup time board) (hordered : setup.Ordered)
    (hkeys : KeysDistinct setup) (hlater : time < candle.closeTime)
    (hadvance : SeriesBoard.advance setup candle board = .ok ⟨⟩ board') :
    Fed setup candle.closeTime board' := by
  have hbar := consumed_advance hkeys hadvance
  -- what the bar feeds closes after all that was fed, and by the close of the bar
  refine ⟨?_, ?_, ?_, ?_⟩
  · intro spec hspec
    obtain ⟨hpairwise, hbounds⟩ := h.freshInputs hordered hlater hspec
    rw [hbar.consumed spec hspec, List.pairwise_append]
    refine ⟨h.ordered spec hspec, hpairwise, ?_⟩
    intro earlier hearlier later hin
    have hpast := h.past spec hspec earlier hearlier
    have hfresh := (hbounds later hin).1
    omega
  · intro spec hspec input hinput
    rw [hbar.consumed spec hspec, List.mem_append] at hinput
    rcases hinput with hinput | hinput
    · have hpast := h.past spec hspec input hinput
      omega
    · exact ((h.freshInputs hordered hlater hspec).2 input hinput).2
  · intro spec hspec hsingle hexecution source hsource
    rw [hbar.positions spec hspec hsingle] at hsource
    unfold positionAfter SeriesBoard.freshOf at hsource
    rw [if_neg hexecution, if_neg hexecution, ← List.drop_drop] at hsource
    exact lt_of_mem_drop_takeWhile (f := Candle.closeTime)
      ((hordered.histories spec.timeframe).sublist (List.drop_sublist _ _)) hsource
  · intro spec hspec hreference pair hpair
    rw [hbar.pairedPositions spec hspec hreference] at hpair
    unfold SeriesBoard.freshPairs at hpair
    rw [← List.drop_drop] at hpair
    exact lt_of_mem_drop_takeWhile (f := fun pair : Candle × Candle => pair.1.closeTime)
      ((hordered.pairs spec).sublist (List.drop_sublist _ _)) hpair

/-! ### Warm-up -/

/-- What a series is warmed with. -/
def warmInputs (setup : SeriesSetup) (spec : ResolvedSeriesSpec) : List SeriesInput :=
  if spec.needsReferenceSeries then (setup.pairedPreload spec).map fun pair => (pair.1, some pair.2)
  else (setup.preloadOf spec.timeframe).map fun candle => (candle, none)

theorem preloadSeries_eq_ok (h : preloadSeries setup spec board = .ok ⟨⟩ board') :
    board'.consumed = Function.update board.consumed spec.key (warmInputs setup spec) ∧
      board'.reading = board.reading := by
  have hseed : ∀ inputs b, seed spec inputs b = .ok ⟨⟩
      { b with consumed := Function.update b.consumed spec.key inputs } := fun _ _ => rfl
  have hinputs : (if spec.needsReferenceSeries = true then
      (setup.pairedPreload spec).map fun pair => (pair.1, some pair.2)
      else (setup.preloadOf spec.timeframe).map fun candle => (candle, none)) =
        warmInputs setup spec := rfl
  unfold preloadSeries at h
  simp only [hinputs] at h
  -- the own stream is only seeded, another series is also updated with its last input
  by_cases hexecution : spec.needsReferenceSeries = false ∧ spec.timeframe = setup.timeframe
  · rw [if_pos hexecution] at h
    rw [bind_apply_of_ok (hseed _ _)] at h
    simp only [bind_eq_ok, get_apply, raiseUnless_eq_ok, EStateM.Result.ok.injEq] at h
    obtain ⟨_, _, ⟨rfl, rfl⟩, -, rfl⟩ := h
    exact ⟨rfl, rfl⟩
  · rw [if_neg hexecution] at h
    cases hlast : (warmInputs setup spec).getLast? with
    | none =>
      rw [hlast] at h
      cases h
    | some last =>
      rw [hlast] at h
      dsimp only at h
      rw [bind_apply_of_ok (hseed _ _), bind_eq_ok] at h
      obtain ⟨_, board₁, hfeed, hcheck⟩ := h
      simp only [bind_eq_ok, get_apply, raiseUnless_eq_ok, EStateM.Result.ok.injEq] at hcheck
      obtain ⟨_, _, ⟨rfl, rfl⟩, -, rfl⟩ := hcheck
      obtain ⟨hconsumed, hreading⟩ := feed_eq_ok hfeed
      have hsplit : (warmInputs setup spec).dropLast ++ [last] = warmInputs setup spec :=
        List.dropLast_append_getLast? last hlast
      refine ⟨?_, hreading⟩
      rw [hconsumed]
      dsimp only
      rw [Function.update_self, hsplit, Function.update_idem]

/-- **The warm-up** gives each series its inputs and reads nothing. -/
theorem preload_eq_ok (hnodup : (specs.map (·.key)).Nodup)
    (h : forEach specs (preloadSeries setup) board = .ok ⟨⟩ board') :
    (∀ spec ∈ specs, board'.consumed spec.key = warmInputs setup spec) ∧
      (∀ key, key ∉ specs.map (·.key) → board'.consumed key = board.consumed key) ∧
      board'.reading = board.reading :=
  forEach_consumed (fun spec _ => warmInputs setup spec)
    (fun _ _ _ hwarm => preloadSeries_eq_ok hwarm) hnodup h

theorem lastOf_sublist {α : Type} (count : ℕ) (values : List α) :
    (lastOf count values).Sublist values := by
  unfold lastOf
  split
  · exact List.Sublist.refl _
  · exact List.drop_sublist _ _

/-- A series is warmed with ordered inputs that closed by the start. -/
theorem warmInputs_ordered (hordered : setup.Ordered) (spec : ResolvedSeriesSpec) :
    ((warmInputs setup spec).Pairwise fun earlier later =>
        earlier.1.closeTime < later.1.closeTime) ∧
      ∀ input ∈ warmInputs setup spec, input.1.closeTime ≤ setup.start := by
  unfold warmInputs
  by_cases hreference : spec.needsReferenceSeries = true
  · rw [if_pos hreference]
    unfold pairedPreload
    refine ⟨List.pairwise_map.2 ((hordered.pairs spec).sublist
      ((lastOf_sublist _ _).trans List.filter_sublist)), ?_⟩
    intro input hinput
    obtain ⟨pair, hpair, rfl⟩ := List.mem_map.1 hinput
    have := (List.mem_filter.1 ((lastOf_sublist _ _).subset hpair)).2
    simpa using this
  · rw [if_neg hreference]
    unfold preloadOf closedBefore
    refine ⟨List.pairwise_map.2 ((hordered.histories spec.timeframe).sublist
      ((lastOf_sublist _ _).trans List.filter_sublist)), ?_⟩
    intro input hinput
    obtain ⟨source, hsource, rfl⟩ := List.mem_map.1 hinput
    have := (List.mem_filter.1 ((lastOf_sublist _ _).subset hsource)).2
    simpa using this

/-- **After the warm-up** the order holds at the start. -/
theorem fed_preload (hordered : setup.Ordered) (hkeys : KeysDistinct setup)
    (h : preload setup (initial setup) = .ok ⟨⟩ board) : Fed setup setup.start board := by
  obtain ⟨hown, -, hreading⟩ := preload_eq_ok hkeys h
  have hpositions : board.positions = (initial setup).positions := congrArg Prod.fst hreading
  have hpaired : board.pairedPositions = (initial setup).pairedPositions :=
    congrArg Prod.snd hreading
  refine ⟨?_, ?_, ?_, ?_⟩
  · intro spec hspec
    rw [hown spec hspec]
    exact (warmInputs_ordered hordered spec).1
  · intro spec hspec
    rw [hown spec hspec]
    exact (warmInputs_ordered hordered spec).2
  · intro spec _ _ _ source hsource
    rw [hpositions] at hsource
    exact lt_of_mem_drop_filter (f := Candle.closeTime) (hordered.histories _) hsource
  · intro spec hspec _ pair hpair
    rw [hpaired] at hpair
    -- keys are distinct, so the start finds the series under its key
    have hfound : setup.specs.find? (fun other => other.key = spec.key) = some spec := by
      cases hfind : setup.specs.find? fun other => other.key = spec.key with
      | none =>
        rw [List.find?_eq_none] at hfind
        have := hfind spec hspec
        simp at this
      | some other =>
        have hkey := List.find?_some hfind
        rw [decide_eq_true_eq] at hkey
        rw [hkeys.eq_of_key (List.mem_of_find?_eq_some hfind) hspec hkey]
    unfold initial at hpair
    dsimp only at hpair
    rw [hfound] at hpair
    exact lt_of_mem_drop_filter (f := fun pair : Candle × Candle => pair.1.closeTime)
      (hordered.pairs spec) hpair

end SeriesBoard
end TradingSystem
