import TradingSystem.Series.History
import TradingSystem.Logic.Preserve

/-!
# Where the value of a series comes from

The board keeps, beside the value of a series, the candle it was computed from. It is the last
one the series has consumed (`Sourced`). A series of the run's own timeframe that needs no
reference has the candle of the bar; every other one may have an older one.

* `Current` — what holds of the board after each bar.
* `Current.advance` — the next bar keeps it.
* `Current.closeTime_source` — the sources that close with the bar.
-/

namespace TradingSystem

open Logic

/-! ### Cuts of ordered lists -/

section Cut

variable {α : Type} {f : α → ℤ} {l : List α} {c : ℤ} {a : α}

/-- What is later stands behind the cut. -/
theorem mem_drop_filter (h : l.Pairwise fun a b => f a < f b) (ha : a ∈ l) (hlater : c < f a) :
    a ∈ l.drop (l.filter fun a => decide (f a ≤ c)).length := by
  induction l with
  | nil => cases ha
  | cons b l ih =>
    rw [List.pairwise_cons] at h
    by_cases hb : f b ≤ c
    · rw [List.filter_cons_of_pos (by simpa using hb), List.length_cons, List.drop_succ_cons]
      rcases List.mem_cons.1 ha with rfl | ha
      · omega
      · exact ih h.2 ha
    · -- the rest is later still, so nothing is cut
      have hnone : (b :: l).filter (fun a => decide (f a ≤ c)) = [] := by
        rw [List.filter_eq_nil_iff]
        intro d hd
        rw [decide_eq_true_eq]
        rcases List.mem_cons.1 hd with rfl | hd
        · exact hb
        · have := h.1 d hd
          omega
      rw [hnone]
      exact ha

/-- An element is taken or stands behind the taken part. -/
theorem mem_takeWhile_or_drop {p : α → Bool} (ha : a ∈ l) :
    a ∈ l.takeWhile p ∨ a ∈ l.drop (l.takeWhile p).length := by
  have hsplit : l.takeWhile p ++ l.dropWhile p = l := List.takeWhile_append_dropWhile
  have hbehind : l.drop (l.takeWhile p).length = l.dropWhile p := by
    calc l.drop (l.takeWhile p).length
        = (l.takeWhile p ++ l.dropWhile p).drop (l.takeWhile p).length := by rw [hsplit]
      _ = l.dropWhile p := List.drop_left
  rw [hbehind, ← List.mem_append, hsplit]
  exact ha

/-- What is later is not taken. -/
theorem mem_drop_takeWhile (ha : a ∈ l) (hlater : c < f a) :
    a ∈ l.drop (l.takeWhile fun a => decide (f a ≤ c)).length := by
  refine (mem_takeWhile_or_drop ha).resolve_left fun htaken => ?_
  have := le_of_mem_takeWhile htaken
  omega

/-- What an ordered list has up to a bound is taken. -/
theorem mem_takeWhile_of_le (h : l.Pairwise fun a b => f a < f b) (ha : a ∈ l) (hle : f a ≤ c) :
    a ∈ l.takeWhile fun a => decide (f a ≤ c) := by
  refine (mem_takeWhile_or_drop ha).resolve_right fun hbehind => ?_
  have := lt_of_mem_drop_takeWhile h hbehind
  omega

end Cut

open SeriesSetup

namespace SeriesBoard

variable {setup : SeriesSetup} {board board' : SeriesBoard} {spec : ResolvedSeriesSpec}
  {candle source : Candle} {time : ℤ}

/-! ### Sources -/

/-- The value of a series was computed from the last candle the series consumed. -/
def Sourced (board : SeriesBoard) : Prop :=
  ∀ key source, board.sources key = some source →
    ∃ earlier partner, board.consumed key = earlier ++ [(source, partner)]

/-- Feeding a series makes the input its source. -/
theorem feed_sources {input : SeriesInput} (h : feed spec input board = .ok ⟨⟩ board') :
    board'.sources = Function.update board.sources spec.key (some input.1) := by
  unfold feed at h
  simp only [bind_eq_ok, modify_apply, get_apply, runPure_eq_ok, EStateM.Result.ok.injEq] at h
  obtain ⟨_, _, ⟨-, rfl⟩, _, _, ⟨rfl, rfl⟩, _, _, ⟨-, rfl⟩, -, rfl⟩ := h
  rfl

theorem preserves_feed {input : SeriesInput} : Preserves Sourced (feed spec input) := by
  intro board _ board' hs h key source hsource
  obtain ⟨hconsumed, -⟩ := feed_eq_ok h
  rw [feed_sources h] at hsource
  by_cases hkey : key = spec.key
  · subst hkey
    rw [Function.update_self, Option.some_inj] at hsource
    rw [hconsumed, Function.update_self, ← hsource]
    exact ⟨_, input.2, rfl⟩
  · -- the other series are as they were
    rw [Function.update_of_ne hkey] at hsource
    rw [hconsumed, Function.update_of_ne hkey]
    exact hs key source hsource

/-- **A bar** keeps the sources: it only feeds and moves read positions. -/
theorem preserves_advance : Preserves Sourced (advance setup candle) := by
  have hfresh : ∀ timeframe, Preserves Sourced (freshCandles setup candle timeframe) := by
    intro timeframe
    refine preserves_ite (preserves_pure _) (preserves_get.bind fun _ => ?_)
    refine (preserves_modify ?_).bind fun _ => preserves_pure _
    exact fun _ hs => hs
  refine Preserves.bind ?_ fun _ => ?_
  · refine preserves_forEach fun timeframe _ => (hfresh timeframe).bind fun _ => ?_
    exact preserves_forEach fun _ _ => preserves_forEach fun _ _ => preserves_feed
  · refine preserves_forEach fun spec _ => preserves_get.bind fun _ => ?_
    refine (preserves_forEach fun _ _ => preserves_feed).bind fun _ => preserves_modify ?_
    exact fun _ hs => hs

/-- Warming a series up that has no source yet. -/
theorem preloadSeries_sourced (hs : Sourced board) (hnone : board.sources spec.key = none)
    (h : preloadSeries setup spec board = .ok ⟨⟩ board') :
    Sourced board' ∧ ∀ key, key ≠ spec.key → board'.sources key = board.sources key := by
  -- seeding changes no source, and the series has none
  have hseed : ∀ inputs, Sourced
      { board with consumed := Function.update board.consumed spec.key inputs } := by
    intro inputs key source hsource
    change board.sources key = some source at hsource
    have hkey : key ≠ spec.key := by
      rintro rfl
      rw [hnone] at hsource
      cases hsource
    dsimp only
    rw [Function.update_of_ne hkey]
    exact hs key source hsource
  have hseeded : ∀ inputs b, seed spec inputs b = .ok ⟨⟩
      { b with consumed := Function.update b.consumed spec.key inputs } := fun _ _ => rfl
  have hinputs : (if spec.needsReferenceSeries = true then
      (setup.pairedPreload spec).map fun pair => (pair.1, some pair.2)
      else (setup.preloadOf spec.timeframe).map fun candle => (candle, none)) =
        warmInputs setup spec := rfl
  unfold preloadSeries at h
  simp only [hinputs] at h
  by_cases hexecution : spec.needsReferenceSeries = false ∧ spec.timeframe = setup.timeframe
  · rw [if_pos hexecution, bind_apply_of_ok (hseeded _ _)] at h
    simp only [bind_eq_ok, get_apply, raiseUnless_eq_ok, EStateM.Result.ok.injEq] at h
    obtain ⟨_, _, ⟨rfl, rfl⟩, -, rfl⟩ := h
    exact ⟨hseed _, fun _ _ => rfl⟩
  · rw [if_neg hexecution] at h
    cases hlast : (warmInputs setup spec).getLast? with
    | none =>
      rw [hlast] at h
      cases h
    | some last =>
      rw [hlast] at h
      dsimp only at h
      rw [bind_apply_of_ok (hseeded _ _), bind_eq_ok] at h
      obtain ⟨_, board₁, hfeed, hcheck⟩ := h
      simp only [bind_eq_ok, get_apply, raiseUnless_eq_ok, EStateM.Result.ok.injEq] at hcheck
      obtain ⟨_, _, ⟨rfl, rfl⟩, -, rfl⟩ := hcheck
      refine ⟨preserves_feed (hseed _) hfeed, fun key hkey => ?_⟩
      rw [feed_sources hfeed, Function.update_of_ne hkey]

/-- **After the warm-up** each source is the last candle consumed. -/
theorem sourced_preload (hkeys : KeysDistinct setup)
    (h : preload setup (initial setup) = .ok ⟨⟩ board) : Sourced board := by
  have hloop : ∀ {specs : List ResolvedSeriesSpec} {before : SeriesBoard},
      (specs.map (·.key)).Nodup → Sourced before →
      (∀ spec ∈ specs, before.sources spec.key = none) →
      forEach specs (preloadSeries setup) before = .ok ⟨⟩ board → Sourced board := by
    intro specs
    induction specs with
    | nil =>
      intro before _ hs _ hrun
      cases hrun
      exact hs
    | cons spec specs ih =>
      intro before hnodup hs hnone hrun
      rw [List.map_cons, List.nodup_cons] at hnodup
      rw [forEach_cons, bind_eq_ok] at hrun
      obtain ⟨_, board₁, hfirst, hrest⟩ := hrun
      obtain ⟨hs₁, hother⟩ :=
        preloadSeries_sourced hs (hnone spec (List.mem_cons_self ..)) hfirst
      refine ih hnodup.2 hs₁ (fun later hlater => ?_) hrest
      have hne : later.key ≠ spec.key := fun heq =>
        hnodup.1 (heq ▸ List.mem_map_of_mem hlater)
      rw [hother _ hne]
      exact hnone later (List.mem_cons_of_mem _ hlater)
  exact hloop hkeys (fun _ _ hsource => by cases hsource) (fun _ _ => rfl) h

/-! ### After each bar -/

/-- **After a bar**, or the warm-up: what was fed is in order, each source is the last candle
consumed, and the pairs of a paired series have been read up to the bar. -/
structure Current (setup : SeriesSetup) (time : ℤ) (board : SeriesBoard) : Prop where
  fed : Fed setup time board
  sourced : Sourced board
  /-- A paired series consumes its pairs. -/
  fromPairs : ∀ spec ∈ setup.specs, spec.needsReferenceSeries = true →
    ∀ input ∈ board.consumed spec.key, ∃ pair ∈ setup.pairs spec, pair.1 = input.1
  /-- Later pairs have not been read. -/
  laterPairs : ∀ spec ∈ setup.specs, spec.needsReferenceSeries = true →
    ∀ pair ∈ setup.pairs spec, time < pair.1.closeTime →
      pair ∈ (setup.pairs spec).drop (board.pairedPositions spec.key)

/-- Reading the pairs of a series starts behind those of the warm-up. -/
theorem initial_pairedPositions (hkeys : KeysDistinct setup) (hspec : spec ∈ setup.specs) :
    (initial setup).pairedPositions spec.key =
      ((setup.pairs spec).filter fun pair => pair.1.closeTime ≤ setup.start).length := by
  have hfound : setup.specs.find? (fun other => other.key = spec.key) = some spec := by
    cases hfind : setup.specs.find? fun other => other.key = spec.key with
    | none =>
      rw [List.find?_eq_none] at hfind
      have := hfind spec hspec
      simp at this
    | some other =>
      have hkey := List.find?_some hfind
      rw [decide_eq_true_eq] at hkey
      rw [hkeys.eq_of_key (List.mem_of_find?_eq_some hfind) hspec hkey]
  unfold initial
  dsimp only
  rw [hfound]

theorem current_preload (hordered : setup.Ordered) (hkeys : KeysDistinct setup)
    (h : preload setup (initial setup) = .ok ⟨⟩ board) : Current setup setup.start board := by
  obtain ⟨hown, -, hreading⟩ := preload_eq_ok hkeys h
  have hpaired : board.pairedPositions = (initial setup).pairedPositions :=
    congrArg Prod.snd hreading
  refine ⟨fed_preload hordered hkeys h, sourced_preload hkeys h, ?_, ?_⟩
  · intro spec hspec hreference input hinput
    rw [hown spec hspec] at hinput
    unfold warmInputs at hinput
    rw [if_pos hreference, List.mem_map] at hinput
    obtain ⟨pair, hpair, rfl⟩ := hinput
    exact ⟨pair, List.mem_of_mem_filter ((lastOf_sublist _ _).subset hpair), rfl⟩
  · intro spec hspec _ pair hpair hlater
    rw [hpaired, initial_pairedPositions hkeys hspec]
    exact mem_drop_filter (f := fun pair : Candle × Candle => pair.1.closeTime)
      (hordered.pairs spec) hpair hlater

/-- **The next bar.** -/
theorem Current.advance (h : Current setup time board) (hordered : setup.Ordered)
    (hkeys : KeysDistinct setup) (hlater : time < candle.closeTime)
    (hadvance : SeriesBoard.advance setup candle board = .ok ⟨⟩ board') :
    Current setup candle.closeTime board' := by
  have hbar := consumed_advance hkeys hadvance
  refine ⟨h.fed.advance hordered hkeys hlater hadvance,
    preserves_advance h.sourced hadvance, ?_, ?_⟩
  · intro spec hspec hreference input hinput
    rw [hbar.consumed spec hspec, List.mem_append] at hinput
    rcases hinput with hinput | hinput
    · exact h.fromPairs spec hspec hreference input hinput
    · unfold freshInputs at hinput
      rw [if_pos hreference, List.mem_map] at hinput
      obtain ⟨pair, hpair, rfl⟩ := hinput
      exact ⟨pair, List.mem_of_mem_drop ((List.takeWhile_sublist _).subset hpair), rfl⟩
  · intro spec hspec hreference pair hpair hclose
    have hunread := h.laterPairs spec hspec hreference pair hpair (hlater.trans hclose)
    rw [hbar.pairedPositions spec hspec hreference]
    unfold freshPairs
    rw [← List.drop_drop]
    exact mem_drop_takeWhile (f := fun pair : Candle × Candle => pair.1.closeTime) hunread hclose

/-- A pair that closes with a bar has been consumed with it. -/
theorem Current.consumed_pair (h : Current setup time board) (hordered : setup.Ordered)
    (hkeys : KeysDistinct setup) (hlater : time < candle.closeTime)
    (hadvance : SeriesBoard.advance setup candle board = .ok ⟨⟩ board')
    (hspec : spec ∈ setup.specs) (hreference : spec.needsReferenceSeries = true)
    {pair : Candle × Candle} (hpair : pair ∈ setup.pairs spec)
    (hclose : pair.1.closeTime = candle.closeTime) :
    (pair.1, some pair.2) ∈ board'.consumed spec.key := by
  have hunread := h.laterPairs spec hspec hreference pair hpair (by omega)
  rw [(consumed_advance hkeys hadvance).consumed spec hspec, List.mem_append]
  refine Or.inr ?_
  unfold freshInputs
  rw [if_pos hreference]
  refine List.mem_map_of_mem (f := fun pair : Candle × Candle => (pair.1, some pair.2)) ?_
  exact mem_takeWhile_of_le (f := fun pair : Candle × Candle => pair.1.closeTime)
    ((hordered.pairs spec).sublist (List.drop_sublist _ _)) hunread hclose.le

/-! ### When sources close -/

/-- The source of a series is its last input. -/
theorem Current.source_mem (h : Current setup time board)
    (hsource : board.sources spec.key = some source) :
    ∃ partner, (source, partner) ∈ board.consumed spec.key := by
  obtain ⟨earlier, partner, hconsumed⟩ := h.sourced _ _ hsource
  rw [hconsumed]
  exact ⟨partner, List.mem_append_right _ (List.mem_singleton_self _)⟩

/-- No input of a series closes after its source. -/
theorem Current.le_source (h : Current setup time board) (hspec : spec ∈ setup.specs)
    (hsource : board.sources spec.key = some source) {input : SeriesInput}
    (hinput : input ∈ board.consumed spec.key) : input.1.closeTime ≤ source.closeTime := by
  obtain ⟨earlier, partner, hconsumed⟩ := h.sourced _ _ hsource
  have hordered := h.fed.ordered spec hspec
  rw [hconsumed, List.pairwise_append] at hordered
  rw [hconsumed, List.mem_append] at hinput
  rcases hinput with hinput | hinput
  · exact (hordered.2.2 input hinput _ (List.mem_singleton_self _)).le
  · rw [List.mem_singleton.1 hinput]

/-- A source has closed by the bar. -/
theorem Current.source_le (h : Current setup time board) (hspec : spec ∈ setup.specs)
    (hsource : board.sources spec.key = some source) : source.closeTime ≤ time := by
  obtain ⟨partner, hmem⟩ := h.source_mem hsource
  exact h.fed.past spec hspec _ hmem

theorem mem_matchCandles {primary reference : List Candle} {pair : Candle × Candle} :
    pair ∈ matchCandles primary reference ↔ pair.1 ∈ primary ∧
      reference.find? (fun other => other.closeTime = pair.1.closeTime) = some pair.2 := by
  unfold matchCandles
  simp only [List.mem_filterMap, Option.map_eq_some_iff]
  constructor
  · rintro ⟨candle, hcandle, other, hother, rfl⟩
    exact ⟨hcandle, hother⟩
  · rintro ⟨hcandle, hother⟩
    exact ⟨pair.1, hcandle, pair.2, hother, rfl⟩

/-- **Sources that close with the bar.** On the run's own timeframe the source of a series closes
with the bar unless the series is paired and its reference has no such candle. -/
theorem Current.closeTime_source (h : Current setup time board) (hordered : setup.Ordered)
    (hkeys : KeysDistinct setup) (hlater : time < candle.closeTime)
    (hadvance : SeriesBoard.advance setup candle board = .ok ⟨⟩ board')
    (hspec : spec ∈ setup.specs) (hexecution : spec.timeframe = setup.timeframe)
    (hcandle : candle ∈ setup.histories setup.timeframe)
    (hsource : board'.sources spec.key = some source) :
    source.closeTime = candle.closeTime ↔ (spec.needsReferenceSeries = true →
      ∃ other ∈ setup.references setup.timeframe, other.closeTime = candle.closeTime) := by
  have hnext := h.advance hordered hkeys hlater hadvance
  have hpast := hnext.source_le hspec hsource
  obtain ⟨partner, hmem⟩ := hnext.source_mem hsource
  cases hreference : spec.needsReferenceSeries with
  | false =>
    -- the bar itself is the last input
    refine ⟨fun _ => by simp, fun _ => le_antisymm hpast ?_⟩
    have hmem : (candle, (none : Option Candle)) ∈ board'.consumed spec.key := by
      rw [(consumed_advance hkeys hadvance).consumed spec hspec, List.mem_append]
      refine Or.inr ?_
      unfold freshInputs freshOf
      rw [hreference, if_neg Bool.false_ne_true, if_pos hexecution]
      exact List.mem_singleton_self _
    exact hnext.le_source hspec hsource hmem
  | true =>
    constructor
    · intro hclose _
      -- the source comes from a pair, whose other leg closes with it
      obtain ⟨pair, hpair, rfl⟩ := hnext.fromPairs spec hspec hreference _ hmem
      obtain ⟨-, hother⟩ := mem_matchCandles.1 hpair
      refine ⟨pair.2, ?_, ?_⟩
      · rw [← hexecution]
        exact List.mem_of_find?_eq_some hother
      · have hequal := List.find?_some hother
        rw [decide_eq_true_eq] at hequal
        exact hequal.trans hclose
    · intro hother
      obtain ⟨other, hin, hequal⟩ := hother rfl
      -- the candle has a partner, and the pair has been consumed
      have hfound : ((setup.references setup.timeframe).find?
          fun other => other.closeTime = candle.closeTime).isSome = true := by
        rw [List.find?_isSome]
        exact ⟨other, hin, by simpa using hequal⟩
      obtain ⟨found, hfound⟩ := Option.isSome_iff_exists.1 hfound
      have hpair : (candle, found) ∈ setup.pairs spec := by
        unfold pairs
        rw [hexecution, mem_matchCandles]
        exact ⟨hcandle, hfound⟩
      refine le_antisymm hpast ?_
      exact hnext.le_source hspec hsource
        (h.consumed_pair hordered hkeys hlater hadvance hspec hreference hpair rfl)

end SeriesBoard
end TradingSystem
