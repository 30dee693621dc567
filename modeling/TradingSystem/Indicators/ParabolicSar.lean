import TradingSystem.Indicators.RollingWindow
import TradingSystem.Types.Enums
import Mathlib.Tactic.NormNum

/-!
# The parabolic stop and reverse

`_SarTracker` carries a stop, an extreme point, an acceleration and a direction from candle to
candle. `Leg` are the four, present from the second candle on.

* `SarTracker.advance_cases` — what one candle does to a leg.
* `Tracked` — the invariant after every candle; `Tracked.advance` keeps it.
* `Leg.Protective` — the stop is on the far side of the candle. A step that does not turn always
  leaves it so; a turn does unless the candle passes the old extreme.
* `sarStep` — all of it, after any candles.
-/

namespace TradingSystem
namespace Indicators

open Streaming

/-! ### The code -/

/-- The variables of a direction. -/
structure Leg where
  rising : Bool
  stop : ℚ
  extreme : ℚ
  acceleration : ℚ

/-- `_SarTracker`; there is no leg while `_stop` is NaN. -/
structure SarTracker where
  leg : Option Leg
  previous : Option Candle
  beforePrevious : Option Candle

namespace SarTracker

/-- The state before the first candle. -/
def new : SarTracker := ⟨none, none, none⟩

/-- The leg Wilder starts from: its direction is that of the first transition. -/
def firstLeg (step : ℚ) (previous candle : Candle) : Leg :=
  let rising : Bool := previous.close ≤ candle.close
  { rising := rising
    stop := if rising then previous.low else previous.high
    extreme := if rising then previous.high else previous.low
    acceleration := step }

/-- The stop moved towards the extreme and held off the last two candles. -/
def nextStop (leg : Leg) (previous : Candle) (beforePrevious : Option Candle) : ℚ :=
  let stop := leg.stop + leg.acceleration * (leg.extreme - leg.stop)
  let recent := previous :: beforePrevious.toList
  if leg.rising then recent.foldl (fun stop bar => min stop bar.low) stop
  else recent.foldl (fun stop bar => max stop bar.high) stop

/-- The leg after a candle, of the leg before it. -/
def advance (step maximum : ℚ) (leg : Leg) (previous : Candle) (beforePrevious : Option Candle)
    (candle : Candle) : Leg :=
  let stop := nextStop leg previous beforePrevious
  let reversedNow : Bool := if leg.rising then candle.low < stop else stop < candle.high
  if reversedNow then
    { rising := !leg.rising
      stop := leg.extreme
      extreme := if !leg.rising then candle.high else candle.low
      acceleration := step }
  else if (leg.rising ∧ leg.extreme < candle.high) ∨ (¬ leg.rising ∧ candle.low < leg.extreme) then
    { rising := leg.rising
      stop := stop
      extreme := if leg.rising then candle.high else candle.low
      acceleration := min (leg.acceleration + step) maximum }
  else { leg with stop := stop }

/-- Advance one candle and return the stop for it, or NaN on the first. -/
def update (step maximum : ℚ) (tracker : SarTracker) (candle : Candle) : SarTracker × Value :=
  match tracker.previous with
  | none => ({ tracker with previous := some candle }, NAN)
  | some previous =>
    let leg := tracker.leg.getD (firstLeg step previous candle)
    let leg := advance step maximum leg previous tracker.beforePrevious candle
    (⟨some leg, some candle, some previous⟩, some leg.stop)

end SarTracker

def parabolicSar (candles : List Candle) (step maximum : ℚ) : Except Fault (List Value) :=
  if step ≤ 0 ∨ maximum ≤ 0 then .error (.valueError "step and maximum must be positive")
  else if maximum < step then .error (.valueError "step must not exceed maximum")
  else .ok (outputs (SarTracker.update step maximum) .new candles)

/-! ### Directions -/

/-- The price of a candle that is furthest in a direction. -/
def Candle.favourable (rising : Bool) (candle : Candle) : ℚ :=
  if rising then candle.high else candle.low

/-- The price of a candle that is furthest against a direction. -/
def Candle.adverse (rising : Bool) (candle : Candle) : ℚ :=
  if rising then candle.low else candle.high

variable {step maximum : ℚ}

theorem Candle.favourable_atLeast (rising : Bool) (candle : Candle) :
    AtLeast rising (candle.favourable rising) (candle.adverse rising) := by
  cases rising <;> exact candle.low_le_high

theorem Candle.adverse_not (rising : Bool) (candle : Candle) :
    candle.adverse (!rising) = candle.favourable rising := by cases rising <;> rfl

theorem atLeast_not {rising : Bool} {x y : ℚ} : AtLeast (!rising) x y ↔ AtLeast rising y x := by
  cases rising <;> rfl

/-- The stop is on the far side of the candle. -/
def Leg.Protective (leg : Leg) (candle : Candle) : Prop :=
  AtLeast leg.rising (candle.adverse leg.rising) leg.stop

namespace SarTracker

/-! ### One step -/

/-- The stop is held off the last two candles. -/
theorem nextStop_le (leg : Leg) (previous : Candle) (beforePrevious : Option Candle) :
    AtLeast leg.rising (previous.adverse leg.rising) (nextStop leg previous beforePrevious) ∧
      ∀ bar ∈ beforePrevious,
        AtLeast leg.rising (bar.adverse leg.rising) (nextStop leg previous beforePrevious) := by
  obtain ⟨rising, stop, extreme, acceleration⟩ := leg
  cases rising <;> cases beforePrevious <;>
    simp [nextStop, AtLeast, Candle.adverse]

/-- The stop moves against its direction only to be held off a candle. -/
theorem le_nextStop {leg : Leg} {previous : Candle} {beforePrevious : Option Candle}
    (hacceleration : 0 ≤ leg.acceleration) (hextreme : AtLeast leg.rising leg.extreme leg.stop)
    (hprevious : AtLeast leg.rising (previous.adverse leg.rising) leg.stop)
    (hbefore : ∀ bar ∈ beforePrevious, AtLeast leg.rising (bar.adverse leg.rising) leg.stop) :
    AtLeast leg.rising (nextStop leg previous beforePrevious) leg.stop := by
  obtain ⟨rising, stop, extreme, acceleration⟩ := leg
  cases rising
  · have hmove : stop + acceleration * (extreme - stop) ≤ stop := by
      simp only [AtLeast] at hextreme
      nlinarith [mul_nonneg hacceleration (sub_nonneg.2 hextreme)]
    cases beforePrevious <;> simp_all [nextStop, AtLeast, Candle.adverse]
  · have hmove : stop ≤ stop + acceleration * (extreme - stop) := by
      simp only [AtLeast, if_true] at hextreme
      nlinarith [mul_nonneg hacceleration (sub_nonneg.2 hextreme)]
    cases beforePrevious <;> simp_all [nextStop, AtLeast, Candle.adverse]

/-- **What one candle does.** Either the candle crosses the stop, the old extreme is the new stop
and the direction turns, or the stop is the one held off the last candles, on the far side of the
candle, and the extreme takes the candle in. -/
theorem advance_cases (step maximum : ℚ) (leg : Leg) (previous : Candle)
    (beforePrevious : Option Candle) (candle : Candle) :
    let next := advance step maximum leg previous beforePrevious candle
    (¬ AtLeast leg.rising (candle.adverse leg.rising) (nextStop leg previous beforePrevious) ∧
      next = ⟨!leg.rising, leg.extreme, candle.favourable (!leg.rising), step⟩) ∨
    (AtLeast leg.rising (candle.adverse leg.rising) (nextStop leg previous beforePrevious) ∧
      next.rising = leg.rising ∧ next.stop = nextStop leg previous beforePrevious ∧
      next.extreme = (if leg.rising then max leg.extreme candle.high
        else min leg.extreme candle.low) ∧
      (next.acceleration = leg.acceleration ∨
        next.acceleration = min (leg.acceleration + step) maximum)) := by
  intro next
  obtain ⟨rising, stop, extreme, acceleration⟩ := leg
  -- the candle crosses the stop or not; within a leg it may make a new extreme
  by_cases hcross : AtLeast rising (candle.adverse rising)
      (nextStop ⟨rising, stop, extreme, acceleration⟩ previous beforePrevious)
  · right
    refine ⟨hcross, ?_⟩
    cases rising
    · have hkeep : ¬ nextStop ⟨false, stop, extreme, acceleration⟩ previous beforePrevious <
          candle.high := not_lt.2 hcross
      by_cases hnew : candle.low < extreme
      · simp [next, advance, hkeep, hnew, hnew.le]
      · simp [next, advance, hkeep, hnew, not_lt.1 hnew]
    · have hkeep : ¬ candle.low <
          nextStop ⟨true, stop, extreme, acceleration⟩ previous beforePrevious := not_lt.2 hcross
      by_cases hnew : extreme < candle.high
      · simp [next, advance, hkeep, hnew, hnew.le]
      · simp [next, advance, hkeep, hnew, not_lt.1 hnew]
  · left
    refine ⟨hcross, ?_⟩
    cases rising
    · have hturn : nextStop ⟨false, stop, extreme, acceleration⟩ previous beforePrevious <
          candle.high := not_le.1 hcross
      simp [next, advance, hturn, Candle.favourable]
    · have hturn : candle.low <
          nextStop ⟨true, stop, extreme, acceleration⟩ previous beforePrevious := not_le.1 hcross
      simp [next, advance, hturn, Candle.favourable]

/-- What holds of a leg and the last candle it took in, before the next one. -/
structure Tracked (step maximum : ℚ) (leg : Leg) (since : List Candle) : Prop where
  acceleration : step ≤ leg.acceleration ∧ leg.acceleration ≤ maximum
  attained : ∃ candle ∈ since, candle.favourable leg.rising = leg.extreme
  furthest : ∀ candle ∈ since, AtLeast leg.rising leg.extreme (candle.favourable leg.rising)

theorem tracked_firstLeg (h : step ≤ maximum) (previous candle : Candle) :
    Tracked step maximum (firstLeg step previous candle) [previous] := by
  refine ⟨⟨le_refl _, h⟩, ⟨previous, by simp, rfl⟩, fun c hc => ?_⟩
  rw [List.mem_singleton.1 hc]
  exact AtLeast.refl _

section Tracked

variable {leg : Leg} {since : List Candle} {previous : Candle} {beforePrevious : Option Candle}
  {candle : Candle}

/-- The extreme is at least as far as the stop held off a candle of the leg. -/
theorem Tracked.extreme_atLeast (h : Tracked step maximum leg since)
    (hprevious : previous ∈ since) (beforePrevious : Option Candle) :
    AtLeast leg.rising leg.extreme (nextStop leg previous beforePrevious) :=
  (h.furthest previous hprevious).trans
    ((previous.favourable_atLeast leg.rising).trans (nextStop_le leg previous beforePrevious).1)

theorem extreme_taken {rising : Bool} {extreme : ℚ} {since : List Candle} (candle : Candle)
    (hattained : ∃ c ∈ since, c.favourable rising = extreme)
    (hfurthest : ∀ c ∈ since, AtLeast rising extreme (c.favourable rising)) :
    let next := if rising then max extreme candle.high else min extreme candle.low
    (∃ c ∈ since ++ [candle], c.favourable rising = next) ∧
      ∀ c ∈ since ++ [candle], AtLeast rising next (c.favourable rising) := by
  intro next
  have hnext : (next = extreme ∨ next = candle.favourable rising) ∧
      AtLeast rising next extreme ∧ AtLeast rising next (candle.favourable rising) := by
    cases rising
    · exact ⟨min_choice _ _, min_le_left _ _, min_le_right _ _⟩
    · exact ⟨max_choice _ _, le_max_left _ _, le_max_right _ _⟩
  obtain ⟨hchoice, hextreme, hcandle⟩ := hnext
  refine ⟨?_, fun c hc => ?_⟩
  · rcases hchoice with heq | heq
    · obtain ⟨c, hc, hfavourable⟩ := hattained
      exact ⟨c, List.mem_append_left _ hc, hfavourable.trans heq.symm⟩
    · exact ⟨candle, by simp, heq.symm⟩
  · rcases List.mem_append.1 hc with hc | hc
    · exact hextreme.trans (hfurthest c hc)
    · rw [List.mem_singleton.1 hc]
      exact hcandle

/-- One more candle: the leg goes on with it, or a new one begins with it. -/
theorem Tracked.advance (h : Tracked step maximum leg since) (hstep : 0 < step)
    (hmaximum : step ≤ maximum) (candle : Candle) :
    let next := advance step maximum leg previous beforePrevious candle
    Tracked step maximum next
      (if next.rising = leg.rising then since ++ [candle] else [candle]) := by
  intro next
  rcases advance_cases step maximum leg previous beforePrevious candle with
    ⟨-, hturn⟩ | ⟨-, hrising, -, hextreme, hacceleration⟩
  · -- a turn starts a leg with the candle that turned it
    change next = _ at hturn
    rw [hturn, if_neg (by cases leg.rising <;> simp)]
    exact ⟨⟨le_refl _, hmaximum⟩, ⟨candle, by simp, rfl⟩, fun c hc => by
      rw [List.mem_singleton.1 hc]
      exact AtLeast.refl _⟩
  · change next.rising = _ at hrising
    rw [if_pos hrising]
    -- the leg goes on, with the candle as its extreme if that is further
    obtain ⟨hattained, hfurthest⟩ := extreme_taken candle h.attained h.furthest
    refine ⟨?_, ?_, ?_⟩
    · rcases hacceleration with heq | heq <;> rw [heq]
      · exact h.acceleration
      · exact ⟨le_min (by linarith [h.acceleration.1]) hmaximum, min_le_right _ _⟩
    · rw [hrising, hextreme]
      exact hattained
    · rw [hrising, hextreme]
      exact hfurthest

/-- The new stop is held off the candle before, and the extreme is beyond it. -/
theorem Tracked.held_off (h : Tracked step maximum leg since) (hprevious : previous ∈ since)
    (beforePrevious : Option Candle) (candle : Candle) :
    let next := SarTracker.advance step maximum leg previous beforePrevious candle
    AtLeast next.rising next.extreme next.stop ∧
      AtLeast next.rising (previous.adverse next.rising) next.stop := by
  intro next
  have hfar := h.extreme_atLeast hprevious beforePrevious
  -- a turn starts from the old extreme, a continued leg caps its stop
  rcases advance_cases step maximum leg previous beforePrevious candle with
    ⟨hcross, hturn⟩ | ⟨-, hrising, hstop, hextreme, -⟩
  · change next = _ at hturn
    rw [hturn]
    refine ⟨atLeast_not.2 (hfar.trans ?_), atLeast_not.2 ?_⟩
    · rw [← Candle.adverse_not, Bool.not_not]
      exact .of_not hcross
    · rw [Candle.adverse_not]
      exact h.furthest previous hprevious
  · change next.rising = _ at hrising
    rw [hrising, hstop, hextreme]
    refine ⟨?_, (nextStop_le leg previous beforePrevious).1⟩
    refine AtLeast.trans ?_ hfar
    cases leg.rising
    · exact min_le_left _ _
    · exact le_max_left _ _

end Tracked

/-! ### Runs -/

/-- The leg a candle meets: the one carried, or the first one. -/
def metLeg (step : ℚ) (tracker : SarTracker) (previous candle : Candle) : Leg :=
  tracker.leg.getD (firstLeg step previous candle)

/-- The tracker and the candles since the current direction began. The first candle has the
direction that is taken from the first transition. -/
def watch (step maximum : ℚ) (state : SarTracker × List Candle) (candle : Candle) :
    SarTracker × List Candle :=
  ((update step maximum state.1 candle).1,
    match state.1.previous with
    | none => [candle]
    | some previous =>
      let met := metLeg step state.1 previous candle
      let leg := advance step maximum met previous state.1.beforePrevious candle
      if leg.rising = met.rising then state.2 ++ [candle] else [candle])

/-- The state of a run, watched. -/
def watched (step maximum : ℚ) (candles : List Candle) : SarTracker × List Candle :=
  candles.foldl (watch step maximum) (new, [])

/-- The invariant of a run. -/
def Carried (step maximum : ℚ) (state : SarTracker × List Candle) : Prop :=
  match state.1.previous with
  | none => state.1.leg = none ∧ state.1.beforePrevious = none
  | some previous => previous ∈ state.2 ∧
    match state.1.leg with
    | none => state.2 = [previous] ∧ state.1.beforePrevious = none
    | some leg => Tracked step maximum leg state.2 ∧ AtLeast leg.rising leg.extreme leg.stop ∧
      ∀ bar ∈ state.1.beforePrevious, AtLeast leg.rising (bar.adverse leg.rising) leg.stop

/-- Whether carried or the first, the leg a candle meets is tracked. -/
theorem Carried.met {state : SarTracker × List Candle} (h : Carried step maximum state)
    (hmaximum : step ≤ maximum) {previous : Candle} (hprevious : state.1.previous = some previous)
    (candle : Candle) :
    let met := metLeg step state.1 previous candle
    previous ∈ state.2 ∧ Tracked step maximum met state.2 ∧
      AtLeast met.rising met.extreme met.stop ∧
      ∀ bar ∈ state.1.beforePrevious, AtLeast met.rising (bar.adverse met.rising) met.stop := by
  obtain ⟨⟨leg, previous', beforePrevious⟩, since⟩ := state
  obtain rfl : previous' = some previous := hprevious
  cases leg with
  | some leg => exact ⟨h.1, h.2⟩
  | none =>
    obtain ⟨hmem, hsince, hbefore⟩ := h
    simp only at hsince hbefore
    subst hsince hbefore
    exact ⟨hmem, tracked_firstLeg hmaximum previous candle,
      previous.favourable_atLeast _, by simp⟩

theorem Carried.watch {state : SarTracker × List Candle} (h : Carried step maximum state)
    (hstep : 0 < step) (hmaximum : step ≤ maximum) (candle : Candle) :
    Carried step maximum (watch step maximum state candle) := by
  obtain ⟨⟨leg, previous, beforePrevious⟩, since⟩ := state
  cases previous with
  | none =>
    obtain ⟨hleg, hbefore⟩ := h
    simp only at hleg hbefore
    subst hleg hbefore
    exact ⟨by simp [SarTracker.watch], rfl, rfl⟩
  | some previous =>
    obtain ⟨hmem, htracked, -⟩ := h.met hmaximum rfl candle
    obtain ⟨hextreme, hoff⟩ := htracked.held_off hmem beforePrevious candle
    refine ⟨?_, htracked.advance hstep hmaximum candle, hextreme, fun bar hbar => ?_⟩
    · simp only [SarTracker.watch]
      split <;> simp
    · obtain rfl := Option.some.inj hbar
      exact hoff

theorem carried_watched (hstep : 0 < step) (hmaximum : step ≤ maximum) (candles : List Candle) :
    Carried step maximum (watched step maximum candles) := by
  induction candles using List.reverseRecOn with
  | nil => exact ⟨rfl, rfl⟩
  | append_singleton candles candle ih =>
    rw [watched, List.foldl_append]
    exact ih.watch hstep hmaximum candle

theorem watched_concat (candles : List Candle) (candle : Candle) :
    watched step maximum (candles ++ [candle]) =
      watch step maximum (watched step maximum candles) candle := by
  rw [watched, List.foldl_append]
  rfl

/-- Watching changes nothing. -/
theorem watched_fst (step maximum : ℚ) (candles : List Candle) :
    (watched step maximum candles).1 = final (update step maximum) new candles := by
  induction candles using List.reverseRecOn with
  | nil => rfl
  | append_singleton candles candle ih => rw [watched_concat, final_concat, ← ih, watch]

theorem previous_final (candles : List Candle) (candle : Candle) :
    (final (update step maximum) new (candles ++ [candle])).previous = some candle := by
  rw [final_concat, update]
  split <;> rfl

end SarTracker

/-! ### What holds after every candle from the second on -/

open SarTracker

/-- The leg that a candle meets after the candles before it. -/
def legBefore (step maximum : ℚ) (seen : List Candle) (previous candle : Candle) : Leg :=
  metLeg step (final (SarTracker.update step maximum) .new (seen ++ [previous])) previous candle

/-- The leg after a candle. -/
def legAfter (step maximum : ℚ) (seen : List Candle) (previous candle : Candle) : Leg :=
  advance step maximum (legBefore step maximum seen previous candle) previous
    (final (SarTracker.update step maximum) .new (seen ++ [previous])).beforePrevious candle

/-- The candles since the direction after a candle began. -/
def sinceTurn (step maximum : ℚ) (seen : List Candle) (previous candle : Candle) : List Candle :=
  (watched step maximum (seen ++ [previous] ++ [candle])).2

/-- The candles since the turn are those of the leg and this one, or this one alone. -/
theorem sinceTurn_eq (step maximum : ℚ) (seen : List Candle) (previous candle : Candle) :
    sinceTurn step maximum seen previous candle =
      if (legAfter step maximum seen previous candle).rising =
        (legBefore step maximum seen previous candle).rising then
        (watched step maximum (seen ++ [previous])).2 ++ [candle] else [candle] := by
  have hprevious : (watched step maximum (seen ++ [previous])).1.previous = some previous := by
    rw [watched_fst, previous_final]
  rw [sinceTurn, watched_concat, SarTracker.watch, hprevious, watched_fst]
  rfl

/-- A kept direction means that the candle did not cross the stop, which has moved on. -/
theorem legAfter_of_kept (step maximum : ℚ) (seen : List Candle) (previous candle : Candle)
    (hkept : (legAfter step maximum seen previous candle).rising =
      (legBefore step maximum seen previous candle).rising) :
    (legAfter step maximum seen previous candle).Protective candle ∧
      (legAfter step maximum seen previous candle).stop =
        nextStop (legBefore step maximum seen previous candle) previous
          (final (SarTracker.update step maximum) .new (seen ++ [previous])).beforePrevious := by
  rcases advance_cases step maximum (legBefore step maximum seen previous candle) previous
    (final (SarTracker.update step maximum) .new (seen ++ [previous])).beforePrevious candle with
    ⟨-, hturn⟩ | ⟨hside, hrising, hstop, -⟩
  · rw [legAfter, hturn] at hkept
    exact absurd hkept (by simp)
  · refine ⟨?_, hstop⟩
    rw [Leg.Protective, legAfter, hrising, hstop]
    exact hside

/-- A turn starts a new leg from the old extreme. -/
theorem legAfter_of_turned (step maximum : ℚ) (seen : List Candle) (previous candle : Candle)
    (hturned : (legAfter step maximum seen previous candle).rising ≠
      (legBefore step maximum seen previous candle).rising) :
    legAfter step maximum seen previous candle =
      ⟨!(legBefore step maximum seen previous candle).rising,
        (legBefore step maximum seen previous candle).extreme,
        candle.favourable (!(legBefore step maximum seen previous candle).rising), step⟩ := by
  rcases advance_cases step maximum (legBefore step maximum seen previous candle) previous
    (final (SarTracker.update step maximum) .new (seen ++ [previous])).beforePrevious candle with
    ⟨-, hturn⟩ | ⟨-, hrising, -⟩
  · exact hturn
  · exact absurd hrising hturned

/-- **Wilder's rules after a candle.** The stop published is that of the leg. A step that keeps
the direction leaves the stop on the far side of the candle. A turn puts it at the old extreme,
which is on that side exactly when the candle does not pass that extreme. While the direction is
kept the stop moves against it exactly after a stop that was not on the far side. -/
structure SarStep (step maximum : ℚ) (seen : List Candle) (previous candle : Candle) : Prop where
  published : ∃ series, parabolicSar (seen ++ [previous] ++ [candle]) step maximum = .ok series ∧
    series.getLast? = some (some (legAfter step maximum seen previous candle).stop)
  acceleration : step ≤ (legAfter step maximum seen previous candle).acceleration ∧
    (legAfter step maximum seen previous candle).acceleration ≤ maximum
  attained : ∃ c ∈ sinceTurn step maximum seen previous candle,
    c.favourable (legAfter step maximum seen previous candle).rising =
      (legAfter step maximum seen previous candle).extreme
  furthest : ∀ c ∈ sinceTurn step maximum seen previous candle,
    AtLeast (legAfter step maximum seen previous candle).rising
      (legAfter step maximum seen previous candle).extreme
      (c.favourable (legAfter step maximum seen previous candle).rising)
  kept : (legAfter step maximum seen previous candle).rising =
      (legBefore step maximum seen previous candle).rising →
    (legAfter step maximum seen previous candle).Protective candle
  turned : (legAfter step maximum seen previous candle).rising ≠
      (legBefore step maximum seen previous candle).rising →
    (legAfter step maximum seen previous candle).stop =
      (legBefore step maximum seen previous candle).extreme ∧
    ((legAfter step maximum seen previous candle).Protective candle ↔
      AtLeast (legBefore step maximum seen previous candle).rising
        (legBefore step maximum seen previous candle).extreme
        (candle.favourable (legBefore step maximum seen previous candle).rising))
  held : (legAfter step maximum seen previous candle).rising =
      (legBefore step maximum seen previous candle).rising →
    (AtLeast (legAfter step maximum seen previous candle).rising
      (legAfter step maximum seen previous candle).stop
      (legBefore step maximum seen previous candle).stop ↔
    (legBefore step maximum seen previous candle).Protective previous)

/-- **The stop and reverse.** For every step and maximum the constructor accepts and every series
of candles the published stop is that of the leg, its acceleration is within bounds, the extreme
is the furthest price since the last turn, and the stop is on the protective side of a candle that
does not turn it. -/
theorem sarStep (hstep : 0 < step) (hmaximum : step ≤ maximum) (seen : List Candle)
    (previous candle : Candle) : SarStep step maximum seen previous candle := by
  set tracker := final (SarTracker.update step maximum) .new (seen ++ [previous]) with htracker
  have hprevious : tracker.previous = some previous := previous_final seen previous
  have hcarried := carried_watched hstep hmaximum (seen ++ [previous])
  have hfst := watched_fst step maximum (seen ++ [previous])
  rw [← htracker] at hfst
  -- what the run has watched so far, met by one more candle
  obtain ⟨hmem, htracked, hextreme, hbefore⟩ :=
    hcarried.met hmaximum (hfst ▸ hprevious) candle
  rw [hfst] at htracked hextreme hbefore
  change Tracked _ _ (legBefore step maximum seen previous candle) _ at htracked
  have hsince := sinceTurn_eq step maximum seen previous candle
  -- the leg after the candle is tracked since its own turn
  have hadvance : Tracked step maximum (legAfter step maximum seen previous candle)
      (sinceTurn step maximum seen previous candle) := by
    rw [hsince]
    exact htracked.advance hstep hmaximum candle
  have hnextStop := legAfter_of_kept step maximum seen previous candle
  rw [← htracker] at hnextStop
  refine ⟨⟨outputs (SarTracker.update step maximum) .new (seen ++ [previous] ++ [candle]), ?_, ?_⟩,
    hadvance.acceleration, hadvance.attained, hadvance.furthest,
    fun hkept => (hnextStop hkept).1, ?_, ?_⟩
  · rw [parabolicSar, if_neg (by push Not; constructor <;> linarith), if_neg (not_lt.2 hmaximum)]
  · rw [outputs_concat, List.getLast?_concat, ← htracker, SarTracker.update, hprevious]
    rfl
  · intro hturned
    rw [legAfter_of_turned step maximum seen previous candle hturned, Leg.Protective]
    refine ⟨rfl, ?_⟩
    rw [Candle.adverse_not, atLeast_not]
  · intro hkept
    rw [(hnextStop hkept).2, hkept]
    constructor
    · intro hle
      exact AtLeast.trans (nextStop_le _ previous tracker.beforePrevious).1 hle
    · intro hprotective
      exact le_nextStop (hstep.le.trans htracked.acceleration.1) hextreme hprotective hbefore

/-- Three candles of a rise. -/
theorem sarStep_of_rise :
    (0 : ℚ) < 1 / 50 ∧ (1 / 50 : ℚ) ≤ 1 / 5 ∧ SarStep (1 / 50) (1 / 5)
      [.flat 1 (by decide)] (.flat 2 (by decide)) (.flat 3 (by decide)) :=
  ⟨by norm_num, by norm_num, sarStep (by norm_num) (by norm_num) _ _ _⟩

theorem ten_pos : (0 : ℚ) < 10 := by norm_num

theorem ten_le (high : ℕ) (h : 10 ≤ high) : (10 : ℚ) ≤ high := Nat.ofNat_le_cast.2 h

theorem le_ten (low : ℕ) (h : low ≤ 10) : (low : ℚ) ≤ 10 := Nat.cast_le_ofNat.2 h

/-- A candle around 10, with its highest and lowest price. -/
def around (high low : ℕ) (hhigh : 10 ≤ high) (hlow : low ≤ 10) (hpos : 0 < low) : Candle where
  «open» := 10
  high := high
  low := low
  close := 10
  volume := 0
  open_pos := ten_pos
  low_pos := Candle.price_pos low hpos
  close_pos := ten_pos
  open_le_high := ten_le high hhigh
  close_le_high := ten_le high hhigh
  low_le_open := le_ten low hlow
  low_le_close := le_ten low hlow
  volume_nonneg := Candle.no_volume

/-- An outside bar that makes a new high and crosses the stop: the falling stop 11 published with
it is below its high 12. -/
theorem not_protective_of_outside_bar :
    (legAfter (1 / 50) (1 / 5) [] (around 11 9 (by decide) (by decide) (by decide))
      (around 12 8 (by decide) (by decide) (by decide))).rising = false ∧
    ¬ (legAfter (1 / 50) (1 / 5) [] (around 11 9 (by decide) (by decide) (by decide))
      (around 12 8 (by decide) (by decide) (by decide))).Protective
      (around 12 8 (by decide) (by decide) (by decide)) := by
  unfold Leg.Protective
  decide +kernel

end Indicators
end TradingSystem
