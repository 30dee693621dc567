import TradingSystem.Indicators.Primitives
import TradingSystem.Streaming.Window
import Mathlib.Data.List.MinMax
import Mathlib.Tactic.Linarith

/-!
# The rolling primitives as functions of their window

* `outputs_smaState` — the running total is the sum of the window.
* `outputs_rollingExtremeState` — the first candidate of the queue is the extreme of the window;
  `Queued` is the invariant of the queue.
* `outputs_rollingExtreme`, `outputs_roc` — the states give the batch series.
* `primitives_exact` — all the primitives at once.
-/

namespace TradingSystem
namespace Indicators

open Streaming

/-! ### The simple average -/

/-- The mean of a complete window. -/
def windowMean (period : ℕ) (values : List Value) : Value :=
  (completeWindow period values).map fun window => window.sum / period

theorem count_none_eq_zero {window : List Value} :
    (window.count none : ℤ) = 0 ↔ none ∉ window := by
  rw [Int.natCast_eq_zero, List.count_eq_zero]

namespace SmaState

/-- The state of a window. -/
def ofWindow (window : List Value) : SmaState :=
  ⟨window, window.reduceOption.sum, window.count none⟩

theorem add_ofWindow (window : List Value) (value : Value) :
    (ofWindow window).add value = ofWindow (window ++ [value]) := by
  cases value <;> simp [ofWindow, add, List.reduceOption]

theorem evict_ofWindow (period : ℕ) (window : List Value) :
    (ofWindow window).evict period =
      ofWindow (if period < window.length then window.tail else window) := by
  by_cases hlong : period < window.length
  · rw [if_pos hlong, evict, if_pos (by exact hlong)]
    rcases window with _ | ⟨_ | oldest, rest⟩
    · rfl
    · simp [ofWindow, List.reduceOption_cons_of_none]
    · simp [ofWindow, List.reduceOption_cons_of_some]
  · rw [if_neg hlong, evict, if_neg (by exact hlong)]

/-- After any values the state is that of the last ones. -/
theorem final_eq (period : ℕ) (values : List Value) :
    final (update period) .new values = ofWindow (values.rtake period) := by
  induction values using List.reverseRecOn with
  | nil => simp [new, ofWindow, List.rtake]
  | append_singleton values value ih =>
    rw [final_concat, ih, update, add_ofWindow, evict_ofWindow, ← push_rtake]
    rfl

theorem current_ofWindow (period : ℕ) (values : List Value) :
    (ofWindow (values.rtake period)).current period = windowMean period values := by
  simp only [current, warmedUp, ofWindow, count_none_eq_zero, windowMean, completeWindow]
  split <;> rfl

end SmaState

/-- The average is the mean of the window. -/
theorem outputs_smaState (period : ℕ) (values : List Value) :
    outputs (SmaState.update period) .new values = prefixes (windowMean period) values := by
  apply outputs_eq_prefixes
  intro xs x
  rw [← SmaState.current_ofWindow, ← SmaState.final_eq, final_concat]
  rfl

theorem sma_eq (period : ℕ) (values : List Value) :
    sma values period = prefixes (windowMean period) values := by
  rw [← outputs_sma, outputs_smaState]

/-! ### The queue of candidates -/

/-- A value at least as far out as another. -/
def AtLeast (highest : Bool) (x y : ℚ) : Prop := if highest then y ≤ x else x ≤ y

instance (highest : Bool) (x y : ℚ) : Decidable (AtLeast highest x y) :=
  inferInstanceAs (Decidable (if highest then y ≤ x else x ≤ y))

namespace AtLeast

variable {highest : Bool} {x y z : ℚ}

theorem refl (x : ℚ) : AtLeast highest x x := by cases highest <;> exact le_refl x

theorem trans (h : AtLeast highest x y) (h' : AtLeast highest y z) : AtLeast highest x z := by
  cases highest
  · exact le_trans h h'
  · exact le_trans h' h

theorem of_not (h : ¬ AtLeast highest x y) : AtLeast highest y x := by
  cases highest
  · exact (not_le.1 h).le
  · exact (not_le.1 h).le

end AtLeast

theorem givesWay_iff {highest : Bool} {value : ℚ} {candidate : ℤ × ℚ} :
    givesWay highest value candidate = true ↔ AtLeast highest value candidate.2 := by
  cases highest <;> simp [givesWay, AtLeast]

/-- **The invariant of the queue.** The candidates are places of the window, in order and each
further out than the next; every value after the last gap of the window has a candidate that is
at least as far out and not older. -/
structure Queued (highest : Bool) (period : ℕ) (values : List Value) (candidates : List (ℤ × ℚ)) :
    Prop where
  ordered : candidates.Pairwise fun a b => a.1 < b.1
  further : candidates.Pairwise fun a b => AtLeast highest a.2 b.2
  place : ∀ c ∈ candidates, ∃ i : ℕ, c.1 = i ∧ values.length ≤ i + period ∧
    values[i]? = some (some c.2)
  covered : ∀ i x, values[i]? = some (some x) → values.length ≤ i + period →
    (∀ j y, i ≤ j → values[j]? = some y → y.isSome) → ∃ c ∈ candidates, (i : ℤ) ≤ c.1 ∧
      AtLeast highest c.2 x

namespace Queued

variable {highest : Bool} {period : ℕ} {values : List Value} {candidates : List (ℤ × ℚ)}

theorem nil : Queued highest period [] [] where
  ordered := .nil
  further := .nil
  place := by simp
  covered := by simp

/-- An undefined value empties the queue. -/
theorem concat_none : Queued highest period (values ++ [none]) [] where
  ordered := .nil
  further := .nil
  place := by simp
  covered i x hi _ hall := by
    obtain ⟨hlt, _⟩ := List.getElem?_eq_some_iff.1 hi
    have hlast := hall values.length none (by simp at hlt; omega) (by simp)
    cases hlast

theorem mem_rdropWhile_or {p : ℤ × ℚ → Bool} {l : List (ℤ × ℚ)} {c : ℤ × ℚ} (h : c ∈ l) :
    c ∈ l.rdropWhile p ∨ p c = true := by
  rw [← List.mem_reverse, ← List.takeWhile_append_dropWhile (p := p) (l := l.reverse),
    List.mem_append] at h
  rcases h with h | h
  · exact .inr (List.mem_takeWhile_imp h)
  · exact .inl (List.mem_reverse.2 h)

/-- What is left of the queue when it makes room for a value is at least as far out. -/
theorem atLeast_of_mem_rdropWhile (h : Queued highest period values candidates) {x : ℚ}
    {c : ℤ × ℚ} (hc : c ∈ candidates.rdropWhile (givesWay highest x)) :
    AtLeast highest c.2 x := by
  have hne : candidates.rdropWhile (givesWay highest x) ≠ [] := List.ne_nil_of_mem hc
  have hlast := List.rdropWhile_last_not (givesWay highest x) candidates hne
  rw [givesWay_iff] at hlast
  have hfurther := h.further.sublist
    (List.rdropWhile_prefix (givesWay highest x) candidates).sublist
  rw [← List.dropLast_append_getLast hne] at hc hfurther
  rcases List.mem_append.1 hc with hc | hc
  · exact ((List.pairwise_append.1 hfurther).2.2 c hc _ (by simp)).trans (.of_not hlast)
  · rw [List.mem_singleton.1 hc]
    exact .of_not hlast

theorem mem_dropWhile_of_ge {l : List (ℤ × ℚ)} {oldest : ℤ} {c : ℤ × ℚ} (hc : c ∈ l)
    (hle : oldest ≤ c.1) : c ∈ l.dropWhile fun candidate => candidate.1 < oldest := by
  rw [← List.takeWhile_append_dropWhile (p := fun candidate : ℤ × ℚ => candidate.1 < oldest)
    (l := l), List.mem_append] at hc
  rcases hc with hc | hc
  · have := List.mem_takeWhile_imp hc
    simp at this
    omega
  · exact hc

theorem ge_of_mem_dropWhile {l : List (ℤ × ℚ)} (hl : l.Pairwise fun a b => a.1 < b.1)
    {oldest : ℤ} {c : ℤ × ℚ} (hc : c ∈ l.dropWhile fun candidate => candidate.1 < oldest) :
    oldest ≤ c.1 := by
  induction l with
  | nil => simp at hc
  | cons a l ih =>
    rw [List.pairwise_cons] at hl
    by_cases ha : a.1 < oldest
    · rw [List.dropWhile_cons_of_pos (by simpa using ha)] at hc
      exact ih hl.2 hc
    · rw [List.dropWhile_cons_of_neg (by simpa using ha)] at hc
      rcases List.mem_cons.1 hc with rfl | hc
      · omega
      · have := hl.1 c hc
        omega

/-- A defined value joins the queue. -/
theorem concat_some (h : Queued highest period values candidates) (hperiod : 0 < period) (x : ℚ) :
    Queued highest period (values ++ [some x])
      ((candidates.rdropWhile (givesWay highest x) ++ [((values.length : ℤ), x)]).dropWhile
        fun candidate => candidate.1 < (values.length : ℤ) - period + 1) := by
  set kept := candidates.rdropWhile (givesWay highest x) with hkept
  -- values that give way leave the back, candidates out of the window leave the front
  have hsub : kept.Sublist candidates := (List.rdropWhile_prefix _ _).sublist
  have hordered : (kept ++ [((values.length : ℤ), x)]).Pairwise fun a b => a.1 < b.1 := by
    refine List.pairwise_append.2 ⟨h.ordered.sublist hsub, by simp, fun a ha b hb => ?_⟩
    obtain ⟨i, hi, -, hvalue⟩ := h.place a (hsub.subset ha)
    obtain ⟨hlt, -⟩ := List.getElem?_eq_some_iff.1 hvalue
    rw [List.mem_singleton.1 hb, hi]
    exact Int.ofNat_lt.2 hlt
  have hfurther : (kept ++ [((values.length : ℤ), x)]).Pairwise
      fun a b => AtLeast highest a.2 b.2 := by
    refine List.pairwise_append.2 ⟨h.further.sublist hsub, by simp, fun a ha b hb => ?_⟩
    rw [List.mem_singleton.1 hb]
    exact h.atLeast_of_mem_rdropWhile ha
  constructor
  · exact hordered.sublist (List.dropWhile_sublist _)
  · exact hfurther.sublist (List.dropWhile_sublist _)
  · intro c hc
    have hge := ge_of_mem_dropWhile hordered hc
    rcases List.mem_append.1 ((List.dropWhile_sublist _).subset hc) with hc | hc
    · obtain ⟨i, hi, -, hvalue⟩ := h.place c (hsub.subset hc)
      obtain ⟨hlt, -⟩ := List.getElem?_eq_some_iff.1 hvalue
      refine ⟨i, hi, by simp; omega, ?_⟩
      rw [List.getElem?_append_left hlt, hvalue]
    · obtain rfl := List.mem_singleton.1 hc
      exact ⟨values.length, rfl, by simp; omega, by simp⟩
  · intro i y hi hin hall
    simp only [List.length_append, List.length_singleton] at hin
    have hnew : (((values.length : ℤ), x) : ℤ × ℚ) ∈
        (kept ++ [((values.length : ℤ), x)]).dropWhile
          fun candidate => candidate.1 < (values.length : ℤ) - period + 1 :=
      mem_dropWhile_of_ge (by simp) (by simp; omega)
    by_cases hlast : i < values.length
    · rw [List.getElem?_append_left hlast] at hi
      obtain ⟨c, hc, hic, hfar⟩ := h.covered i y hi (by omega) fun j z hij hz =>
        hall j z hij (by
          rw [List.getElem?_append_left (List.getElem?_eq_some_iff.1 hz).1]
          exact hz)
      -- the candidate that stood for the place either stays or gives way to the new value
      rcases mem_rdropWhile_or (p := givesWay highest x) hc with hstay | hgives
      · exact ⟨c, mem_dropWhile_of_ge (List.mem_append_left _ hstay) (by omega), hic, hfar⟩
      · exact ⟨_, hnew, by simp; omega, (givesWay_iff.1 hgives).trans hfar⟩
    · -- the new value stands for itself
      have hlt := (List.getElem?_eq_some_iff.1 hi).1
      simp only [List.length_append, List.length_singleton] at hlt
      obtain rfl : i = values.length := by omega
      simp only [List.getElem?_concat_length, Option.some.injEq] at hi
      exact ⟨_, hnew, le_refl _, hi ▸ AtLeast.refl x⟩

end Queued

/-! ### The extreme of the window -/

/-- The highest or lowest value of a complete window. -/
def windowExtreme (highest : Bool) (period : ℕ) (values : List Value) : Value :=
  (completeWindow period values).bind fun window => if highest then window.max? else window.min?

theorem extreme_eq {highest : Bool} {window : List ℚ} {x : ℚ} (hmem : x ∈ window)
    (hall : ∀ y ∈ window, AtLeast highest x y) :
    (if highest then window.max? else window.min?) = some x := by
  cases highest
  · exact List.min?_eq_some_iff.2 ⟨hmem, hall⟩
  · exact List.max?_eq_some_iff.2 ⟨hmem, hall⟩

/-- Of a complete window the first candidate is the extreme. -/
theorem Queued.head {highest : Bool} {period : ℕ} {values : List Value}
    {candidates : List (ℤ × ℚ)} (h : Queued highest period values candidates)
    (hperiod : 0 < period) {window : List ℚ}
    (hwindow : completeWindow period values = some window) :
    ∃ first rest, candidates = first :: rest ∧
      windowExtreme highest period values = some first.2 := by
  obtain ⟨hmap, hlength⟩ := completeWindow_eq_some.1 hwindow
  have hle : period ≤ values.length := by
    have := congrArg List.length hmap
    rw [length_rtake, List.length_map] at this
    omega
  -- the places of the window
  have hplace : ∀ i, values.length ≤ i + period → ∀ z, values[i]? = some z → ∃ y ∈ window,
      z = some y := by
    intro i hi z hz
    have hmem : z ∈ values.rtake period := by
      rw [List.rtake, List.mem_drop_iff_getElem]
      obtain ⟨hlt, hget⟩ := List.getElem?_eq_some_iff.1 hz
      exact ⟨i - (values.length - period), by omega, by simp [show values.length - period +
        (i - (values.length - period)) = i by omega, hget]⟩
    rw [hmap, List.mem_map] at hmem
    obtain ⟨y, hy, rfl⟩ := hmem
    exact ⟨y, hy, rfl⟩
  have hcover : ∀ y ∈ window, ∃ c ∈ candidates, AtLeast highest c.2 y := by
    intro y hy
    have hmem : some y ∈ values.rtake period := hmap ▸ List.mem_map_of_mem hy
    rw [List.rtake, List.mem_drop_iff_getElem] at hmem
    obtain ⟨i, hi, hget⟩ := hmem
    obtain ⟨c, hc, -, hfar⟩ := h.covered (values.length - period + i) y
      (List.getElem?_eq_some_iff.2 ⟨by omega, hget⟩) (by omega) fun j z hij hz => by
        obtain ⟨w, -, rfl⟩ := hplace j (by omega) z hz
        rfl
    exact ⟨c, hc, hfar⟩
  obtain ⟨y, ys, rfl⟩ := List.exists_cons_of_length_pos (l := window) (by omega)
  obtain ⟨c, hc, -⟩ := hcover y (by simp)
  obtain ⟨first, rest, rfl⟩ := List.exists_cons_of_ne_nil (List.ne_nil_of_mem hc)
  refine ⟨first, rest, rfl, ?_⟩
  rw [windowExtreme, hwindow, Option.bind_some]
  apply extreme_eq
  · -- the first candidate is a value of the window, and no other goes further
    obtain ⟨i, -, hi, hget⟩ := h.place first (by simp)
    obtain ⟨z, hz, heq⟩ := hplace i hi _ hget
    rw [Option.some.inj heq]
    exact hz
  · intro z hz
    obtain ⟨c, hc, hfar⟩ := hcover z hz
    rcases List.mem_cons.1 hc with rfl | hc
    · exact hfar
    · exact ((List.pairwise_cons.1 h.further).1 c hc).trans hfar

theorem windowExtreme_eq_none {highest : Bool} {period : ℕ} {values : List Value}
    (h : completeWindow period values = none) : windowExtreme highest period values = none := by
  rw [windowExtreme, h, Option.bind_none]

namespace RollingExtremeState

/-- What a state says of the values it has seen. -/
structure Sees (highest : Bool) (period : ℕ) (values : List Value)
    (state : RollingExtremeState) : Prop where
  queued : Queued highest period values state.candidates
  window : state.window = values.rtake period
  index : state.index = (values.length : ℤ) - 1
  invalid : state.invalid = (values.rtake period).count none

namespace Sees

variable {highest : Bool} {period : ℕ} {values : List Value} {state : RollingExtremeState}

theorem evict_expire (highest : Bool) (hwindow : state.window = values.rtake period)
    (hinvalid : state.invalid = (values.rtake period).count none) (value : Value) :
    let next := ((state.add highest value).evict period).expire period
    next.window = (values ++ [value]).rtake period ∧
      next.invalid = ((values ++ [value]).rtake period).count none := by
  rw [← push_rtake, ← hwindow]
  rw [← hwindow] at hinvalid
  clear hwindow
  obtain ⟨candidates, window, index, invalid⟩ := state
  simp only at hinvalid
  subst hinvalid
  by_cases hlong : period < (window ++ [value]).length
  · rw [push, if_pos hlong]
    rcases value with _ | x <;> rcases window with _ | ⟨_ | oldest, rest⟩ <;>
      simp_all [add, evict, expire]
  · rw [push, if_neg hlong]
    have hshort : ¬ period < window.length + 1 := by
      rwa [List.length_append, List.length_singleton] at hlong
    rcases value with _ | x <;> simp [add, evict, expire, hshort]

theorem evict_candidates (state : RollingExtremeState) :
    (state.evict period).candidates = state.candidates := by
  rw [evict]
  split
  · split <;> rfl
  · rfl

theorem evict_index (state : RollingExtremeState) :
    (state.evict period).index = state.index := by
  rw [evict]
  split
  · split <;> rfl
  · rfl

/-- One more value. -/
theorem update (h : Sees highest period values state) (hperiod : 0 < period) (value : Value) :
    Sees highest period (values ++ [value]) (state.update period highest value).1 := by
  obtain ⟨hwindow, hinvalid⟩ := evict_expire highest h.window h.invalid value
  have hindex : (state.update period highest value).1.index = state.index + 1 := by
    change ((state.add highest value).evict period).index = _
    rw [evict_index]
    cases value <;> rfl
  have hnext : state.index + 1 = values.length := by rw [h.index]; ring
  refine ⟨?_, hwindow, ?_, hinvalid⟩
  · change Queued _ _ _ (((state.add highest value).evict period).candidates.dropWhile fun c =>
      c.1 < ((state.add highest value).evict period).index - period + 1)
    rw [evict_candidates, evict_index]
    cases value with
    | none => exact .concat_none
    | some x =>
      simp only [add, hnext]
      exact h.queued.concat_some hperiod x
  · rw [hindex, hnext, List.length_append, List.length_singleton]
    push_cast
    ring

theorem new : Sees highest period [] new := ⟨.nil, by simp [RollingExtremeState.new, List.rtake],
  rfl, by simp [RollingExtremeState.new, List.rtake]⟩

theorem final (highest : Bool) (hperiod : 0 < period) (values : List Value) :
    Sees highest period values
      (Streaming.final (RollingExtremeState.update period highest) .new values) := by
  induction values using List.reverseRecOn with
  | nil => exact new
  | append_singleton values value ih =>
    rw [final_concat]
    exact ih.update hperiod value

/-- The value reported is the extreme of the window. -/
theorem current (h : Sees highest period values state) (hperiod : 0 < period) :
    state.current period = windowExtreme highest period values := by
  have hwarm : state.warmedUp period ↔ (completeWindow period values).isSome := by
    rw [warmedUp, h.window, h.invalid, count_none_eq_zero, completeWindow]
    split <;> simp_all
  rw [RollingExtremeState.current]
  cases hwindow : completeWindow period values with
  | none => rw [if_neg (by simp [hwarm, hwindow]), windowExtreme_eq_none hwindow]
  | some window =>
    obtain ⟨first, rest, hcandidates, hextreme⟩ := h.queued.head hperiod hwindow
    rw [if_pos (by simp [hwarm, hwindow]), hcandidates, hextreme]

end Sees

end RollingExtremeState

/-- The rolling extreme is the highest or lowest value of the window. -/
theorem outputs_rollingExtremeState {period : ℕ} (hperiod : 0 < period) (highest : Bool)
    (values : List Value) :
    outputs (RollingExtremeState.update period highest) .new values =
      prefixes (windowExtreme highest period) values := by
  apply outputs_eq_prefixes
  intro xs x
  have h := (RollingExtremeState.Sees.final highest hperiod xs).update hperiod x
  exact h.current hperiod

theorem not_any_isNone {window : List Value} :
    ¬ window.any Option.isNone = true ↔ ∀ x ∈ window, x.isSome := by
  refine ⟨fun h x hx => ?_, fun h hany => ?_⟩
  · cases x with
    | none => exact absurd (List.any_eq_true.2 ⟨none, hx, rfl⟩) h
    | some x => rfl
  · obtain ⟨x, hx, hnone⟩ := List.any_eq_true.1 hany
    rw [Option.isNone_iff_eq_none.1 hnone] at hx
    exact absurd (h none hx) Bool.false_ne_true

/-- The slice of the whole series that the batch loop reads is the window so far. -/
theorem slice_eq_rtake {values seen rest : List Value} {value : Value} (period : ℕ)
    (hvalues : values = seen ++ value :: rest) :
    (values.take (seen.length + 1)).drop (seen.length + 1 - period) =
      (seen ++ [value]).rtake period := by
  have htake : values.take (seen.length + 1) = seen ++ [value] := by
    rw [hvalues, List.take_append]
    simp
  rw [htake, List.rtake]
  simp

/-- With the queue of the state, the entry of the batch loop is the extreme of the window. -/
theorem extremeAt_eq {period : ℕ} (hperiod : 0 < period) {highest : Bool}
    {values seen rest : List Value} {value : Value} (hvalues : values = seen ++ value :: rest)
    {state : RollingExtremeState}
    (h : RollingExtremeState.Sees highest period (seen ++ [value]) state) :
    extremeAt period values state.candidates seen.length =
      windowExtreme highest period (seen ++ [value]) := by
  simp only [extremeAt, slice_eq_rtake period hvalues]
  cases hwindow : completeWindow period (seen ++ [value]) with
  | none =>
    rw [windowExtreme_eq_none hwindow]
    -- an incomplete window is too short or has a gap, and the loop asks for both
    have hgap : seen.length + 1 < period ∨ ((seen ++ [value]).rtake period).any Option.isNone := by
      by_contra hcon
      push Not at hcon
      have hsome : (completeWindow period (seen ++ [value])).isSome ↔ _ := completeWindow_isSome
      rw [hwindow] at hsome
      simp only [Option.isSome_none, Bool.false_eq_true, false_iff, List.length_append,
        List.length_singleton] at hsome
      exact hsome ⟨by omega, not_any_isNone.1 (by simpa using hcon.2)⟩
    split
    · rfl
    · split
      · rfl
      · rw [if_pos (hgap.resolve_left ‹_›)]
  | some window =>
    obtain ⟨first, others, hcons, hextreme⟩ := h.queued.head hperiod hwindow
    obtain ⟨hle, hall⟩ := completeWindow_isSome.1 (hwindow ▸ rfl :
      (completeWindow period (seen ++ [value])).isSome)
    simp only [List.length_append, List.length_singleton] at hle
    have hany := not_any_isNone.2 hall
    rw [hextreme, hcons]
    simp only [if_neg (show ¬ seen.length + 1 < period by omega), if_neg hany]

/-- The batch loop keeps the queue of the state. -/
theorem outputs_rollingExtremeLoop {period : ℕ} (hperiod : 0 < period) (highest : Bool)
    (values rest seen : List Value) (hvalues : values = seen ++ rest)
    {state : RollingExtremeState} (h : RollingExtremeState.Sees highest period seen state) :
    outputs (RollingExtremeState.update period highest) state rest =
      rollingExtremeLoop period highest values state.candidates seen.length rest := by
  induction rest generalizing seen state with
  | nil => rfl
  | cons value rest ih =>
    have hnext := h.update hperiod value
    have hindex : state.index + 1 = seen.length := by rw [h.index]; ring
    have hcandidates : (state.update period highest value).1.candidates =
        nextCandidates period highest state.candidates seen.length value := by
      change ((state.add highest value).evict period).candidates.dropWhile _ = _
      rw [RollingExtremeState.Sees.evict_candidates, RollingExtremeState.Sees.evict_index]
      cases value <;> simp only [RollingExtremeState.add, hindex, nextCandidates]
    have hout : (state.update period highest value).2 =
        windowExtreme highest period (seen ++ [value]) := hnext.current hperiod
    rw [outputs_cons, ih (seen ++ [value]) (by simp [hvalues]) hnext, rollingExtremeLoop, hout,
      List.length_append, List.length_singleton, ← hcandidates, extremeAt_eq hperiod hvalues hnext]

/-- Fed one by one, `RollingExtremeState` gives the series of `hh` and `ll`. -/
theorem outputs_rollingExtreme {period : ℕ} (hperiod : 0 < period) (highest : Bool)
    (values : List Value) :
    outputs (RollingExtremeState.update period highest) .new values =
      rollingExtreme values period highest :=
  outputs_rollingExtremeLoop hperiod highest values values [] rfl .new

theorem rollingExtreme_eq {period : ℕ} (hperiod : 0 < period) (highest : Bool)
    (values : List Value) :
    rollingExtreme values period highest = prefixes (windowExtreme highest period) values := by
  rw [← outputs_rollingExtreme hperiod, outputs_rollingExtremeState hperiod]

/-! ### The rate of change -/

/-- The change against the value `period` places before. -/
def windowChange (percentage : Bool) (period : ℕ) (values : List Value) : Value :=
  RocState.current percentage period (values.rtake (period + 1))

theorem outputs_rocState (percentage : Bool) (period : ℕ) (values : List Value) :
    outputs (RocState.update percentage period) [] values =
      prefixes (windowChange percentage period) values := by
  apply outputs_eq_prefixes
  intro xs x
  have hfinal : final (RocState.update percentage period) [] xs = xs.rtake (period + 1) :=
    foldl_push (period + 1) xs
  rw [hfinal, RocState.update, push_rtake, windowChange]

section Lagged

variable (change : Value → Value → Value)

theorem length_lagged (values : List Value) (period : ℕ) :
    (lagged change values period).length = values.length := by
  simp [lagged]
  omega

theorem getElem_lagged (values : List Value) (period i : ℕ)
    (h : i < (lagged change values period).length) :
    (lagged change values period)[i] = if i < period then NAN
      else change (values.getD (i - period) NAN) (values.getD i NAN) := by
  have hlt : i < values.length := length_lagged change values period ▸ h
  simp only [lagged]
  split
  · rename_i hi
    rw [List.getElem_append_left (by simp; omega), List.getElem_replicate]
  · rename_i hi
    rw [List.getElem_append_right (by simp; omega)]
    simp only [List.length_replicate, List.getElem_map, List.getElem_range',
      Nat.min_eq_left (show period ≤ values.length by omega),
      show period + 1 * (i - period) = i by omega]

end Lagged

theorem length_roc (values : List Value) (period : ℕ) : (roc values period).length =
    values.length :=
  length_lagged change values period

theorem getElem_roc (values : List Value) (period i : ℕ) (h : i < (roc values period).length) :
    (roc values period)[i] = if i < period then NAN
      else change (values.getD (i - period) NAN) (values.getD i NAN) :=
  getElem_lagged change values period i h

theorem windowChange_take (percentage : Bool) (values : List Value) (period : ℕ) {i : ℕ}
    (h : i < values.length) :
    windowChange percentage period (values.take (i + 1)) = if i < period then NAN
      else RocState.changeOf percentage (values.getD (i - period) NAN) (values.getD i NAN) := by
  have hlength : (values.take (i + 1)).length = i + 1 := by simp; omega
  rw [windowChange, RocState.current, length_rtake, hlength]
  split
  · rename_i hi
    rw [if_neg (by omega), List.rtake, hlength,
      show i + 1 - (period + 1) = i - period by omega]
    congr 1
    · rw [List.headD_eq_head?_getD, List.head?_drop, List.getElem?_take_of_lt (by omega),
        List.getD_eq_getElem?_getD]
    · rw [List.getLastD_eq_getLast?, List.getLast?_drop, if_neg (by omega),
        List.getLast?_take, if_neg (by omega), List.getD_eq_getElem?_getD]
      simp [h]
  · rw [if_pos (by omega)]

/-- Fed one by one, `RocState` gives the series of its change. -/
theorem outputs_lagged (percentage : Bool) (period : ℕ) (values : List Value) :
    outputs (RocState.update percentage period) [] values =
      lagged (RocState.changeOf percentage) values period := by
  rw [outputs_rocState]
  apply List.ext_getElem (by simp [length_lagged])
  intro i hi hi'
  have hlt : i < values.length := by simpa using hi
  rw [getElem_prefixes, windowChange_take percentage values period hlt, getElem_lagged]

/-- In percent that is `roc`. -/
theorem outputs_roc (period : ℕ) (values : List Value) :
    outputs (RocState.update true period) [] values = roc values period :=
  outputs_lagged true period values

/-- Raw it is `mom`. -/
theorem outputs_mom (period : ℕ) (values : List Value) :
    outputs (RocState.update false period) [] values = mom values period :=
  outputs_lagged false period values

/-! ### All the primitives -/

/-- What feeding the states one value at a time gives, against the batch functions. -/
structure StreamingEqBatch (period : ℕ) (values : List Value) : Prop where
  sma : outputs (SmaState.update period) .new values = sma values period
  ema : outputs (EmaState.update period) .new values = ema values period
  rma : outputs (RmaState.update period) .new values = rma values period
  highest : outputs (RollingExtremeState.update period true) .new values = hh values period
  lowest : outputs (RollingExtremeState.update period false) .new values = ll values period
  cumulative : outputs CumulativeState.update .new values = cumulative values
  roc : outputs (RocState.update true period) [] values = roc values period
  mom : outputs (RocState.update false period) [] values = mom values period

/-- The rolling extremes are those of the last `period` values: defined when these are all
defined, and then the greatest and the least of them. -/
structure ExtremesOfWindow (period : ℕ) (values : List Value) : Prop where
  length : (hh values period).length = values.length ∧ (ll values period).length = values.length
  highest : ∀ i (h : i < (hh values period).length) (x : ℚ), (hh values period)[i] = some x ↔
    ∃ window : List ℚ, window.length = period ∧ (values.take (i + 1)).rtake period =
      window.map some ∧ IsGreatest {y | y ∈ window} x
  lowest : ∀ i (h : i < (ll values period).length) (x : ℚ), (ll values period)[i] = some x ↔
    ∃ window : List ℚ, window.length = period ∧ (values.take (i + 1)).rtake period =
      window.map some ∧ IsLeast {y | y ∈ window} x

theorem windowExtreme_eq_some {highest : Bool} {period : ℕ} {values : List Value} {x : ℚ} :
    windowExtreme highest period values = some x ↔
      ∃ window, completeWindow period values = some window ∧ x ∈ window ∧
        ∀ y ∈ window, AtLeast highest x y := by
  rw [windowExtreme, Option.bind_eq_some_iff]
  refine exists_congr fun window => and_congr_right fun _ => ?_
  cases highest
  · exact List.min?_eq_some_iff
  · exact List.max?_eq_some_iff

theorem extremesOfWindow {period : ℕ} (hperiod : 0 < period) (values : List Value) :
    ExtremesOfWindow period values where
  length := by simp [hh, ll, rollingExtreme_eq hperiod]
  highest i h x := by
    simp only [hh, rollingExtreme_eq hperiod, getElem_prefixes, windowExtreme_eq_some,
      completeWindow_eq_some]
    refine exists_congr fun window => ?_
    rw [and_comm (a := _ = _) (b := window.length = period), and_assoc]
    rfl
  lowest i h x := by
    simp only [ll, rollingExtreme_eq hperiod, getElem_prefixes, windowExtreme_eq_some,
      completeWindow_eq_some]
    refine exists_congr fun window => ?_
    rw [and_comm (a := _ = _) (b := window.length = period), and_assoc]
    rfl

/-- **Streaming and batch primitives agree.** For every period and every series, undefined values
at any place, each state gives the series of its batch function, and the rolling extremes are the
true extremes of the defined windows. -/
theorem primitives_exact {period : ℕ} (hperiod : 0 < period) (values : List Value) :
    StreamingEqBatch period values ∧ ExtremesOfWindow period values where
  left := {
    sma := outputs_sma period values
    ema := outputs_ema hperiod values
    rma := outputs_rma hperiod values
    highest := outputs_rollingExtreme hperiod true values
    lowest := outputs_rollingExtreme hperiod false values
    cumulative := outputs_cumulative values
    roc := outputs_roc period values
    mom := outputs_mom period values }
  right := extremesOfWindow hperiod values

/-- A window of two over a series with a gap: the highest value of each complete window. -/
theorem primitives_exact_gap :
    hh [some 1, some 3, none, some 2, some 5] 2 = [none, some 3, none, none, some 5] ∧
      StreamingEqBatch 2 [some 1, some 3, none, some 2, some 5] ∧
      ExtremesOfWindow 2 [some 1, some 3, none, some 2, some 5] :=
  ⟨by decide, primitives_exact (by decide) _⟩

end Indicators
end TradingSystem
