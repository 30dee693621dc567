import TradingSystem.Costs.Funding
import TradingSystem.Resampling.Resample

/-!
# The walk over the funding boundaries

`boundaries_between` steps from day to day and keeps the boundaries of each day that lie in the
span. The step after the last day of the span is taken as well, and a `datetime` does not hold
the day after 31 December 9999.

* `walk` — the loop, with the days it computes.
* `boundariesBetween_eq_ok` — what it returns is the list of the boundaries of the span.
* `enumerated_iff` — the boundaries are enumerated exactly and additively, unless the span ends
  on that day.
-/

namespace TradingSystem
namespace FundingWalk

open Instant Resampling Logic

/-- The boundaries of one day that lie in the span. -/
def ofDay (start finish current : ℤ) : List ℤ :=
  ([0, 8, 16].map fun hours : ℤ => current + hours * hour).filter
    fun boundary => start < boundary ∧ boundary ≤ finish

/-- The loop: the boundaries of this day, and the next day. -/
def walk (start finish : ℤ) : ℕ → ℤ → Except Fault (List ℤ)
  | 0, _ => .ok []
  | rounds + 1, current =>
    if current ≤ finish then do
      let next ← shift current day
      let later ← walk start finish rounds next
      return ofDay start finish current ++ later
    else .ok []

/-- The rounds of the loop: the days of the span, and the test that ends it. -/
def walkRounds (start finish : ℤ) : ℕ := (dayOf finish - dayOf start + 1).toNat + 1

/-- `boundaries_between`, from the first instant of the start's day. -/
def boundariesBetween (startExclusive endInclusive : ℤ) : Except Fault (List ℤ) := do
  require (startExclusive ≤ endInclusive)
    (.valueError "funding boundary interval end must not precede start")
  walk startExclusive endInclusive (walkRounds startExclusive endInclusive)
    (dayOf startExclusive * day)

/-- The first instant of the last day that a `datetime` holds. -/
def lastDay : ℤ := calendarEnd - day

variable {start mid finish current t : ℤ} {result : List ℤ}

/-! ### The loop -/

theorem walk_of_lt (rounds : ℕ) (h : finish < current) :
    walk start finish rounds current = .ok [] := by
  cases rounds with
  | zero => rfl
  | succ rounds => exact if_neg (not_le.2 h)

theorem walk_succ (rounds : ℕ) (h : current ≤ finish) (hcalendar : InCalendar (current + day)) :
    walk start finish (rounds + 1) current =
      (walk start finish rounds (current + day)).map (ofDay start finish current ++ ·) := by
  rw [walk, if_pos h, shift_eq_ok.2 ⟨hcalendar, rfl⟩]
  cases hlater : walk start finish rounds (current + day) <;> simp [hlater, Bind.bind, Except.bind,
    Except.map, pure, Except.pure]

/-- The step after the last day is refused. -/
theorem walk_of_overflow (rounds : ℕ) (h : current ≤ finish)
    (hcalendar : ¬ InCalendar (current + day)) :
    walk start finish (rounds + 1) current =
      .error (.overflowError "date value out of range") := by
  rw [walk, if_pos h, shift, require, if_neg hcalendar]
  rfl

/-- **What the loop returns**: the boundaries of the days that are left, one day a round. -/
theorem walk_eq_ok (rounds : ℕ) (hrounds : ((finish - current) / day + 1).toNat < rounds)
    (h : walk start finish rounds current = .ok result) :
    result = ((List.range ((finish - current) / day + 1).toNat).map
      fun n : ℕ => current + n * day).flatMap (ofDay start finish) := by
  -- On the rounds, for every day the loop is at.
  induction rounds generalizing current result with
  | zero => exact absurd hrounds (Nat.not_lt_zero _)
  | succ rounds ih =>
    by_cases hle : current ≤ finish
    · rw [walk, if_pos hle] at h
      simp only [Except.bind_eq_ok, shift_eq_ok] at h
      obtain ⟨_, ⟨-, rfl⟩, later, hlater, h⟩ := h
      cases h
      have hcount : ((finish - current) / day + 1).toNat =
          ((finish - (current + day)) / day + 1).toNat + 1 := by
        simp only [day, hour, minute, second]
        omega
      rw [ih (by omega) hlater, hcount, List.range_succ_eq_map, List.map_cons, List.flatMap_cons,
        List.map_map]
      -- The days after this one are counted from the next one.
      have hdays : ((List.range ((finish - (current + day)) / day + 1).toNat).map
            fun n : ℕ => current + day + n * day) =
          (List.range ((finish - (current + day)) / day + 1).toNat).map
            ((fun n : ℕ => current + n * day) ∘ Nat.succ) := by
        apply List.map_congr_left
        intro n _
        simp only [Function.comp_apply, Nat.cast_succ]
        ring
      rw [hdays, Nat.cast_zero, zero_mul, add_zero]
    · rw [walk_of_lt _ (not_le.1 hle)] at h
      cases h
      have hnone : ((finish - current) / day + 1).toNat = 0 := by
        simp only [day, hour, minute, second]
        omega
      rw [hnone]
      rfl

/-- Before the last day no step is refused. -/
theorem exists_walk (rounds : ℕ) (hfinish : finish < lastDay) (hcurrent : calendarStart ≤ current) :
    ∃ result, walk start finish rounds current = .ok result := by
  induction rounds generalizing current with
  | zero => exact ⟨[], rfl⟩
  | succ rounds ih =>
    by_cases hle : current ≤ finish
    · have hcalendar : InCalendar (current + day) := by
        simp only [InCalendar, lastDay, calendarStart, calendarEnd, day, hour, minute, second] at *
        omega
      obtain ⟨later, hlater⟩ := ih hcalendar.1
      rw [walk_succ rounds hle hcalendar, hlater]
      exact ⟨_, rfl⟩
    · exact ⟨[], walk_of_lt _ (not_le.1 hle)⟩

/-- From the last day on the loop ends in the step after it. -/
theorem walk_eq_error (rounds : ℕ) (hfinish : lastDay ≤ finish)
    (hcurrent : calendarStart ≤ current) (haligned : current % day = 0)
    (hrounds : ((lastDay - current) / day).toNat < rounds) (hle : current ≤ lastDay) :
    walk start finish rounds current = .error (.overflowError "date value out of range") := by
  -- On the rounds: from the last day the step after it is taken.
  induction rounds generalizing current with
  | zero => exact absurd hrounds (Nat.not_lt_zero _)
  | succ rounds ih =>
    by_cases hlast : current = lastDay
    · refine walk_of_overflow rounds (hle.trans hfinish) fun hcalendar => ?_
      have hlt := hcalendar.2
      simp only [hlast, lastDay, calendarEnd, day, hour, minute, second] at hlt
      omega
    · have hnext : current + day ≤ lastDay := by
        simp only [lastDay, calendarEnd, day, hour, minute, second] at *
        omega
      have hcalendar : InCalendar (current + day) := by
        simp only [InCalendar, lastDay, calendarStart, calendarEnd, day, hour, minute, second] at *
        omega
      rw [walk_succ rounds (hle.trans hfinish) hcalendar, ih hcalendar.1 (by
          rw [Int.add_emod_right]
          exact haligned) (by
          simp only [lastDay, calendarEnd, day, hour, minute, second] at hrounds hnext ⊢
          omega) hnext]
      rfl

/-! ### The list -/

theorem calendarStart_le_day (h : calendarStart ≤ start) : calendarStart ≤ dayOf start * day := by
  simp only [calendarStart, dayOf, day, hour, minute, second] at *
  omega

/-- The list of a span, day by day from the midnight before it. -/
theorem listedBoundaries_eq : listedBoundaries start finish =
    ((List.range ((finish - dayOf start * day) / day + 1).toNat).map
      fun n : ℕ => dayOf start * day + n * day).flatMap (ofDay start finish) := by
  have hcount : ((finish - dayOf start * day) / day + 1).toNat =
      (dayOf finish - dayOf start + 1).toNat := by
    simp only [dayOf, day, hour, minute, second]
    omega
  unfold listedBoundaries
  rw [hcount, List.filter_flatMap]
  refine congrArg₂ List.flatMap rfl ?_
  apply List.map_congr_left
  intro n _
  ring

/-- **What `boundaries_between` returns** is the list of the span. -/
theorem boundariesBetween_eq_ok (h : boundariesBetween start finish = .ok result) :
    start ≤ finish ∧ result = listedBoundaries start finish := by
  unfold boundariesBetween at h
  simp only [Except.bind_eq_ok, require_eq_ok] at h
  obtain ⟨-, hle, h⟩ := h
  refine ⟨hle, ?_⟩
  rw [listedBoundaries_eq]
  refine walk_eq_ok _ ?_ h
  simp only [walkRounds, dayOf, day, hour, minute, second]
  omega

/-- It returns for every span that ends before the last day. -/
theorem boundariesBetween_isOk (hstart : calendarStart ≤ start) (hle : start ≤ finish)
    (hfinish : finish < lastDay) :
    boundariesBetween start finish = .ok (listedBoundaries start finish) := by
  obtain ⟨result, hwalk⟩ := exists_walk (walkRounds start finish) hfinish
    (calendarStart_le_day hstart)
  have hresult : boundariesBetween start finish = .ok result := by
    rw [boundariesBetween, require, if_pos hle]
    exact hwalk
  rw [hresult, (boundariesBetween_eq_ok hresult).2]

/-- It raises for every span that ends on the last day: the walk begins at a midnight, no later
than the last one, and steps past that day. -/
theorem boundariesBetween_eq_error (hstart : InCalendar start) (hle : start ≤ finish)
    (hlast : lastDay ≤ finish) :
    boundariesBetween start finish = .error (.overflowError "date value out of range") := by
  rw [boundariesBetween, require, if_pos hle]
  have hday : dayOf start * day ≤ lastDay := by
    have := hstart.2
    simp only [lastDay, calendarEnd, dayOf, day, hour, minute, second] at *
    omega
  change walk _ _ _ _ = _
  refine walk_eq_error _ hlast (calendarStart_le_day hstart.1) (Int.mul_emod_left _ _) ?_ hday
  simp only [walkRounds, lastDay, calendarEnd, dayOf, day, hour, minute, second] at *
  omega

theorem mem_boundariesBetween (h : boundariesBetween start finish = .ok result) :
    t ∈ result ↔ start < t ∧ t ≤ finish ∧ isBoundary t = true := by
  obtain ⟨-, rfl⟩ := boundariesBetween_eq_ok h
  exact ⟨mem_listedBoundaries, fun ⟨hlt, hle, hb⟩ => mem_listedBoundaries_of hlt hle hb⟩

/-- The boundaries of a day come in their order and lie within it. -/
theorem ofDay_pairwise : (ofDay start finish current).Pairwise (· < ·) := by
  refine List.Pairwise.filter _ ?_
  simp [hour, minute, second]

theorem mem_ofDay (h : t ∈ ofDay start finish current) : current ≤ t ∧ t < current + day := by
  rw [ofDay, List.mem_filter] at h
  have hmem := h.1
  simp only [List.map_cons, List.map_nil, List.mem_cons, List.not_mem_nil, or_false] at hmem
  simp only [day, hour, minute, second] at hmem ⊢
  omega

/-- So do those of several days. -/
theorem flatMap_pairwise (count : ℕ) :
    (((List.range count).map fun n : ℕ => current + n * day).flatMap
      (ofDay start finish)).Pairwise (· < ·) := by
  rw [List.pairwise_flatMap]
  refine ⟨fun _ _ => ofDay_pairwise, ?_⟩
  rw [List.pairwise_map]
  -- All boundaries of an earlier day lie before the next day begins.
  refine List.pairwise_lt_range.imp fun {n m} hlt t ht t' ht' => ?_
  have hfirst := (mem_ofDay ht).2
  have hsecond := (mem_ofDay ht').1
  have hnm : (n : ℤ) + 1 ≤ m := by exact_mod_cast hlt
  simp only [day, hour, minute, second] at hfirst hsecond
  omega

/-- The boundaries of a span come in their order. -/
theorem boundariesBetween_pairwise (h : boundariesBetween start finish = .ok result) :
    result.Pairwise (· < ·) := by
  obtain ⟨-, rfl⟩ := boundariesBetween_eq_ok h
  rw [listedBoundaries_eq]
  exact flatMap_pairwise _

/-- What an enumeration of the boundaries is: in their order, each instant of the span that is a
boundary. -/
structure Enumerates (start finish : ℤ) (result : List ℤ) : Prop where
  increasing : result.Pairwise (· < ·)
  mem_iff : ∀ t, t ∈ result ↔ start < t ∧ t ≤ finish ∧ isBoundary t = true

/-- There is one enumeration. -/
theorem Enumerates.unique {other : List ℤ} (h : Enumerates start finish result)
    (hother : Enumerates start finish other) : result = other := by
  have hperm : result.Perm other := by
    rw [List.perm_ext_iff_of_nodup (h.increasing.imp ne_of_lt) (hother.increasing.imp ne_of_lt)]
    intro t
    rw [h.mem_iff, hother.mem_iff]
  -- Two increasing lists of the same instants are one list.
  refine List.Perm.eq_of_pairwise ?_ h.increasing hother.increasing hperm
  intro a b _ _ hab hba
  exact absurd hab (lt_asymm hba)

/-- Enumerations of adjacent spans are joined. -/
theorem Enumerates.append {first second : List ℤ} (hfirst : Enumerates start mid first)
    (hsecond : Enumerates mid finish second) (hstart : start ≤ mid) (hfinish : mid ≤ finish) :
    Enumerates start finish (first ++ second) where
  increasing := by
    refine List.pairwise_append.2 ⟨hfirst.increasing, hsecond.increasing, fun t ht t' ht' => ?_⟩
    exact ((hfirst.mem_iff t).1 ht).2.1.trans_lt ((hsecond.mem_iff t').1 ht').1
  mem_iff t := by
    rw [List.mem_append, hfirst.mem_iff, hsecond.mem_iff]
    constructor
    · rintro (⟨hlt, hle, hboundary⟩ | ⟨hlt, hle, hboundary⟩)
      · exact ⟨hlt, hle.trans hfinish, hboundary⟩
      · exact ⟨hstart.trans_lt hlt, hle, hboundary⟩
    · rintro ⟨hlt, hle, hboundary⟩
      -- a boundary lies in the half that its time lies in
      by_cases hmid : t ≤ mid
      · exact .inl ⟨hlt, hmid, hboundary⟩
      · exact .inr ⟨not_le.1 hmid, hle, hboundary⟩

theorem enumerates_of_lt (hstart : calendarStart ≤ start) (hle : start ≤ finish)
    (hfinish : finish < lastDay) :
    ∃ result, boundariesBetween start finish = .ok result ∧ Enumerates start finish result :=
  have hreturn := boundariesBetween_isOk hstart hle hfinish
  ⟨_, hreturn, boundariesBetween_pairwise hreturn, fun _ => mem_boundariesBetween hreturn⟩

/-- What the enumeration of a span promises: exactly the boundaries, in their order, and the same
ones as from two parts of the span. -/
def Enumerated (start finish : ℤ) : Prop :=
  ∃ result, boundariesBetween start finish = .ok result ∧ Enumerates start finish result ∧
    ∀ mid, start ≤ mid → mid ≤ finish → ∃ first second,
      boundariesBetween start mid = .ok first ∧ boundariesBetween mid finish = .ok second ∧
      result = first ++ second

/-- **The boundaries of a span are enumerated** exactly, and additively, unless the span ends on
the last day that a `datetime` holds: the loop steps past that day. -/
theorem enumerated_iff (hstart : InCalendar start) (hle : start ≤ finish) :
    Enumerated start finish ↔ finish < lastDay := by
  constructor
  · rintro ⟨result, hresult, -⟩
    by_contra hlast
    rw [boundariesBetween_eq_error hstart hle (not_lt.1 hlast)] at hresult
    cases hresult
  · intro hlast
    obtain ⟨result, hresult, henumerates⟩ := enumerates_of_lt hstart.1 hle hlast
    refine ⟨result, hresult, henumerates, fun mid hmid hmid' => ?_⟩
    -- Both parts end before the last day too, and there is one enumeration.
    obtain ⟨first, hfirst, henumerates'⟩ :=
      enumerates_of_lt hstart.1 hmid (hmid'.trans_lt hlast)
    obtain ⟨second, hsecond, henumerates''⟩ :=
      enumerates_of_lt (hstart.1.trans hmid) hmid' hlast
    exact ⟨first, second, hfirst, hsecond,
      henumerates.unique (henumerates'.append henumerates'' hmid hmid')⟩

/-- The first day of the epoch. -/
theorem enumerated_of_first_day :
    InCalendar 0 ∧ (0 : ℤ) ≤ day ∧ (Enumerated 0 day ↔ day < lastDay) :=
  ⟨by decide, by decide, enumerated_iff (by decide) (by decide)⟩

/-- The empty span at the last midnight that a `datetime` holds. -/
theorem not_enumerated_of_last_day :
    InCalendar lastDay ∧
      boundariesBetween lastDay lastDay = .error (.overflowError "date value out of range") ∧
      ¬ Enumerated lastDay lastDay := by
  have herror : boundariesBetween lastDay lastDay =
      .error (.overflowError "date value out of range") :=
    boundariesBetween_eq_error (by decide) le_rfl le_rfl
  refine ⟨by decide, herror, ?_⟩
  rintro ⟨result, hresult, -⟩
  rw [herror] at hresult
  cases hresult

end FundingWalk
end TradingSystem
