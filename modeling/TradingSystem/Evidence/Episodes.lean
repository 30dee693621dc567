import TradingSystem.Types.Enums
import TradingSystem.Numeric.Binary64
import TradingSystem.Logic.Program
import Mathlib.Data.List.Pairwise

/-!
# Drawdown and run-up episodes

The evidence lists the episodes in which equity falls below its running peak and, dually, rises
above its running low. One pass over the equity points keeps the anchor (the peak or the low),
the extreme since and whether an episode is open.

* `Tracker`, `advance`, `relativeEpisodes` — the pass, in the source's words.
* `Spans`, `Correct` — what an episode is, and what a list of them has to be.
* `Tracks` — the invariant of the pass; `Tracks.advance` is one round.
* `Priced` — the condition on the anchors that a change is divided by.
* `episodesCorrect_iff` — the episodes are correct exactly under it.
-/

namespace TradingSystem
namespace Episodes

open Numeric Logic

/-! ### The pass -/

/-- The kind of an episode. -/
inductive EpisodeKind
  | drawdown | runup
deriving DecidableEq, Repr

/-- A row of `PORTFOLIO_PNL`: its instant in milliseconds and its scaled equity. -/
structure EquityPoint where
  ts : ℤ
  totalEquity : ℤ
deriving DecidableEq, Repr

structure Episode where
  kind : EpisodeKind
  startTs : ℤ
  endTs : ℤ
  recoveryTs : Option ℤ
  peakEquity : ℤ
  troughEquity : ℤ
  depthPct : Binary64
deriving DecidableEq

/-- `moved_against_anchor` and `more_extreme`; with the sides exchanged, `improves_anchor`. -/
def EpisodeKind.Worse : EpisodeKind → ℤ → ℤ → Prop
  | .drawdown, equity, other => equity < other
  | .runup, equity, other => equity > other

def EpisodeKind.Recovered : EpisodeKind → ℤ → ℤ → Prop
  | .drawdown, equity, anchor => equity ≥ anchor
  | .runup, equity, anchor => equity ≤ anchor

instance (kind : EpisodeKind) (equity other : ℤ) : Decidable (kind.Worse equity other) :=
  match kind with
  | .drawdown => inferInstanceAs (Decidable (equity < other))
  | .runup => inferInstanceAs (Decidable (equity > other))

instance (kind : EpisodeKind) (equity anchor : ℤ) : Decidable (kind.Recovered equity anchor) :=
  match kind with
  | .drawdown => inferInstanceAs (Decidable (equity ≥ anchor))
  | .runup => inferInstanceAs (Decidable (equity ≤ anchor))

/-- `equity / anchor - 1.0` of two integers. -/
def change (equity anchor : ℤ) : Binary64 :=
  Binary64.sub (Binary64.ofRat ((equity : ℚ) / anchor)) (Binary64.ofRat 1)

/-- The episode that `_episode` returns. -/
def record (kind : EpisodeKind) (anchor extreme : EquityPoint) (recoveryTs : Option ℤ) :
    Episode where
  kind := kind
  startTs := anchor.ts
  endTs := extreme.ts
  recoveryTs := recoveryTs
  peakEquity :=
    match kind with
    | .drawdown => anchor.totalEquity
    | .runup => extreme.totalEquity
  troughEquity :=
    match kind with
    | .drawdown => extreme.totalEquity
    | .runup => anchor.totalEquity
  depthPct := change extreme.totalEquity anchor.totalEquity

def episode (kind : EpisodeKind) (anchor extreme : EquityPoint) (recoveryTs : Option ℤ) :
    Except Fault Episode := do
  require (anchor.ts < extreme.ts) (.valueError "episode extreme must occur after its anchor")
  require (anchor.totalEquity ≠ 0) .zeroDivision
  return record kind anchor extreme recoveryTs

/-- The variables of the loop. -/
structure Tracker where
  episodes : List Episode
  anchor : EquityPoint
  extreme : EquityPoint
  active : Bool
deriving DecidableEq

/-- One round of the loop of `_relative_episodes`. -/
def advance (kind : EpisodeKind) (tracker : Tracker) (point : EquityPoint) :
    Except Fault Tracker :=
  if tracker.active then
    -- an open episode: the first point of its greatest depth, until equity is back
    let extreme :=
      if kind.Worse point.totalEquity tracker.extreme.totalEquity then point
      else tracker.extreme
    if kind.Recovered point.totalEquity tracker.anchor.totalEquity then do
      let closed ← episode kind tracker.anchor extreme (some point.ts)
      return ⟨tracker.episodes ++ [closed], point, point, false⟩
    else
      return { tracker with extreme := extreme }
  else if kind.Worse point.totalEquity tracker.anchor.totalEquity then
    return { tracker with active := true, extreme := point }
  else if kind.Worse tracker.anchor.totalEquity point.totalEquity then
    return { tracker with anchor := point }
  else
    -- equal equity keeps the earlier anchor
    return tracker

def relativeEpisodes (rows : List EquityPoint) (kind : EpisodeKind) :
    Except Fault (List Episode) :=
  match rows with
  | [] => .error (.lookupError "list index out of range")
  | first :: rest => do
    let tracker ← rest.foldlM (advance kind) ⟨[], first, first, false⟩
    if tracker.active then
      let last ← episode kind tracker.anchor tracker.extreme none
      return tracker.episodes ++ [last]
    else
      return tracker.episodes

/-- The times of a trade, for the trades that an episode overlaps. -/
structure TradeSpan where
  entryTime : ℤ
  exitTime : ℤ
deriving DecidableEq, Repr

/-- The columns of `DRAWDOWN_RUNUP_EPISODE` that its constraints are about. -/
structure EpisodeRow where
  kind : EpisodeKind
  startTs : ℤ
  endTs : ℤ
  recoveryTs : Option ℤ
  depthPct : Binary64
  durationSeconds : ℤ
  tradeCount : ℕ
deriving DecidableEq

/-- The row that `_derive_drawdown_runup_episodes` inserts. A recovery at the epoch is taken for
none. -/
def episodeRow (trades : List TradeSpan) (episode : Episode) : EpisodeRow :=
  let terminalTs :=
    match episode.recoveryTs with
    | some recovery => if recovery = 0 then episode.endTs else recovery
    | none => episode.endTs
  { kind := episode.kind
    startTs := episode.startTs
    endTs := episode.endTs
    recoveryTs := episode.recoveryTs
    depthPct := episode.depthPct
    durationSeconds := max 0 ((terminalTs - episode.startTs) / 1000)
    tradeCount := (trades.filter fun trade =>
      trade.entryTime ≤ terminalTs ∧ episode.startTs ≤ trade.exitTime).length }

/-- The `CHECK`s of the table. -/
structure EpisodeRow.Checks (row : EpisodeRow) : Prop where
  durationSeconds_nonneg : 0 ≤ row.durationSeconds
  tradeCount_nonneg : 0 ≤ row.tradeCount
  start_lt_end : row.startTs < row.endTs
  end_le_recovery : ∀ recovery ∈ row.recoveryTs, row.endTs ≤ recovery
  depth_sign : (row.kind = .drawdown ∧ row.depthPct ≤ Binary64.zero) ∨
    (row.kind = .runup ∧ Binary64.zero ≤ row.depthPct)

/-! ### The specification -/

/-- Drawdowns of the key are drawdowns of equity, or its run-ups. -/
def EpisodeKind.key : EpisodeKind → ℤ → ℤ
  | .drawdown, equity => equity
  | .runup, equity => -equity

/-- The equity of a point, in the direction of its kind. -/
def level (kind : EpisodeKind) (point : EquityPoint) : ℤ := kind.key point.totalEquity

theorem EpisodeKind.worse_iff {kind : EpisodeKind} {equity other : ℤ} :
    kind.Worse equity other ↔ kind.key equity < kind.key other := by
  cases kind with
  | drawdown => exact Iff.rfl
  | runup => exact neg_lt_neg_iff.symm

theorem EpisodeKind.recovered_iff {kind : EpisodeKind} {equity anchor : ℤ} :
    kind.Recovered equity anchor ↔ kind.key anchor ≤ kind.key equity := by
  cases kind with
  | drawdown => exact Iff.rfl
  | runup => exact neg_le_neg_iff.symm

theorem EpisodeKind.key_injective {kind : EpisodeKind} {equity other : ℤ}
    (h : kind.key equity = kind.key other) : equity = other := by
  cases kind with
  | drawdown => exact h
  | runup => exact neg_injective h

/-- A point of the rows is strictly below the running peak. -/
def BelowPeak (rows : List EquityPoint) (kind : EpisodeKind) (point : EquityPoint) : Prop :=
  ∃ peak ∈ rows, peak.ts < point.ts ∧ level kind point < level kind peak

/-- `ts` is after `start` and before the recovery. -/
def Within (start : ℤ) (recoveryTs : Option ℤ) (ts : ℤ) : Prop :=
  start < ts ∧ ∀ recovery ∈ recoveryTs, ts < recovery

/-- An episode of the rows between an anchor and a recovery. -/
structure Spans (rows : List EquityPoint) (kind : EpisodeKind) (anchor extreme : EquityPoint)
    (recoveryTs : Option ℤ) : Prop where
  anchor_mem : anchor ∈ rows
  extreme_mem : extreme ∈ rows
  extreme_within : Within anchor.ts recoveryTs extreme.ts
  extreme_lt : level kind extreme < level kind anchor
  /-- The anchor is the running peak, and stays it until the recovery. -/
  peak : ∀ point ∈ rows, (∀ recovery ∈ recoveryTs, point.ts < recovery) →
    level kind point ≤ level kind anchor
  /-- Once equity has fallen it stays below the peak until the recovery. -/
  stays : ∀ fallen ∈ rows, ∀ point ∈ rows, Within anchor.ts recoveryTs fallen.ts →
    level kind fallen < level kind anchor → Within fallen.ts recoveryTs point.ts →
    level kind point < level kind anchor
  /-- The extreme is the deepest point, -/
  deepest : ∀ point ∈ rows, Within anchor.ts recoveryTs point.ts →
    level kind extreme ≤ level kind point
  /-- and the first of that depth. -/
  first : ∀ point ∈ rows, Within anchor.ts recoveryTs point.ts → point.ts < extreme.ts →
    level kind extreme < level kind point
  /-- At the recovery equity is back. -/
  returns : ∀ recovery ∈ recoveryTs, ∃ point ∈ rows, point.ts = recovery ∧
    level kind anchor ≤ level kind point

/-- The episode is one of the rows, with an anchor that a change can be divided by. -/
def Names (rows : List EquityPoint) (kind : EpisodeKind) (episode : Episode) : Prop :=
  ∃ anchor extreme, Spans rows kind anchor extreme episode.recoveryTs ∧
    anchor.totalEquity ≠ 0 ∧ episode = record kind anchor extreme episode.recoveryTs

/-- The first ends no later than the second starts. -/
def Before (first second : Episode) : Prop :=
  ∃ recovery, first.recoveryTs = some recovery ∧ recovery ≤ second.startTs

/-- The relative changes of the points below their running peak. -/
def changes (rows : List EquityPoint) (kind : EpisodeKind) : Set Binary64 :=
  {depth | ∃ point ∈ rows, ∃ peak ∈ rows, peak.ts < point.ts ∧
    (∀ other ∈ rows, other.ts ≤ point.ts → level kind other ≤ level kind peak) ∧
    level kind point < level kind peak ∧
    depth = change point.totalEquity peak.totalEquity}

/-- The deepest of a set of depths: the least for drawdowns, the greatest for run-ups. -/
def IsDeepest : EpisodeKind → Set Binary64 → Binary64 → Prop
  | .drawdown, depths, depth => IsLeast depths depth
  | .runup, depths, depth => IsGreatest depths depth

/-- The episodes of a kind are correct. -/
structure Correct (rows : List EquityPoint) (kind : EpisodeKind) (episodes : List Episode) :
    Prop where
  /-- Each names its anchor, its first deepest point and its first return. -/
  named : ∀ episode ∈ episodes, Names rows kind episode
  /-- They are disjoint and ordered. -/
  ordered : episodes.Pairwise Before
  /-- A point below the running peak is in exactly one. -/
  covered : ∀ point ∈ rows, BelowPeak rows kind point →
    ∃! episode, episode ∈ episodes ∧ Within episode.startTs episode.recoveryTs point.ts

/-- **Episodes are correct**: for both kinds they are returned, they are those of the rows,
the largest depth is the largest relative change, and the table takes all of them. -/
def EpisodesCorrect (rows : List EquityPoint) : Prop :=
  ∀ kind, ∃ episodes, relativeEpisodes rows kind = .ok episodes ∧
    Correct rows kind episodes ∧
    (∀ depth, IsDeepest kind {depth | ∃ episode ∈ episodes, episode.depthPct = depth} depth ↔
      IsDeepest kind (changes rows kind) depth) ∧
    ∀ episode ∈ episodes, ∀ trades, (episodeRow trades episode).Checks

/-- The condition: a running peak (or low) that equity later leaves is positive, or it is
negative and the change from it is lost in the rounding of the quotient. -/
def Priced (rows : List EquityPoint) (kind : EpisodeKind) : Prop :=
  ∀ point ∈ rows, ∀ peak ∈ rows, peak.ts < point.ts →
    (∀ other ∈ rows, other.ts ≤ point.ts → level kind other ≤ level kind peak) →
    level kind point < level kind peak →
    0 < peak.totalEquity ∨
      peak.totalEquity < 0 ∧ change point.totalEquity peak.totalEquity = Binary64.zero

/-! ### The rows grow -/

section Growth

variable {rows : List EquityPoint} {kind : EpisodeKind} {anchor extreme point other : EquityPoint}
  {recovery : ℤ} {found : Episode}

theorem mem_of_lt (h : other ∈ rows ++ [point]) (hlt : other.ts < point.ts) : other ∈ rows := by
  rw [List.mem_append, List.mem_singleton] at h
  obtain h | rfl := h
  · exact h
  · exact absurd hlt (lt_irrefl _)

theorem forall_mem_none {p : ℤ → Prop} : ∀ t ∈ (none : Option ℤ), p t := by
  intro t ht
  cases ht

/-- A later point does not touch an episode that has recovered. -/
theorem Spans.grow (h : Spans rows kind anchor extreme (some recovery))
    (hlater : recovery < point.ts) :
    Spans (rows ++ [point]) kind anchor extreme (some recovery) where
  anchor_mem := List.mem_append_left _ h.anchor_mem
  extreme_mem := List.mem_append_left _ h.extreme_mem
  extreme_within := h.extreme_within
  extreme_lt := h.extreme_lt
  peak := by
    intro q hq hbefore
    exact h.peak q (mem_of_lt hq ((hbefore _ rfl).trans hlater)) hbefore
  stays := by
    intro fallen hfallen q hq hin hbelow hwithin
    exact h.stays fallen (mem_of_lt hfallen ((hin.2 _ rfl).trans hlater)) q
      (mem_of_lt hq ((hwithin.2 _ rfl).trans hlater)) hin hbelow hwithin
  deepest := by
    intro q hq hin
    exact h.deepest q (mem_of_lt hq ((hin.2 _ rfl).trans hlater)) hin
  first := by
    intro q hq hin hlt
    exact h.first q (mem_of_lt hq ((hin.2 _ rfl).trans hlater)) hin hlt
  returns := by
    intro t ht
    obtain ⟨q, hq, heq, hle⟩ := h.returns t ht
    exact ⟨q, List.mem_append_left _ hq, heq, hle⟩

theorem Names.grow (h : Names rows kind found) (hrecovery : found.recoveryTs = some recovery)
    (hlater : recovery < point.ts) : Names (rows ++ [point]) kind found := by
  obtain ⟨anchor, extreme, hspans, hne, heq⟩ := h
  refine ⟨anchor, extreme, ?_, hne, heq⟩
  rw [hrecovery] at hspans ⊢
  exact hspans.grow hlater

theorem within_none {start ts : ℤ} : Within start none ts ↔ start < ts := by
  simp [Within]

theorem within_some {start ts : ℤ} :
    Within start (some recovery) ts ↔ start < ts ∧ ts < recovery := by
  simp [Within]

/-- The first point below a flat anchor opens an episode. -/
theorem Spans.start (hmem : anchor ∈ rows) (hlater : ∀ q ∈ rows, q.ts < point.ts)
    (hpeak : ∀ q ∈ rows, level kind q ≤ level kind anchor)
    (hflat : ∀ q ∈ rows, anchor.ts < q.ts → level kind anchor ≤ level kind q)
    (hbelow : level kind point < level kind anchor) :
    Spans (rows ++ [point]) kind anchor point none where
  anchor_mem := List.mem_append_left _ hmem
  extreme_mem := List.mem_append_right _ (List.mem_singleton_self _)
  extreme_within := within_none.2 (hlater anchor hmem)
  extreme_lt := hbelow
  peak := by
    intro q hq _
    rw [List.mem_append, List.mem_singleton] at hq
    obtain hq | rfl := hq
    · exact hpeak q hq
    · exact hbelow.le
  stays := by
    intro fallen hfallen q hq hin hfall hwithin
    rw [within_none] at hin hwithin
    rw [List.mem_append, List.mem_singleton] at hfallen hq
    obtain hfallen | rfl := hfallen
    · -- before the point nothing had fallen
      exact absurd hfall (not_lt.2 (hflat fallen hfallen hin))
    · -- nothing comes after the point
      obtain hq | rfl := hq
      · exact absurd (hlater q hq) (not_lt.2 hwithin.le)
      · exact hbelow
  deepest := by
    intro q hq hin
    rw [within_none] at hin
    rw [List.mem_append, List.mem_singleton] at hq
    obtain hq | rfl := hq
    · exact hbelow.le.trans (hflat q hq hin)
    · exact le_rfl
  first := by
    intro q hq hin hlt
    exact hbelow.trans_le (hflat q (mem_of_lt hq hlt) (within_none.1 hin))
  returns := by
    intro t ht
    cases ht

/-- A point below the anchor continues an open episode, with a new extreme if it is deeper. -/
theorem Spans.extend (h : Spans rows kind anchor extreme none)
    (hlater : ∀ q ∈ rows, q.ts < point.ts) (hbelow : level kind point < level kind anchor) :
    Spans (rows ++ [point]) kind anchor
      (if level kind point < level kind extreme then point else extreme) none where
  anchor_mem := List.mem_append_left _ h.anchor_mem
  extreme_mem := by
    split
    · exact List.mem_append_right _ (List.mem_singleton_self _)
    · exact List.mem_append_left _ h.extreme_mem
  extreme_within := by
    split
    · exact within_none.2 (hlater anchor h.anchor_mem)
    · exact h.extreme_within
  extreme_lt := by
    split
    · exact hbelow
    · exact h.extreme_lt
  peak := by
    intro q hq _
    rw [List.mem_append, List.mem_singleton] at hq
    obtain hq | rfl := hq
    · exact h.peak q hq forall_mem_none
    · exact hbelow.le
  stays := by
    intro fallen hfallen q hq hin hfall hwithin
    rw [List.mem_append, List.mem_singleton] at hq
    obtain hq | rfl := hq
    · have hbefore := (within_none.1 hwithin).trans (hlater q hq)
      exact h.stays fallen (mem_of_lt hfallen hbefore) q hq hin hfall hwithin
    · exact hbelow
  deepest := by
    intro q hq hin
    rw [List.mem_append, List.mem_singleton] at hq
    split
    · -- a deeper point is the extreme
      next hdeeper =>
      obtain hq | rfl := hq
      · exact hdeeper.le.trans (h.deepest q hq hin)
      · exact le_rfl
    · -- the extreme stays, and the point is no deeper
      next hdeeper =>
      obtain hq | rfl := hq
      · exact h.deepest q hq hin
      · exact not_lt.1 hdeeper
  first := by
    intro q hq hin
    split
    · -- whatever came before was less deep than the old extreme, or as deep
      next hdeeper =>
      intro hlt
      exact hdeeper.trans_le (h.deepest q (mem_of_lt hq hlt) hin)
    · intro hlt
      have hbefore := hlt.trans (hlater extreme h.extreme_mem)
      exact h.first q (mem_of_lt hq hbefore) hin hlt
  returns := by
    intro t ht
    cases ht

/-- A point back at the anchor ends an open episode. -/
theorem Spans.recover (h : Spans rows kind anchor extreme none)
    (hlater : ∀ q ∈ rows, q.ts < point.ts) (hback : level kind anchor ≤ level kind point) :
    Spans (rows ++ [point]) kind anchor extreme (some point.ts) where
  anchor_mem := List.mem_append_left _ h.anchor_mem
  extreme_mem := List.mem_append_left _ h.extreme_mem
  extreme_within := within_some.2
    ⟨within_none.1 h.extreme_within, hlater extreme h.extreme_mem⟩
  extreme_lt := h.extreme_lt
  peak := by
    intro q hq hbefore
    exact h.peak q (mem_of_lt hq (hbefore _ rfl)) forall_mem_none
  -- within the closed episode the points are those of the open one
  stays := by
    intro fallen hfallen q hq hin hfall hwithin
    rw [within_some] at hin hwithin
    exact h.stays fallen (mem_of_lt hfallen hin.2) q (mem_of_lt hq hwithin.2)
      (within_none.2 hin.1) hfall (within_none.2 hwithin.1)
  deepest := by
    intro q hq hin
    rw [within_some] at hin
    exact h.deepest q (mem_of_lt hq hin.2) (within_none.2 hin.1)
  first := by
    intro q hq hin hlt
    rw [within_some] at hin
    exact h.first q (mem_of_lt hq hin.2) (within_none.2 hin.1) hlt
  returns := by
    rintro _ ⟨⟩
    exact ⟨point, List.mem_append_right _ (List.mem_singleton_self _), rfl, hback⟩

end Growth

/-! ### The invariant -/

section Invariant

variable {rows rest : List EquityPoint} {kind : EpisodeKind} {tracker tracker' : Tracker}
  {anchor extreme point : EquityPoint} {recoveryTs : Option ℤ} {found : Episode}

/-- What the loop knows after the rows so far. -/
structure Tracks (rows : List EquityPoint) (kind : EpisodeKind) (tracker : Tracker) : Prop where
  anchor_mem : tracker.anchor ∈ rows
  /-- The anchor is the running peak. -/
  peak : ∀ point ∈ rows, level kind point ≤ level kind tracker.anchor
  /-- While active, an episode without a recovery is open; -/
  spans : tracker.active = true → Spans rows kind tracker.anchor tracker.extreme none
  /-- otherwise equity has not fallen since the anchor. -/
  flat : tracker.active = false → ∀ point ∈ rows, tracker.anchor.ts < point.ts →
    level kind tracker.anchor ≤ level kind point
  /-- The episodes so far have recovered by the anchor. -/
  closed : ∀ found ∈ tracker.episodes, Names rows kind found ∧
    ∃ recovery, found.recoveryTs = some recovery ∧ recovery ≤ tracker.anchor.ts
  ordered : tracker.episodes.Pairwise Before
  covered : ∀ point ∈ rows, point.ts ≤ tracker.anchor.ts → BelowPeak rows kind point →
    ∃ found ∈ tracker.episodes, Within found.startTs found.recoveryTs point.ts

theorem episode_eq_ok :
    episode kind anchor extreme recoveryTs = .ok found ↔
      anchor.ts < extreme.ts ∧ anchor.totalEquity ≠ 0 ∧
        found = record kind anchor extreme recoveryTs := by
  unfold episode
  simp only [Except.bind_eq_ok, require_eq_ok]
  constructor
  · rintro ⟨-, hlt, -, hne, heq⟩
    exact ⟨hlt, hne, (Except.ok.inj heq).symm⟩
  · rintro ⟨hlt, hne, rfl⟩
    exact ⟨⟨⟩, hlt, ⟨⟩, hne, rfl⟩

/-- **What one round does**: it closes the open episode, continues it, opens one, or moves the
anchor. -/
theorem advance_eq_ok :
    advance kind tracker point = .ok tracker' ↔
      (tracker.active = true ∧ level kind tracker.anchor ≤ level kind point ∧
        ∃ found, episode kind tracker.anchor
          (if level kind point < level kind tracker.extreme then point else tracker.extreme)
          (some point.ts) = .ok found ∧
        tracker' = ⟨tracker.episodes ++ [found], point, point, false⟩) ∨
      (tracker.active = true ∧ level kind point < level kind tracker.anchor ∧
        tracker' = { tracker with
          extreme :=
            if level kind point < level kind tracker.extreme then point
            else tracker.extreme }) ∨
      (tracker.active = false ∧ level kind point < level kind tracker.anchor ∧
        tracker' = { tracker with active := true, extreme := point }) ∨
      (tracker.active = false ∧ level kind tracker.anchor < level kind point ∧
        tracker' = { tracker with anchor := point }) ∨
      tracker.active = false ∧ level kind point = level kind tracker.anchor ∧
        tracker' = tracker := by
  unfold advance
  simp only [EpisodeKind.worse_iff, EpisodeKind.recovered_iff]
  change (if _ then if level kind tracker.anchor ≤ level kind point then _ else _
    else if level kind point < level kind tracker.anchor then _
    else if level kind tracker.anchor < level kind point then _ else _) = _ ↔ _
  cases hactive : tracker.active with
  | true =>
    -- the point recovers the open episode or continues it
    rw [if_pos rfl]
    by_cases hback : level kind tracker.anchor ≤ level kind point
    · rw [if_pos hback, Except.bind_eq_ok]
      have hnot := not_lt.2 hback
      simp only [hback, hnot, true_and, false_and, or_false, and_false, reduceCtorEq]
      refine exists_congr fun found => and_congr_right fun _ => ?_
      exact ⟨fun h => (Except.ok.inj h).symm, fun h => h ▸ rfl⟩
    · rw [if_neg hback]
      have hbelow := not_le.1 hback
      simp only [hback, hbelow, true_and, false_and, false_or, or_false, reduceCtorEq]
      exact ⟨fun h => (Except.ok.inj h).symm, fun h => h ▸ rfl⟩
  | false =>
    -- below the anchor an episode opens, above it the anchor moves
    rw [if_neg Bool.false_ne_true]
    rcases lt_trichotomy (level kind point) (level kind tracker.anchor) with hlt | heq | hgt
    · rw [if_pos hlt]
      simp only [hlt, hlt.not_gt, hlt.ne, true_and, false_and, false_or, or_false, reduceCtorEq]
      exact ⟨fun h => (Except.ok.inj h).symm, fun h => h ▸ rfl⟩
    · rw [if_neg heq.not_lt, if_neg heq.not_gt]
      simp only [heq, lt_irrefl, true_and, false_and, false_or, reduceCtorEq]
      exact ⟨fun h => (Except.ok.inj h).symm, fun h => h ▸ rfl⟩
    · rw [if_neg hgt.not_gt, if_pos hgt]
      simp only [hgt, hgt.not_gt, hgt.ne', true_and, false_and, false_or, or_false, reduceCtorEq]
      exact ⟨fun h => (Except.ok.inj h).symm, fun h => h ▸ rfl⟩

theorem Tracks.anchor_lt (h : Tracks rows kind tracker) (hlater : ∀ q ∈ rows, q.ts < point.ts) :
    tracker.anchor.ts < point.ts := hlater _ h.anchor_mem

/-- What is below the peak stays so when later points come, and the other way round. -/
theorem belowPeak_grow {q : EquityPoint} (hlt : q.ts < point.ts) :
    BelowPeak (rows ++ [point]) kind q ↔ BelowPeak rows kind q := by
  constructor
  · rintro ⟨a, ha, hbefore, hbelow⟩
    exact ⟨a, mem_of_lt ha (hbefore.trans hlt), hbefore, hbelow⟩
  · rintro ⟨a, ha, hbefore, hbelow⟩
    exact ⟨a, List.mem_append_left _ ha, hbefore, hbelow⟩

/-- The episodes so far are not touched by a later point. -/
theorem Tracks.closed_grow (h : Tracks rows kind tracker)
    (hlater : ∀ q ∈ rows, q.ts < point.ts) :
    ∀ found ∈ tracker.episodes, Names (rows ++ [point]) kind found ∧
      ∃ recovery, found.recoveryTs = some recovery ∧ recovery ≤ tracker.anchor.ts := by
  intro found hfound
  obtain ⟨hnames, recovery, hrecovery, hle⟩ := h.closed found hfound
  exact ⟨hnames.grow hrecovery (hle.trans_lt (h.anchor_lt hlater)), recovery, hrecovery, hle⟩

theorem Tracks.covered_grow (h : Tracks rows kind tracker)
    (hlater : ∀ q ∈ rows, q.ts < point.ts) :
    ∀ q ∈ rows ++ [point], q.ts ≤ tracker.anchor.ts → BelowPeak (rows ++ [point]) kind q →
      ∃ found ∈ tracker.episodes, Within found.startTs found.recoveryTs q.ts := by
  intro q hq hle hbelow
  have hlt := hle.trans_lt (h.anchor_lt hlater)
  exact h.covered q (mem_of_lt hq hlt) hle ((belowPeak_grow hlt).1 hbelow)

/-- A level that neither the anchor nor the new point is above bounds all points. -/
theorem Tracks.peak_grow (h : Tracks rows kind tracker) {bound : ℤ}
    (hanchor : level kind tracker.anchor ≤ bound) (hpoint : level kind point ≤ bound) :
    ∀ q ∈ rows ++ [point], level kind q ≤ bound := by
  intro q hq
  rw [List.mem_append, List.mem_singleton] at hq
  obtain hq | rfl := hq
  · exact (h.peak q hq).trans hanchor
  · exact hpoint

/-- Nothing comes after the new point. -/
theorem not_after_last (hlater : ∀ q ∈ rows, q.ts < point.ts) {q : EquityPoint}
    (hq : q ∈ rows ++ [point]) : ¬point.ts < q.ts := by
  rw [List.mem_append, List.mem_singleton] at hq
  obtain hq | rfl := hq
  · exact (hlater q hq).not_gt
  · exact lt_irrefl _

/-- **The open episode recovers**, and the anchor moves to the recovery. -/
theorem Tracks.recover (h : Tracks rows kind tracker) (hlater : ∀ q ∈ rows, q.ts < point.ts)
    (hactive : tracker.active = true) (hback : level kind tracker.anchor ≤ level kind point)
    (hne : tracker.anchor.totalEquity ≠ 0) :
    Tracks (rows ++ [point]) kind ⟨tracker.episodes ++
      [record kind tracker.anchor tracker.extreme (some point.ts)], point, point, false⟩ where
  anchor_mem := List.mem_append_right _ (List.mem_singleton_self _)
  peak := h.peak_grow hback le_rfl
  spans := nofun
  flat := fun _ q hq hlt => absurd hlt (not_after_last hlater hq)
  closed := by
    intro found hfound
    rw [List.mem_append, List.mem_singleton] at hfound
    obtain hfound | rfl := hfound
    · obtain ⟨hnames, recovery, hrecovery, hle⟩ := h.closed_grow hlater found hfound
      exact ⟨hnames, recovery, hrecovery, hle.trans (h.anchor_lt hlater).le⟩
    · exact ⟨⟨tracker.anchor, tracker.extreme, (h.spans hactive).recover hlater hback, hne, rfl⟩,
        point.ts, rfl, le_rfl⟩
  ordered := by
    -- the earlier ones have recovered by the anchor, where this one starts
    rw [List.pairwise_append]
    refine ⟨h.ordered, List.pairwise_singleton _ _, ?_⟩
    intro earlier hearlier later hlaterMem
    rw [List.mem_singleton] at hlaterMem
    subst hlaterMem
    obtain ⟨-, recovery, hrecovery, hle⟩ := h.closed earlier hearlier
    exact ⟨recovery, hrecovery, hle⟩
  covered := by
    intro q hq hle hbelowPeak
    by_cases hqAnchor : q.ts ≤ tracker.anchor.ts
    · obtain ⟨found, hfound, hwithin⟩ := h.covered_grow hlater q hq hqAnchor hbelowPeak
      exact ⟨found, List.mem_append_left _ hfound, hwithin⟩
    · -- after the anchor it is within the episode that just closed
      refine ⟨_, List.mem_append_right _ (List.mem_singleton_self _), not_le.1 hqAnchor, ?_⟩
      rintro _ ⟨⟩
      -- the recovery itself is not below the peak
      refine lt_of_le_of_ne hle fun heq => ?_
      rw [List.mem_append, List.mem_singleton] at hq
      obtain hq | rfl := hq
      · exact absurd heq (hlater q hq).ne
      · obtain ⟨a, ha, hbefore, hlt⟩ := hbelowPeak
        exact absurd (hlt.trans_le (h.peak a (mem_of_lt ha hbefore))) (not_lt.2 hback)

/-- **The episode is open** after the new point, at the extreme that it leaves. -/
theorem Tracks.open (h : Tracks rows kind tracker) (hlater : ∀ q ∈ rows, q.ts < point.ts)
    {extreme : EquityPoint} (hspans : Spans (rows ++ [point]) kind tracker.anchor extreme none) :
    Tracks (rows ++ [point]) kind { tracker with active := true, extreme := extreme } where
  anchor_mem := List.mem_append_left _ h.anchor_mem
  peak := fun q hq => hspans.peak q hq forall_mem_none
  spans := fun _ => hspans
  flat := nofun
  closed := h.closed_grow hlater
  ordered := h.ordered
  covered := h.covered_grow hlater

/-- **A new peak** moves the anchor. -/
theorem Tracks.climb (h : Tracks rows kind tracker) (hlater : ∀ q ∈ rows, q.ts < point.ts)
    (hactive : tracker.active = false) (habove : level kind tracker.anchor < level kind point) :
    Tracks (rows ++ [point]) kind { tracker with anchor := point } where
  anchor_mem := List.mem_append_right _ (List.mem_singleton_self _)
  peak := h.peak_grow habove.le le_rfl
  spans := fun hnot => absurd (hactive.symm.trans hnot) (by decide)
  flat := fun _ q hq hlt => absurd hlt (not_after_last hlater hq)
  closed := by
    intro found hfound
    obtain ⟨hnames, recovery, hrecovery, hle⟩ := h.closed_grow hlater found hfound
    exact ⟨hnames, recovery, hrecovery, hle.trans (h.anchor_lt hlater).le⟩
  ordered := h.ordered
  covered := by
    intro q hq hle hbelowPeak
    by_cases hqAnchor : q.ts ≤ tracker.anchor.ts
    · exact h.covered_grow hlater q hq hqAnchor hbelowPeak
    · -- since the anchor equity has not been below it
      obtain ⟨a, ha, hbefore, hlt⟩ := hbelowPeak
      have haRows := mem_of_lt ha (hbefore.trans_le hle)
      rw [List.mem_append, List.mem_singleton] at hq
      obtain hq | rfl := hq
      · have hflat := h.flat hactive q hq (not_le.1 hqAnchor)
        exact absurd (hlt.trans_le (h.peak a haRows)) (not_lt.2 hflat)
      · exact absurd (hlt.trans_le (h.peak a haRows)) (not_lt.2 habove.le)

/-- **Equity stays** at the anchor. -/
theorem Tracks.stay (h : Tracks rows kind tracker) (hlater : ∀ q ∈ rows, q.ts < point.ts)
    (hactive : tracker.active = false) (hlevel : level kind point = level kind tracker.anchor) :
    Tracks (rows ++ [point]) kind tracker where
  anchor_mem := List.mem_append_left _ h.anchor_mem
  peak := h.peak_grow le_rfl hlevel.le
  spans := fun hnot => absurd (hactive.symm.trans hnot) (by decide)
  flat := by
    intro _ q hq hlt
    rw [List.mem_append, List.mem_singleton] at hq
    obtain hq | rfl := hq
    · exact h.flat hactive q hq hlt
    · exact hlevel.ge
  closed := h.closed_grow hlater
  ordered := h.ordered
  covered := h.covered_grow hlater

/-- **One round keeps the invariant.** -/
theorem Tracks.advance (h : Tracks rows kind tracker) (hlater : ∀ q ∈ rows, q.ts < point.ts)
    (hstep : Episodes.advance kind tracker point = .ok tracker') :
    Tracks (rows ++ [point]) kind tracker' := by
  rw [advance_eq_ok] at hstep
  obtain ⟨hactive, hback, found, hfound, rfl⟩ | ⟨hactive, hbelow, rfl⟩ |
    ⟨hactive, hbelow, rfl⟩ | ⟨hactive, habove, rfl⟩ | ⟨hactive, hlevel, rfl⟩ := hstep
  · -- back at the anchor, the point is no new extreme
    rw [if_neg (not_lt.2 ((h.spans hactive).extreme_lt.le.trans hback))] at hfound
    obtain ⟨-, hne, rfl⟩ := episode_eq_ok.1 hfound
    exact h.recover hlater hactive hback hne
  · have hopen := h.open hlater ((h.spans hactive).extend hlater hbelow)
    rw [← hactive] at hopen
    exact hopen
  · exact h.open hlater (Spans.start h.anchor_mem hlater h.peak (h.flat hactive) hbelow)
  · exact h.climb hlater hactive habove
  · exact h.stay hlater hactive hlevel

/-- Nothing stops a round but an anchor of zero under an open episode. -/
theorem Tracks.exists_advance (h : Tracks rows kind tracker)
    (hlater : ∀ q ∈ rows, q.ts < point.ts)
    (hne : tracker.active = true → tracker.anchor.totalEquity ≠ 0) :
    ∃ tracker', Episodes.advance kind tracker point = .ok tracker' := by
  simp only [advance_eq_ok]
  cases hactive : tracker.active with
  | true =>
    by_cases hback : level kind tracker.anchor ≤ level kind point
    · have hspans := h.spans hactive
      refine ⟨_, .inl ⟨rfl, hback, _, episode_eq_ok.2 ⟨?_, hne hactive, rfl⟩, rfl⟩⟩
      split
      · exact h.anchor_lt hlater
      · exact within_none.1 hspans.extreme_within
    · exact ⟨_, .inr (.inl ⟨rfl, not_le.1 hback, rfl⟩)⟩
  | false =>
    rcases lt_trichotomy (level kind point) (level kind tracker.anchor) with hlt | heq | hgt
    · exact ⟨_, .inr (.inr (.inl ⟨rfl, hlt, rfl⟩))⟩
    · exact ⟨_, .inr (.inr (.inr (.inr ⟨rfl, heq, rfl⟩)))⟩
    · exact ⟨_, .inr (.inr (.inr (.inl ⟨rfl, hgt, rfl⟩)))⟩

/-- In rows that go on later, the anchor of an open episode is a peak that equity has left. -/
theorem Priced.anchor_ne_zero (hpriced : Priced (rows ++ rest) kind)
    (hlater : ∀ q ∈ rows, ∀ r ∈ rest, q.ts < r.ts)
    (h : Spans rows kind anchor extreme none) : anchor.totalEquity ≠ 0 := by
  have hchange := hpriced extreme (List.mem_append_left _ h.extreme_mem) anchor
    (List.mem_append_left _ h.anchor_mem) (within_none.1 h.extreme_within) ?_ h.extreme_lt
  · omega
  · intro q hq hle
    rw [List.mem_append] at hq
    obtain hq | hq := hq
    · exact h.peak q hq forall_mem_none
    · exact absurd hle (not_le.2 (hlater extreme h.extreme_mem q hq))

/-- The loop starts at the first row. -/
theorem tracks_first (kind : EpisodeKind) (first : EquityPoint) :
    Tracks [first] kind ⟨[], first, first, false⟩ where
  anchor_mem := List.mem_singleton_self _
  peak := by
    intro q hq
    rw [List.mem_singleton.1 hq]
  spans := by
    intro h
    cases h
  flat := by
    intro _ q hq _
    rw [List.mem_singleton.1 hq]
  closed := by
    intro found hfound
    cases hfound
  ordered := List.Pairwise.nil
  covered := by
    rintro q hq hle ⟨a, ha, hbefore, -⟩
    rw [List.mem_singleton.1 hq, List.mem_singleton.1 ha] at hbefore
    exact absurd hbefore (lt_irrefl _)

/-- **The loop keeps the invariant**, by induction on the rows still to come. -/
theorem Tracks.run (h : Tracks rows kind tracker)
    (hincreasing : (rows ++ rest).Pairwise fun earlier later => earlier.ts < later.ts)
    (hrun : rest.foldlM (Episodes.advance kind) tracker = .ok tracker') :
    Tracks (rows ++ rest) kind tracker' := by
  induction rest generalizing rows tracker with
  | nil =>
    cases hrun
    rwa [List.append_nil]
  | cons point rest ih =>
    -- the rows so far end before the point, which the step needs
    rw [List.foldlM_cons, Except.bind_eq_ok] at hrun
    obtain ⟨next, hstep, hrun⟩ := hrun
    have hlater : ∀ q ∈ rows, q.ts < point.ts := fun q hq =>
      (List.pairwise_append.1 hincreasing).2.2 q hq point (List.mem_cons_self ..)
    rw [List.append_cons] at hincreasing ⊢
    exact ih (h.advance hlater hstep) hincreasing hrun

/-- **Priced, the loop ends.** -/
theorem Tracks.exists_run (h : Tracks rows kind tracker)
    (hincreasing : (rows ++ rest).Pairwise fun earlier later => earlier.ts < later.ts)
    (hpriced : Priced (rows ++ rest) kind) :
    ∃ tracker', rest.foldlM (Episodes.advance kind) tracker = .ok tracker' := by
  induction rest generalizing rows tracker with
  | nil => exact ⟨tracker, rfl⟩
  | cons point rest ih =>
    have hafter := (List.pairwise_append.1 hincreasing).2.2
    have hlater : ∀ q ∈ rows, q.ts < point.ts := fun q hq =>
      hafter q hq point (List.mem_cons_self ..)
    obtain ⟨next, hstep⟩ := h.exists_advance hlater fun hactive =>
      hpriced.anchor_ne_zero hafter (h.spans hactive)
    rw [List.append_cons] at hincreasing hpriced
    obtain ⟨last, hlast⟩ := ih (h.advance hlater hstep) hincreasing hpriced
    refine ⟨last, ?_⟩
    rw [List.foldlM_cons, Except.bind_eq_ok]
    exact ⟨next, hstep, hlast⟩

end Invariant

/-! ### The whole pass -/

section Pass

variable {rows : List EquityPoint} {kind : EpisodeKind} {episodes : List Episode}
  {found other : Episode} {ts : ℤ} {tracker : Tracker}

/-- An instant is within at most one of the ordered episodes. -/
theorem eq_of_within (hordered : episodes.Pairwise Before) (hfound : found ∈ episodes)
    (hother : other ∈ episodes) (h : Within found.startTs found.recoveryTs ts)
    (h' : Within other.startTs other.recoveryTs ts) : found = other := by
  have hdisjoint : episodes.Pairwise fun a b =>
      ¬(Within a.startTs a.recoveryTs ts ∧ Within b.startTs b.recoveryTs ts) := by
    refine hordered.imp ?_
    rintro a b ⟨recovery, hrecovery, hle⟩ ⟨hwithin, hstart, -⟩
    have := hwithin.2 recovery hrecovery
    omega
  have hsymm : Std.Symm fun a b : Episode =>
      ¬(Within a.startTs a.recoveryTs ts ∧ Within b.startTs b.recoveryTs ts) :=
    ⟨fun _ _ hnot hboth => hnot hboth.symm⟩
  by_contra hne
  exact hdisjoint.forall hfound hother hne ⟨h, h'⟩

/-- **What the loop has found is correct** once the open episode is added. -/
theorem Tracks.correct (h : Tracks rows kind tracker)
    (hepisodes : if tracker.active then
        tracker.anchor.totalEquity ≠ 0 ∧
          episodes = tracker.episodes ++ [record kind tracker.anchor tracker.extreme none]
      else episodes = tracker.episodes) :
    Correct rows kind episodes := by
  -- a point before the anchor is covered by a closed episode, a later one by the open one
  have hexists : ∀ q ∈ rows, BelowPeak rows kind q → ∃ found ∈ episodes,
      Within found.startTs found.recoveryTs q.ts := by
    intro q hq hbelow
    by_cases hle : q.ts ≤ tracker.anchor.ts
    · obtain ⟨found, hfound, hwithin⟩ := h.covered q hq hle hbelow
      refine ⟨found, ?_, hwithin⟩
      split at hepisodes
      · rw [hepisodes.2]
        exact List.mem_append_left _ hfound
      · rwa [hepisodes]
    · split at hepisodes
      · rw [hepisodes.2]
        exact ⟨_, List.mem_append_right _ (List.mem_singleton_self _),
          within_none.2 (not_le.1 hle)⟩
      · -- with no episode open, equity has not fallen since the anchor
        next hactive =>
        obtain ⟨a, ha, -, hlt⟩ := hbelow
        have hflat := h.flat (Bool.eq_false_iff.2 hactive) q hq (not_le.1 hle)
        exact absurd (hlt.trans_le (h.peak a ha)) (not_lt.2 hflat)
  -- the open episode begins when the closed ones are over
  have hordered : episodes.Pairwise Before := by
    split at hepisodes
    · rw [hepisodes.2, List.pairwise_append]
      refine ⟨h.ordered, List.pairwise_singleton _ _, ?_⟩
      intro earlier hearlier later hlater
      rw [List.mem_singleton.1 hlater]
      exact (h.closed earlier hearlier).2
    · rw [hepisodes]
      exact h.ordered
  refine ⟨?_, hordered, ?_⟩
  · intro found hfound
    split at hepisodes
    · next hactive =>
      rw [hepisodes.2, List.mem_append, List.mem_singleton] at hfound
      obtain hfound | rfl := hfound
      · exact (h.closed found hfound).1
      · exact ⟨tracker.anchor, tracker.extreme, h.spans hactive, hepisodes.1, rfl⟩
    · rw [hepisodes] at hfound
      exact (h.closed found hfound).1
  · intro q hq hbelow
    obtain ⟨found, hfound, hwithin⟩ := hexists q hq hbelow
    refine ⟨found, ⟨hfound, hwithin⟩, ?_⟩
    -- episodes in their order do not overlap
    rintro other ⟨hother, hwithin'⟩
    exact eq_of_within hordered hother hfound hwithin' hwithin

/-- What is returned is correct. -/
theorem correct_of_relativeEpisodes
    (hincreasing : rows.Pairwise fun earlier later => earlier.ts < later.ts)
    (h : relativeEpisodes rows kind = .ok episodes) : Correct rows kind episodes := by
  cases rows with
  | nil => cases h
  | cons first rest =>
    unfold relativeEpisodes at h
    dsimp only at h
    rw [Except.bind_eq_ok] at h
    obtain ⟨tracker, hrun, h⟩ := h
    have htracks := (tracks_first kind first).run hincreasing hrun
    apply htracks.correct
    cases hactive : tracker.active with
    | true =>
      -- the episode still open at the end is returned without a recovery
      rw [hactive, if_pos rfl, Except.bind_eq_ok] at h
      obtain ⟨last, hlast, heq⟩ := h
      obtain ⟨-, hne, rfl⟩ := episode_eq_ok.1 hlast
      rw [if_pos rfl]
      exact ⟨hne, (Except.ok.inj heq).symm⟩
    | false =>
      rw [hactive, if_neg Bool.false_ne_true] at h
      rw [if_neg Bool.false_ne_true]
      exact (Except.ok.inj h).symm

/-- Priced rows have their episodes returned. -/
theorem exists_relativeEpisodes (hne : rows ≠ [])
    (hincreasing : rows.Pairwise fun earlier later => earlier.ts < later.ts)
    (hpriced : Priced rows kind) :
    ∃ episodes, relativeEpisodes rows kind = .ok episodes := by
  cases rows with
  | nil => exact absurd rfl hne
  | cons first rest =>
    obtain ⟨tracker, hrun⟩ := (tracks_first kind first).exists_run hincreasing hpriced
    have htracks := (tracks_first kind first).run hincreasing hrun
    unfold relativeEpisodes
    dsimp only
    simp only [Except.bind_eq_ok]
    cases hactive : tracker.active with
    | true =>
      -- an episode is still open at the end and is closed without a recovery
      have hspans := htracks.spans hactive
      have hpriced' : Priced (([first] ++ rest) ++ []) kind := by
        rw [List.append_nil]
        exact hpriced
      have hanchor := hpriced'.anchor_ne_zero (fun _ _ r hr => absurd hr List.not_mem_nil) hspans
      refine ⟨tracker.episodes ++ [record kind tracker.anchor tracker.extreme none], tracker,
        hrun, ?_⟩
      rw [if_pos hactive, Except.bind_eq_ok]
      exact ⟨_, episode_eq_ok.2 ⟨within_none.1 hspans.extreme_within, hanchor, rfl⟩, rfl⟩
    | false =>
      refine ⟨tracker.episodes, tracker, hrun, ?_⟩
      rw [if_neg (by rw [hactive]; exact Bool.false_ne_true)]
      rfl

end Pass

/-! ### Depths -/

section Depths

variable {rows : List EquityPoint} {kind : EpisodeKind} {episodes : List Episode}
  {anchor extreme point : EquityPoint} {equity other base : ℤ} {found : Episode}
  {recoveryTs : Option ℤ}

theorem change_mono (h : (equity : ℚ) / base ≤ (other : ℚ) / base) :
    change equity base ≤ change other base :=
  Binary64.le_def.2 (binary64.round_mono (sub_le_sub_right (binary64.round_mono h) _))

/-- A quotient of at most one gives no positive change, -/
theorem change_nonpos (h : (equity : ℚ) / base ≤ 1) : change equity base ≤ Binary64.zero := by
  have hround : binary64.round ((equity : ℚ) / base) - binary64.round 1 ≤ 0 :=
    sub_nonpos.2 (binary64.round_mono h)
  have hchange := binary64.round_mono hround
  rw [binary64.round_zero] at hchange
  exact Binary64.le_def.2 hchange

/-- and one of at least one no negative change. -/
theorem change_nonneg (h : 1 ≤ (equity : ℚ) / base) : Binary64.zero ≤ change equity base :=
  Binary64.le_def.2 (binary64.round_nonneg (sub_nonneg.2 (binary64.round_mono h)))

theorem eq_zero_of_le {x : Binary64} (h : x ≤ Binary64.zero) (h' : Binary64.zero ≤ x) :
    x = Binary64.zero :=
  Binary64.ext (le_antisymm (Binary64.le_def.1 h) (Binary64.le_def.1 h'))

/-- `x` is at least as deep as `y`. -/
def EpisodeKind.AsDeep : EpisodeKind → Binary64 → Binary64 → Prop
  | .drawdown, x, y => x ≤ y
  | .runup, x, y => y ≤ x

theorem isDeepest_iff {depths : Set Binary64} {depth : Binary64} :
    IsDeepest kind depths depth ↔ depth ∈ depths ∧ ∀ x ∈ depths, kind.AsDeep depth x := by
  cases kind with
  | drawdown => exact Iff.rfl
  | runup => exact Iff.rfl

theorem EpisodeKind.AsDeep.refl (kind : EpisodeKind) (x : Binary64) : kind.AsDeep x x := by
  cases kind with
  | drawdown => exact le_refl x.val
  | runup => exact le_refl x.val

theorem EpisodeKind.AsDeep.trans {x y z : Binary64} (h : kind.AsDeep x y)
    (h' : kind.AsDeep y z) : kind.AsDeep x z := by
  cases kind with
  | drawdown => exact le_trans (Binary64.le_def.1 h) (Binary64.le_def.1 h')
  | runup => exact le_trans (Binary64.le_def.1 h') (Binary64.le_def.1 h)

theorem EpisodeKind.AsDeep.antisymm {x y : Binary64} (h : kind.AsDeep x y)
    (h' : kind.AsDeep y x) : x = y := by
  cases kind with
  | drawdown => exact Binary64.ext (le_antisymm h h')
  | runup => exact Binary64.ext (le_antisymm h' h)

/-- The deepest of all is among some, if these have one as deep for each. -/
theorem isDeepest_congr {depths depths' : Set Binary64} {depth : Binary64}
    (hsub : depths ⊆ depths') (hcofinal : ∀ x ∈ depths', ∃ y ∈ depths, kind.AsDeep y x) :
    IsDeepest kind depths depth ↔ IsDeepest kind depths' depth := by
  rw [isDeepest_iff, isDeepest_iff]
  constructor
  · rintro ⟨hmem, hdeepest⟩
    refine ⟨hsub hmem, fun x hx => ?_⟩
    obtain ⟨y, hy, hyx⟩ := hcofinal x hx
    exact (hdeepest y hy).trans hyx
  · rintro ⟨hmem, hdeepest⟩
    obtain ⟨y, hy, hydepth⟩ := hcofinal depth hmem
    have heq : depth = y := (hdeepest y (hsub hy)).antisymm hydepth
    exact ⟨heq ▸ hy, fun x hx => hdeepest x (hsub hx)⟩

/-- From a positive anchor the deeper point has the deeper change. -/
theorem asDeep_of_pos (hpos : 0 < base) (h : kind.key equity ≤ kind.key other) :
    kind.AsDeep (change equity base) (change other base) := by
  have hbase : (0 : ℚ) ≤ base := by exact_mod_cast hpos.le
  cases kind with
  | drawdown =>
    have hle : equity ≤ other := h
    exact change_mono (div_le_div_of_nonneg_right (by exact_mod_cast hle) hbase)
  | runup =>
    have hle : other ≤ equity := neg_le_neg_iff.1 h
    exact change_mono (div_le_div_of_nonneg_right (by exact_mod_cast hle) hbase)

/-- From a negative anchor it is the other way round. -/
theorem asDeep_of_neg (hneg : base < 0) (h : kind.key equity ≤ kind.key other) :
    kind.AsDeep (change other base) (change equity base) := by
  have hbase : (base : ℚ) ≤ 0 := by exact_mod_cast hneg.le
  cases kind with
  | drawdown =>
    have hle : equity ≤ other := h
    exact change_mono (div_le_div_of_nonpos_of_le hbase (by exact_mod_cast hle))
  | runup =>
    have hle : other ≤ equity := neg_le_neg_iff.1 h
    exact change_mono (div_le_div_of_nonpos_of_le hbase (by exact_mod_cast hle))

/-- The sign that the table wants: a depth at least as deep as none. -/
theorem depth_sign_iff {row : EpisodeRow} (hkind : row.kind = kind) :
    (row.kind = .drawdown ∧ row.depthPct ≤ Binary64.zero) ∨
        (row.kind = .runup ∧ Binary64.zero ≤ row.depthPct) ↔
      kind.AsDeep row.depthPct Binary64.zero := by
  rw [hkind]
  cases kind with
  | drawdown => simp [EpisodeKind.AsDeep]
  | runup => simp [EpisodeKind.AsDeep]

/-- A change from the anchor itself is none. -/
theorem change_self (hne : base ≠ 0) : change base base = Binary64.zero := by
  have hone : (base : ℚ) / base = 1 := div_self (by exact_mod_cast hne)
  exact eq_zero_of_le (change_nonpos hone.le) (change_nonneg hone.ge)

/-- **The anchor of an episode** is the running peak of each point within it. -/
theorem Spans.anchor_eq (h : Spans rows kind anchor extreme recoveryTs)
    (hwithin : Within anchor.ts recoveryTs point.ts) {peak : EquityPoint} (hpeak : peak ∈ rows)
    (hbefore : peak.ts < point.ts)
    (hleast : ∀ q ∈ rows, q.ts ≤ point.ts → level kind q ≤ level kind peak) :
    anchor.totalEquity = peak.totalEquity := by
  have hlevel : level kind anchor = level kind peak := by
    apply le_antisymm
    · exact hleast anchor h.anchor_mem hwithin.1.le
    · exact h.peak peak hpeak fun recovery hrecovery =>
        hbefore.trans (hwithin.2 recovery hrecovery)
  exact EpisodeKind.key_injective hlevel

/-- The anchor is the running peak when equity is deepest. -/
theorem Spans.running (h : Spans rows kind anchor extreme recoveryTs) :
    ∀ q ∈ rows, q.ts ≤ extreme.ts → level kind q ≤ level kind anchor := fun q hq hle =>
  h.peak q hq fun recovery hrecovery =>
    hle.trans_lt (h.extreme_within.2 recovery hrecovery)

/-- Priced, an episode has a depth of the sign the table wants. -/
theorem Spans.asDeep_zero (h : Spans rows kind anchor extreme recoveryTs)
    (hpriced : Priced rows kind) :
    kind.AsDeep (change extreme.totalEquity anchor.totalEquity) Binary64.zero := by
  obtain hpos | ⟨-, hzero⟩ := hpriced extreme h.extreme_mem anchor h.anchor_mem
    h.extreme_within.1 h.running h.extreme_lt
  · rw [← change_self hpos.ne']
    exact asDeep_of_pos hpos h.extreme_lt.le
  · rw [hzero]
    exact EpisodeKind.AsDeep.refl kind _

/-- Priced, the extreme has the deepest change of the points within its episode. -/
theorem Spans.asDeep_change (h : Spans rows kind anchor extreme recoveryTs)
    (hpriced : Priced rows kind) (hpoint : point ∈ rows)
    (hwithin : Within anchor.ts recoveryTs point.ts)
    (hbelow : level kind point < level kind anchor) :
    kind.AsDeep (change extreme.totalEquity anchor.totalEquity)
      (change point.totalEquity anchor.totalEquity) := by
  obtain hpos | ⟨hneg, hzero⟩ := hpriced extreme h.extreme_mem anchor h.anchor_mem
    h.extreme_within.1 h.running h.extreme_lt
  · exact asDeep_of_pos hpos (h.deepest point hpoint hwithin)
  · -- below zero no change is as deep as none but none itself
    rw [hzero]
    have hrunning : ∀ q ∈ rows, q.ts ≤ point.ts → level kind q ≤ level kind anchor :=
      fun q hq hle => h.peak q hq fun recovery hrecovery =>
        hle.trans_lt (hwithin.2 recovery hrecovery)
    obtain hpos | ⟨-, hzero'⟩ := hpriced point hpoint anchor h.anchor_mem hwithin.1 hrunning
      hbelow
    · omega
    · rw [hzero']
      exact EpisodeKind.AsDeep.refl kind _

/-- The row of an episode meets the constraints when its depth has the sign for it. -/
theorem Spans.checks_iff (h : Spans rows kind anchor extreme recoveryTs)
    (trades : List TradeSpan) :
    (episodeRow trades (record kind anchor extreme recoveryTs)).Checks ↔
      kind.AsDeep (change extreme.totalEquity anchor.totalEquity) Binary64.zero := by
  have hkind : (episodeRow trades (record kind anchor extreme recoveryTs)).kind = kind := rfl
  have hsign := depth_sign_iff hkind
  constructor
  · intro hchecks
    exact hsign.1 hchecks.depth_sign
  · intro hdeep
    exact ⟨le_max_left _ _, Nat.zero_le _, h.extreme_within.1,
      fun recovery hrecovery => (h.extreme_within.2 recovery hrecovery).le, hsign.2 hdeep⟩

/-- **Episodes are correct exactly when their anchors are priced.** The equity of an anchor that
is left again divides the changes of its episode, whose sign the table checks: it has to be
positive, or negative with a change that rounds to none. -/
theorem episodesCorrect_iff (hne : rows ≠ [])
    (hincreasing : rows.Pairwise fun earlier later => earlier.ts < later.ts) :
    EpisodesCorrect rows ↔ ∀ kind, Priced rows kind := by
  refine forall_congr' fun kind => ?_
  constructor
  · rintro ⟨episodes, -, hcorrect, -, hchecks⟩ point hpoint peak hpeak hbefore hrunning hbelow
    obtain ⟨found, ⟨hfound, hwithin⟩, -⟩ :=
      hcorrect.covered point hpoint ⟨peak, hpeak, hbefore, hbelow⟩
    obtain ⟨anchor, extreme, hspans, hanchor, heq⟩ := hcorrect.named found hfound
    have hdepth := hchecks found hfound []
    rw [heq] at hdepth hwithin
    rw [hspans.checks_iff] at hdepth
    -- the peak and the anchor have one level, so the anchor is priced
    have hequity := hspans.anchor_eq hwithin hpeak hbefore hrunning
    rw [← hequity]
    rcases lt_trichotomy anchor.totalEquity 0 with hneg | hzero | hpos
    · -- the change to the point lies between none and that to the extreme
      refine .inr ⟨hneg, ?_⟩
      have hlevel : kind.key point.totalEquity ≤ kind.key anchor.totalEquity := by
        rw [hequity]
        exact hbelow.le
      have hshallow := asDeep_of_neg hneg hlevel
      rw [change_self hneg.ne] at hshallow
      have hdeep := asDeep_of_neg hneg (hspans.deepest point hpoint hwithin)
      exact (hdeep.trans hdepth).antisymm hshallow
    · exact absurd hzero hanchor
    · exact .inl hpos
  · intro hpriced
    obtain ⟨episodes, hepisodes⟩ := exists_relativeEpisodes hne hincreasing hpriced
    have hcorrect := correct_of_relativeEpisodes hincreasing hepisodes
    refine ⟨episodes, hepisodes, hcorrect, fun depth => isDeepest_congr ?_ ?_, ?_⟩
    · rintro _ ⟨found, hfound, rfl⟩
      obtain ⟨anchor, extreme, hspans, -, heq⟩ := hcorrect.named found hfound
      rw [heq]
      exact ⟨extreme, hspans.extreme_mem, anchor, hspans.anchor_mem, hspans.extreme_within.1,
        hspans.running, hspans.extreme_lt, rfl⟩
    · rintro _ ⟨point, hpoint, peak, hpeak, hbefore, hrunning, hbelow, rfl⟩
      obtain ⟨found, ⟨hfound, hwithin⟩, -⟩ :=
        hcorrect.covered point hpoint ⟨peak, hpeak, hbefore, hbelow⟩
      obtain ⟨anchor, extreme, hspans, -, heq⟩ := hcorrect.named found hfound
      refine ⟨_, ⟨found, hfound, rfl⟩, ?_⟩
      rw [heq] at hwithin ⊢
      have hequity := hspans.anchor_eq hwithin hpeak hbefore hrunning
      have hbelow' : level kind point < level kind anchor := by
        unfold level at hbelow ⊢
        rwa [hequity]
      rw [← hequity]
      exact hspans.asDeep_change hpriced hpoint hwithin hbelow'
    · intro found hfound trades
      obtain ⟨anchor, extreme, hspans, -, heq⟩ := hcorrect.named found hfound
      rw [heq]
      exact (hspans.checks_iff trades).2 (hspans.asDeep_zero hpriced)

/-- **Positive equity** is priced. -/
theorem priced_of_pos (h : ∀ point ∈ rows, 0 < point.totalEquity) : Priced rows kind :=
  fun _ _ peak hpeak _ _ _ => .inl (h peak hpeak)

/-- A dip and its recovery. -/
theorem episodesCorrect_of_dip : EpisodesCorrect [⟨1000, 100⟩, ⟨2000, 90⟩, ⟨3000, 110⟩] := by
  have hpos : ∀ point ∈ [(⟨1000, 100⟩ : EquityPoint), ⟨2000, 90⟩, ⟨3000, 110⟩],
      0 < point.totalEquity := by decide
  exact (episodesCorrect_iff (List.cons_ne_nil _ _) (by decide)).2 fun _ => priced_of_pos hpos

/-- **A ruined account that recovers** has no episodes: its run-up is divided by zero. -/
theorem not_episodesCorrect_of_ruin :
    relativeEpisodes [⟨1000, 100⟩, ⟨2000, 0⟩, ⟨3000, 50⟩] .runup = .error .zeroDivision ∧
      ¬EpisodesCorrect [⟨1000, 100⟩, ⟨2000, 0⟩, ⟨3000, 50⟩] := by
  have hruin : relativeEpisodes [⟨1000, 100⟩, ⟨2000, 0⟩, ⟨3000, 50⟩] .runup =
      .error .zeroDivision := rfl
  refine ⟨hruin, fun hcorrect => ?_⟩
  obtain ⟨episodes, hepisodes, -⟩ := hcorrect .runup
  rw [hruin] at hepisodes
  cases hepisodes

end Depths

end Episodes
end TradingSystem
