import TradingSystem.Engine.EquityCurve
import TradingSystem.Evidence.Acceptance
import TradingSystem.Evidence.Episodes

/-!
# The drawdowns of a run

A run stores with each row of its equity the peak up to it and the drawdown from it. When it has
ended, the drawdown episodes are derived a second time, from the stored equities alone. The two
agree: a row below its stored peak is in exactly one episode, and this episode has that peak.

* `Opened` — until the first row nothing is held, so the first equity is the capital.
* `drawdownsAgree` — rows whose peaks are running peaks above zero have their drawdowns derived.
* `rows_increasing` — where the clock keeps them apart, the rows are stored in order.
* `drawdownEpisodes_of_reachable` — there the rows of every run are such rows.
-/

namespace TradingSystem

open Numeric Logic Episodes

/-! ### The derivation -/

/-- A row as the derivation reads it. -/
def equityPoint (row : PortfolioRow) : Except Fault EquityPoint := do
  let equity ← scaleDecimal row.totalEquity
  return ⟨epochMilliseconds row.ts, equity⟩

/-- `_derive_drawdown_runup_episodes`, for one kind: less than two rows have no episode. -/
def derivedEpisodes (kind : EpisodeKind) (rows : List PortfolioRow) :
    Except Fault (List Episode) := do
  let points ← (rows.mergeSort Engine.rowOrder).mapM equityPoint
  if points.length < 2 then return [] else relativeEpisodes points kind

/-- The point that a row is stored as. -/
def StoredPoint (row : PortfolioRow) (point : EquityPoint) : Prop :=
  point.ts = epochMilliseconds row.ts ∧ row.totalEquity = point.totalEquity * qAmount

theorem equityPoint_eq_ok {row : PortfolioRow} {point : EquityPoint}
    (h : equityPoint row = .ok point) : StoredPoint row point := by
  obtain ⟨equity, hequity, heq⟩ := Except.bind_eq_ok.1 h
  cases heq
  exact ⟨rfl, (scaleDecimal_eq_ok.1 hequity).1⟩

/-- Rows whose equities fit the table are read. -/
theorem exists_equityPoints {rows : List PortfolioRow}
    (h : ∀ row ∈ rows, IsMoney row.totalEquity ∧ FitsTable row.totalEquity) :
    ∃ points, rows.mapM equityPoint = .ok points ∧ List.Forall₂ StoredPoint rows points := by
  induction rows with
  | nil => exact ⟨[], rfl, .nil⟩
  | cons row rows ih =>
    -- each row is scaled on its own
    obtain ⟨points, hpoints, hstored⟩ := ih fun other hother =>
      h other (List.mem_cons_of_mem _ hother)
    obtain ⟨hmoney, hfits⟩ := h row List.mem_cons_self
    obtain ⟨equity, hequity⟩ := (exists_scaleDecimal_iff hmoney).2 hfits
    have hpoint : equityPoint row = .ok ⟨epochMilliseconds row.ts, equity⟩ :=
      Except.bind_eq_ok.2 ⟨equity, hequity, rfl⟩
    refine ⟨⟨epochMilliseconds row.ts, equity⟩ :: points, ?_,
      .cons (equityPoint_eq_ok hpoint) hstored⟩
    rw [List.mapM_cons, Except.bind_eq_ok]
    exact ⟨_, hpoint, Except.bind_eq_ok.2 ⟨points, hpoints, rfl⟩⟩

/-! ### What the two have in common -/

/-- The instant of a row is after the start of an episode and before its recovery. -/
def InEpisode (episode : Episode) (row : PortfolioRow) : Prop :=
  Within episode.startTs episode.recoveryTs (epochMilliseconds row.ts)

/-- The peak of an episode is the peak stored with a row. -/
def SamePeak (episode : Episode) (row : PortfolioRow) : Prop :=
  row.peakEquity = episode.peakEquity * qAmount

/-- The row at which an episode is deepest. -/
structure Deepest (rows : List PortfolioRow) (episode : Episode) (row : PortfolioRow) : Prop where
  endTs_eq : episode.endTs = epochMilliseconds row.ts
  trough_eq : row.totalEquity = episode.troughEquity * qAmount
  peak_eq : SamePeak episode row
  below : row.totalEquity < row.peakEquity
  /-- No row of the episode has a deeper drawdown stored. -/
  drawdown_le : ∀ other ∈ rows, InEpisode episode other → row.drawdownPct ≤ other.drawdownPct

/-- **The episodes agree with the rows.** -/
structure DrawdownsAgree (rows : List PortfolioRow) (episodes : List Episode) : Prop where
  ordered : episodes.Pairwise Before
  /-- A row below its peak is in exactly one episode, which has this peak. -/
  covered : ∀ row ∈ rows, row.totalEquity < row.peakEquity →
    ∃! episode, episode ∈ episodes ∧ InEpisode episode row ∧ SamePeak episode row
  /-- An episode names the row at which it is deepest. -/
  deepest : ∀ episode ∈ episodes, ∃ row ∈ rows, Deepest rows episode row
  /-- The table takes the row of each. -/
  accepted : ∀ episode ∈ episodes, ∀ trades, (episodeRow trades episode).Checks

/-- **Rows with their running peaks**: increasing in time, the peaks above zero, the drawdowns
those from the peaks. -/
structure Peaked (rows : List PortfolioRow) : Prop where
  increasing : (rows.map fun row => epochMilliseconds row.ts).Pairwise (· < ·)
  peak : ∀ row ∈ rows, ∃ peak ∈ rows, epochMilliseconds peak.ts ≤ epochMilliseconds row.ts ∧
    peak.totalEquity = row.peakEquity
  running : ∀ row ∈ rows, ∀ other ∈ rows, epochMilliseconds other.ts ≤ epochMilliseconds row.ts →
    other.totalEquity ≤ row.peakEquity
  peak_pos : ∀ row ∈ rows, 0 < row.peakEquity
  drawdown_eq : ∀ row ∈ rows, row.drawdownPct = Engine.drawdown row.totalEquity row.peakEquity

section Agreement

variable {rows : List PortfolioRow} {points : List EquityPoint} {row : PortfolioRow}
  {point : EquityPoint} {episodes : List Episode} {found : Episode}

theorem StoredPoint.le_iff {other : PortfolioRow} {q : EquityPoint} (h : StoredPoint row point)
    (h' : StoredPoint other q) :
    row.totalEquity ≤ other.totalEquity ↔ point.totalEquity ≤ q.totalEquity := by
  rw [h.2, h'.2, mul_le_mul_iff_of_pos_right qAmount_pos, Int.cast_le]

/-- Related lists have a partner for each element. -/
theorem exists_partner {α β : Type} {R : α → β → Prop} {items : List α} {others : List β} {item : α}
    (h : List.Forall₂ R items others) (hitem : item ∈ items) : ∃ other ∈ others, R item other := by
  induction h with
  | nil => cases hitem
  | cons hhead _ ih =>
    rcases List.mem_cons.1 hitem with rfl | hitem
    · exact ⟨_, List.mem_cons_self, hhead⟩
    · obtain ⟨other, hother, hrelated⟩ := ih hitem
      exact ⟨other, List.mem_cons_of_mem _ hother, hrelated⟩

theorem exists_row_of_mem (h : List.Forall₂ StoredPoint rows points) (hpoint : point ∈ points) :
    ∃ row ∈ rows, StoredPoint row point := exists_partner h.flip hpoint

theorem increasing_points (h : List.Forall₂ StoredPoint rows points)
    (hincreasing : (rows.map fun row => epochMilliseconds row.ts).Pairwise (· < ·)) :
    points.Pairwise fun earlier later => earlier.ts < later.ts := by
  have htimes : points.map (·.ts) = rows.map fun row => epochMilliseconds row.ts := by
    induction h with
    | nil => rfl
    | cons hhead _ ih =>
      rw [List.map_cons, List.map_cons, hhead.1, ih (List.pairwise_cons.1 hincreasing).2]
  rw [← htimes, List.pairwise_map] at hincreasing
  exact hincreasing

/-- The peak of a row is a point, and the running peak of the points. -/
theorem Peaked.exists_peak (h : Peaked rows) (hstored : List.Forall₂ StoredPoint rows points)
    (hrow : row ∈ rows) (hpoint : StoredPoint row point) :
    ∃ peak ∈ points, peak.ts ≤ point.ts ∧ row.peakEquity = peak.totalEquity * qAmount ∧
      ∀ q ∈ points, q.ts ≤ point.ts → q.totalEquity ≤ peak.totalEquity := by
  obtain ⟨highest, hhighest, htime, hequity⟩ := h.peak row hrow
  obtain ⟨peak, hpeak, hpeakStored⟩ := exists_partner hstored hhighest
  refine ⟨peak, hpeak, ?_, hequity ▸ hpeakStored.2, ?_⟩
  · rw [hpeakStored.1, hpoint.1]
    exact htime
  · intro q hq hle
    obtain ⟨other, hother, hotherStored⟩ := exists_row_of_mem hstored hq
    rw [hotherStored.1, hpoint.1] at hle
    rw [← hotherStored.le_iff hpeakStored, hequity]
    exact h.running row hrow other hother hle

/-- A row below its peak is later than it. -/
theorem Peaked.exists_earlier_peak (h : Peaked rows)
    (hstored : List.Forall₂ StoredPoint rows points) (hrow : row ∈ rows) (hmem : point ∈ points)
    (hpoint : StoredPoint row point) (hbelow : row.totalEquity < row.peakEquity) :
    BelowPeak points .drawdown point := by
  obtain ⟨peak, hpeak, htime, hequity, -⟩ := h.exists_peak hstored hrow hpoint
  rw [hpoint.2, hequity, mul_lt_mul_iff_of_pos_right qAmount_pos, Int.cast_lt] at hbelow
  refine ⟨peak, hpeak, lt_of_le_of_ne htime fun heq => ?_, hbelow⟩
  -- no two points have one instant
  have hnodup : (points.map (·.ts)).Nodup :=
    (List.pairwise_map.2 (increasing_points hstored h.increasing)).imp ne_of_lt
  rw [List.inj_on_of_nodup_map hnodup hpeak hmem heq] at hbelow
  exact absurd hbelow (lt_irrefl _)

/-- **The peaks are priced**, since they are above zero. -/
theorem Peaked.priced (h : Peaked rows) (hstored : List.Forall₂ StoredPoint rows points) :
    Priced points .drawdown := by
  intro point hpoint peak _ _ hrunning _
  obtain ⟨row, hrow, hrowStored⟩ := exists_row_of_mem hstored hpoint
  obtain ⟨highest, hhighest, htime, hequity, -⟩ := h.exists_peak hstored hrow hrowStored
  have hpos : 0 < highest.totalEquity := by
    have hpeak := h.peak_pos row hrow
    rw [hequity] at hpeak
    exact_mod_cast (mul_pos_iff_of_pos_right qAmount_pos).1 hpeak
  exact .inl (hpos.trans_le (hrunning highest hhighest htime))

/-- **Within an episode** the stored peak is that of the episode. -/
theorem Peaked.peak_eq_of_within {anchor extreme : EquityPoint} {recoveryTs : Option ℤ}
    (h : Peaked rows) (hstored : List.Forall₂ StoredPoint rows points)
    (hspans : Spans points .drawdown anchor extreme recoveryTs) (hrow : row ∈ rows)
    (hpoint : StoredPoint row point) (hwithin : Within anchor.ts recoveryTs point.ts) :
    row.peakEquity = anchor.totalEquity * qAmount := by
  obtain ⟨peak, hpeak, htime, hequity, hrunning⟩ := h.exists_peak hstored hrow hpoint
  -- the anchor is the highest point before the recovery, the peak the highest up to the row
  have heq : peak.totalEquity = anchor.totalEquity := by
    apply le_antisymm
    · exact hspans.peak peak hpeak fun recovery hrecovery =>
        htime.trans_lt (hwithin.2 recovery hrecovery)
    · exact hrunning anchor hspans.anchor_mem hwithin.1.le
  rw [hequity, heq]

/-- A lower equity is a deeper drawdown from the same peak. -/
theorem drawdown_mono {equity other peak : Decimal} (h : equity ≤ other) :
    Engine.drawdown equity peak ≤ Engine.drawdown other peak := by
  unfold Engine.drawdown
  split
  · next hpos =>
    have hratio : equity / peak ≤ other / peak := by gcongr
    exact toFloat_mono (sub_le_sub_right hratio 1)
  · exact le_refl (Binary64.zero.val)

/-- **An episode of the points** names the row at which it is deepest. -/
theorem Peaked.exists_deepest (h : Peaked rows) (hstored : List.Forall₂ StoredPoint rows points)
    (hnames : Names points .drawdown found) : ∃ row ∈ rows, Deepest rows found row := by
  obtain ⟨anchor, extreme, hspans, -, heq⟩ := hnames
  -- the extreme is a point, so it is stored for a row
  obtain ⟨row, hrow, hrowStored⟩ := exists_row_of_mem hstored hspans.extreme_mem
  have hpeak := h.peak_eq_of_within hstored hspans hrow hrowStored hspans.extreme_within
  refine ⟨row, hrow, ?_⟩
  rw [heq]
  refine ⟨hrowStored.1, hrowStored.2, hpeak, ?_, ?_⟩
  · rw [hpeak, hrowStored.2, mul_lt_mul_iff_of_pos_right qAmount_pos, Int.cast_lt]
    exact hspans.extreme_lt
  · intro other hother hin
    obtain ⟨q, hq, hqStored⟩ := exists_partner hstored hother
    have hwithin : Within anchor.ts found.recoveryTs q.ts := by
      rw [hqStored.1]
      exact hin
    -- both drawdowns are from the peak of the episode
    rw [h.drawdown_eq row hrow, h.drawdown_eq other hother, hpeak,
      h.peak_eq_of_within hstored hspans hother hqStored hwithin]
    exact drawdown_mono ((hrowStored.le_iff hqStored).2 (hspans.deepest q hq hwithin))

/-- Correct episodes of the points agree with the rows. -/
theorem Peaked.agree (h : Peaked rows) (hstored : List.Forall₂ StoredPoint rows points)
    (hcorrect : Correct points .drawdown episodes) : DrawdownsAgree rows episodes where
  ordered := hcorrect.ordered
  covered := by
    intro row hrow hbelow
    obtain ⟨point, hpoint, hrowStored⟩ := exists_partner hstored hrow
    obtain ⟨found, ⟨hfound, hwithin⟩, hunique⟩ := hcorrect.covered point hpoint
      (h.exists_earlier_peak hstored hrow hpoint hrowStored hbelow)
    -- its anchor is the peak of all its points
    obtain ⟨anchor, extreme, hspans, -, heq⟩ := hcorrect.named found hfound
    have hwithin' : Within anchor.ts found.recoveryTs point.ts := by
      rw [heq] at hwithin
      exact hwithin
    have hpeak := h.peak_eq_of_within hstored hspans hrow hrowStored hwithin'
    refine ⟨found, ⟨hfound, ?_, ?_⟩, ?_⟩
    · rw [InEpisode, ← hrowStored.1]
      exact hwithin
    · rw [SamePeak, hpeak, heq]
      rfl
    · rintro other ⟨hother, hin, -⟩
      rw [InEpisode, ← hrowStored.1] at hin
      exact hunique other ⟨hother, hin⟩
  deepest := fun found hfound => h.exists_deepest hstored (hcorrect.named found hfound)
  accepted := by
    intro found hfound trades
    obtain ⟨anchor, extreme, hspans, -, heq⟩ := hcorrect.named found hfound
    rw [heq]
    -- a drawdown from a peak above zero has the sign that the table wants
    exact (hspans.checks_iff trades).2 (hspans.asDeep_zero (h.priced hstored))

/-- **Peaked rows have their drawdowns derived**, and these agree with them. -/
theorem drawdownsAgree (h : Peaked rows) (hsorted : rows.mergeSort Engine.rowOrder = rows)
    (hfits : ∀ row ∈ rows, IsMoney row.totalEquity ∧ FitsTable row.totalEquity) :
    ∃ episodes, derivedEpisodes .drawdown rows = .ok episodes ∧
      DrawdownsAgree rows episodes := by
  obtain ⟨points, hpoints, hstored⟩ := exists_equityPoints hfits
  have hincreasing := increasing_points hstored h.increasing
  have hderived : ∀ episodes, derivedEpisodes .drawdown rows = .ok episodes ↔
      (if points.length < 2 then return [] else relativeEpisodes points .drawdown) =
        .ok episodes := by
    intro episodes
    unfold derivedEpisodes
    rw [hsorted, hpoints]
    rfl
  by_cases hshort : points.length < 2
  · refine ⟨[], (hderived []).2 (if_pos hshort), h.agree hstored ⟨by simp, .nil, ?_⟩⟩
    -- a point and its peak are two
    rintro point hpoint ⟨peak, hpeak, hbefore, -⟩
    match points, hshort with
    | [only], _ =>
      rw [List.mem_singleton.1 hpoint, List.mem_singleton.1 hpeak] at hbefore
      exact absurd hbefore (lt_irrefl _)
  · have hne : points ≠ [] := by
      rintro rfl
      exact hshort Nat.two_pos
    obtain ⟨episodes, hepisodes⟩ := exists_relativeEpisodes hne hincreasing (h.priced hstored)
    exact ⟨episodes, (hderived episodes).2 ((if_neg hshort).trans hepisodes),
      h.agree hstored (correct_of_relativeEpisodes hincreasing hepisodes)⟩

end Agreement

namespace Engine

variable {input : RunInput} {s s' : EngineState} {candle : Candle} {cash : Decimal}

/-! ### The rows of a run -/

/-- A row is marked: its equity is an amount, and its drawdown is that from its peak. -/
structure Marked (row : PortfolioRow) : Prop where
  isMoney_totalEquity : IsMoney row.totalEquity
  drawdown_eq : row.drawdownPct = drawdown row.totalEquity row.peakEquity

theorem marked_portfolioRow {equitySeq : ℕ} {ts : ℤ} {held : Option Position} {peak : Decimal}
    {active : Option ActiveTrade} :
    Marked (portfolioRow s equitySeq ts held (recompute s.cash held) peak active) :=
  ⟨isMoney_quantizeAmount _, rfl⟩

/-- **A bar's row** is the only one that its close adds. Without a position its equity is the
cash. -/
theorem stepClose_row {answer : StrategyAnswer} (h : stepClose input candle answer s = .ok ⟨⟩ s') :
    ∃ row, portfolioRows s'.records = portfolioRows s.records ++ [row] ∧ Marked row ∧
      (positionOf input s.book = .ok none → row.totalEquity = quantizeAmount s.cash) := by
  unfold stepClose markGrid at h
  simp only [bind_eq_ok] at h
  obtain ⟨_, s₁, hindicators, _, s₄, ⟨_, s₂, hmark, _, s₃, hposition, hportfolio⟩, hanswer⟩ := h
  obtain ⟨h₁, hcash₁⟩ := updateIndicators_offGrid hindicators
  obtain ⟨h₂, hcash₂⟩ := markPosition_offGrid hmark
  obtain ⟨h₃, hcash₃⟩ := recordPosition_offGrid hposition
  obtain ⟨equitySeq, held, hheld, hlogs⟩ := recordPortfolio_run hportfolio
  have hanswered : OffGrid s₄ s' := by
    have hheld' : positionOf input s₄.book = .ok held := by
      rw [hlogs.book_eq]
      exact hheld
    exact handleAnswer_offGrid hheld' hanswer
  obtain ⟨row, hmarked, hequity, hrow⟩ : ∃ row, Marked row ∧
      row.totalEquity = recompute s₃.cash held ∧ portfolioRows s₄.records =
        portfolioRows s₃.records ++ [row] := by
    have hrows := congrArg portfolioRows hlogs.records_eq
    rw [portfolioRows_append] at hrows
    exact ⟨_, marked_portfolioRow, rfl, hrows⟩
  refine ⟨row, ?_, hmarked, fun hnone => ?_⟩
  · rw [hanswered.rows_eq, hrow, h₃.rows_eq, h₂.rows_eq, h₁.rows_eq]
  · -- nothing is held when the row is written either
    have hbook₁ : s₁.book = s.book := by
      obtain ⟨board, rows, -, -, hlogs₁⟩ := updateIndicators_eq_ok hindicators
      exact hlogs₁.book_eq
    have hbook₂ : s₂.book = s₁.book := by
      obtain ⟨before, hbefore, ⟨-, rfl⟩ | ⟨position, _, _, rfl, -⟩⟩ := markPosition_eq_ok hmark
      · rfl
      · rw [hbook₁, hnone] at hbefore
        cases hbefore
    have hnone₂ : positionOf input s₂.book = .ok none := by
      rw [hbook₂, hbook₁]
      exact hnone
    have hbook₃ : s₃.book = s₂.book := by
      obtain ⟨_, -, ⟨_, hsome, -⟩ | ⟨-, hlogs₃⟩⟩ := recordPosition_eq_ok hnone₂ hposition
      · cases hsome
      · exact hlogs₃.book_eq
    rw [hbook₃, hnone₂] at hheld
    cases hheld
    rw [hequity]
    show quantizeAmount (s₃.cash + quantizeAmount 0) = _
    rw [quantizeAmount_zero, add_zero, hcash₃, hcash₂, hcash₁]

theorem finalize_row (h : finalize input candle s = .ok ⟨⟩ s') :
    ∃ row, portfolioRows s'.records = portfolioRows s.records ++ [row] ∧ Marked row := by
  obtain ⟨held, s₁, -, hterminal, hclose⟩ := finalize_eq_ok h
  have hoff : OffGrid s s₁ := by
    rcases hclose with ⟨-, rfl⟩ | ⟨position, -, hclose⟩
    · exact .refl _
    · exact closeAtTerminal_offGrid hclose
  obtain ⟨equitySeq, held, hlogs⟩ := recordTerminalEquity_run hterminal
  have hrows := congrArg portfolioRows hlogs.records_eq
  rw [portfolioRows_append] at hrows
  rw [← hoff.rows_eq]
  exact ⟨_, hrows, marked_portfolioRow⟩

/-! ### Before the first row -/

variable {state state' : RunState} {phase phase' : Phase}

/-- Nothing has been traded. -/
structure Untraded (input : RunInput) (cash : Decimal) (s : EngineState) : Prop where
  cash_eq : s.cash = cash
  flat : positionOf input s.book = .ok none
  pending_eq : s.pending = []

/-- The first bar up to its close. -/
def BeforeFirst (input : RunInput) (cash : Decimal) : Phase → EngineState → Prop
  | .carrying _ orders, s => orders = [] ∧ Untraded input cash s
  | .afterClose _, _ => False
  | .finished, _ => False
  | _, s => Untraded input cash s

/-- **The invariant**: the rows are marked, and the first equity is the cash of the start. -/
structure Opened (input : RunInput) (cash : Decimal) (state : RunState) : Prop where
  marked : ∀ row ∈ portfolioRows state.2.records, Marked row
  first : (portfolioRows state.2.records = [] ∧ BeforeFirst input cash state.1 state.2) ∨
    ∃ row rest, portfolioRows state.2.records = row :: rest ∧ row.totalEquity = cash

theorem eq_of_settleAtBoundary {boundary : ℤ} (hflat : positionOf input s.book = .ok none)
    (h : settleAtBoundary input boundary s = .ok ⟨⟩ s') : s' = s := by
  rcases settleAtBoundary_eq_ok h with ⟨rfl, -⟩ | ⟨position, active, -, -, hheld, -⟩
  · rfl
  · rw [hflat] at hheld
    cases hheld

/-- **One step adds no row, or marked ones.** -/
theorem rows_of_step (hstep : stepPhase input phase s = .ok phase' s') :
    ∃ rows, portfolioRows s'.records = portfolioRows s.records ++ rows ∧
      ∀ row ∈ rows, Marked row := by
  -- off the grid there is no row
  have hnone : ∀ {s s' : EngineState}, OffGrid s s' → ∃ rows,
      portfolioRows s'.records = portfolioRows s.records ++ rows ∧ ∀ row ∈ rows, Marked row :=
    fun hoff => ⟨[], by rw [hoff.rows_eq, List.append_nil], by simp⟩
  cases phaseStep_of_stepPhase hstep with
  | @beforeOpen bar s s₁ hrun =>
    have htaken : OffGrid s₁ { s₁ with pending := [] } := .of_eq rfl rfl rfl rfl
    exact hnone ((settleAtBoundary_offGrid hrun).trans htaken)
  | carried => exact hnone (.refl _)
  | carrying hrun => exact hnone (executePending_offGrid hrun)
  | settled => exact hnone (.refl _)
  | settling hrun => exact hnone (settleAtBoundary_offGrid hrun)
  | protecting hrun => exact hnone (protect_offGrid hrun)
  | beforeClose hrun =>
    obtain ⟨row, hrows, hmarked, -⟩ := stepClose_row hrun
    exact ⟨[row], hrows, List.forall_mem_singleton.2 hmarked⟩
  | finalize hrun =>
    obtain ⟨row, hrows, hmarked⟩ := finalize_row hrun
    exact ⟨[row], hrows, List.forall_mem_singleton.2 hmarked⟩
  | betweenBars hrun => exact hnone (betweenBars_offGrid hrun)

/-- **One step of the first bar** trades nothing, or writes the first row. -/
theorem beforeFirst_step (hcash : IsMoney cash) (h : BeforeFirst input cash phase s)
    (hstep : stepPhase input phase s = .ok phase' s') :
    (portfolioRows s'.records = portfolioRows s.records ∧ BeforeFirst input cash phase' s') ∨
      ∃ row, portfolioRows s'.records = portfolioRows s.records ++ [row] ∧
        row.totalEquity = cash := by
  cases phaseStep_of_stepPhase hstep with
  | beforeOpen hrun =>
    -- nothing is held that could be settled, and nothing was queued
    obtain rfl := eq_of_settleAtBoundary h.flat hrun
    exact .inl ⟨rfl, h.pending_eq, h.cash_eq, h.flat, rfl⟩
  | carried => exact .inl ⟨rfl, h.2⟩
  | carrying hrun => cases h.1
  | settled => exact .inl ⟨rfl, h⟩
  | settling hrun =>
    obtain rfl := eq_of_settleAtBoundary h.flat hrun
    exact .inl ⟨rfl, h⟩
  | protecting hrun =>
    obtain ⟨held, hheld, ⟨rfl, -⟩ | ⟨position, _, _, _, rfl, -⟩⟩ := protect_eq_ok hrun
    · exact .inl ⟨rfl, h⟩
    · rw [h.flat] at hheld
      cases hheld
  | beforeClose hrun =>
    obtain ⟨row, hrows, -, hequity⟩ := stepClose_row hrun
    refine .inr ⟨row, hrows, ?_⟩
    rw [hequity h.flat, h.cash_eq, hcash.quantizeAmount_eq]
  | finalize hrun => cases h
  | betweenBars hrun => cases h

theorem opened_step (hcash : IsMoney cash) (h : Opened input cash state)
    (hstep : (system input).step state state') : Opened input cash state' := by
  obtain ⟨phase, s⟩ := state
  obtain ⟨phase', s'⟩ := state'
  change stepPhase input phase s = .ok phase' s' at hstep
  obtain ⟨hmarked, hfirst⟩ := h
  obtain ⟨rows, hrows, hnew⟩ := rows_of_step hstep
  refine ⟨?_, ?_⟩
  · show ∀ row ∈ portfolioRows s'.records, Marked row
    rw [hrows]
    exact List.forall_mem_append.2 ⟨hmarked, hnew⟩
  · show (portfolioRows s'.records = [] ∧ _) ∨ _
    -- the first row is written once, and stays the first
    rcases hfirst with ⟨hempty, hbefore⟩ | ⟨row, rest, hrest, hequity⟩
    · rcases beforeFirst_step hcash hbefore hstep with ⟨hsame, hbefore'⟩ | ⟨row, hrow, hequity⟩
      · exact .inl ⟨hsame.trans hempty, hbefore'⟩
      · exact .inr ⟨row, [], hrow.trans (congrArg (· ++ [row]) hempty), hequity⟩
    · exact .inr ⟨row, rest ++ rows, hrows.trans (congrArg (· ++ rows) hrest), hequity⟩

theorem opened_of_isStart (h : IsStart input state) :
    Opened input (quantizeAmount input.config.initialCapital) state := by
  obtain ⟨cash, first, rest, hcash, -, hphase, hprepare⟩ := h
  obtain ⟨phase, s⟩ := state
  cases hphase
  obtain ⟨board, rows, hrows, ⟨sequence, hstate⟩, -⟩ := prepare_eq_ok hprepare
  -- the definitions are no rows of the equity table
  have hempty : portfolioRows s.records = [] := by
    rw [show s.records = rows from congrArg EngineState.records hstate]
    refine portfolioRows_eq_nil fun row hrow => ?_
    obtain ⟨definition, rfl⟩ := hrows row hrow
    rfl
  have hcapital : cash = quantizeAmount input.config.initialCapital := by
    unfold checkedCash at hcash
    simp only [Except.bind_eq_ok] at hcash
    obtain ⟨_, -, hcash⟩ := hcash
    exact (Except.ok.inj hcash).symm
  refine ⟨?_, .inl ⟨hempty, ?_, ?_, ?_⟩⟩
  · show ∀ row ∈ portfolioRows s.records, Marked row
    rw [hempty]
    simp
  · show s.cash = _
    rw [show s.cash = cash from congrArg EngineState.cash hstate, hcapital]
  · show positionOf input s.book = _
    rw [show s.book = PositionBook.empty from congrArg EngineState.book hstate]
    rfl
  · exact congrArg EngineState.pending hstate

open TransitionSystem

theorem opened_of_reachable (h : (system input).Reachable state) :
    Opened input (quantizeAmount input.config.initialCapital) state :=
  h.invariant (fun _ => opened_of_isStart)
    fun _ _ h hstep => opened_step (isMoney_quantizeAmount _) h hstep

/-! ### The drawdowns of a run -/

/-- **The clock keeps the rows of a run apart**: its bars close on whole seconds, and when it has
ended its last row is stored a millisecond after the last close. -/
structure KeptApart (input : RunInput) (state : RunState) : Prop where
  closes : ∀ candle ∈ input.history, ∃ seconds, WholeSecond candle.closeTime seconds
  terminal : state.1 = .finished → TerminalStored input

/-- The closes of the bars done are stored in their order. -/
theorem closes_stored {done : List Candle} (h : done <+: input.evaluation)
    (hcloses : ∀ candle ∈ input.history, ∃ seconds, WholeSecond candle.closeTime seconds) :
    (done.map fun candle => epochMilliseconds candle.closeTime).Pairwise (· < ·) := by
  have hincreasing := (closes_increasing h).1
  rw [List.pairwise_map] at hincreasing ⊢
  refine hincreasing.imp_of_mem fun hmem hmem' hlt => ?_
  have hclose := instant_eq_of_second (hcloses _ (mem_evaluation.1 (h.subset hmem)).1)
  have hclose' := instant_eq_of_second (hcloses _ (mem_evaluation.1 (h.subset hmem')).1)
  omega

/-- The instants of the grid are stored in their order. -/
theorem gridOf_stored {done : List Candle} (hdone : BarsDone input done phase)
    {s : EngineState} (hkept : KeptApart input (phase, s)) :
    ((gridOf done phase).map epochMilliseconds).Pairwise (· < ·) := by
  have hcloses := closes_stored (prefix_of_barsDone hdone) hkept.closes
  have hbars : ((done.map (·.closeTime)).map epochMilliseconds).Pairwise (· < ·) := by
    rw [List.map_map]
    exact hcloses
  cases phase with
  | finished =>
    obtain rfl : done = input.evaluation := hdone
    unfold gridOf
    rw [List.map_append]
    cases hlast : input.evaluation.getLast? with
    | none =>
      show (_ ++ []).Pairwise _
      rw [List.append_nil]
      exact hbars
    | some last =>
      -- the last row is stored after the last close, and that after the others
      refine List.pairwise_append.2 ⟨hbars, List.pairwise_singleton _ _, fun time htime other
        hother => ?_⟩
      obtain rfl := List.mem_singleton.1 hother
      have hnext := hkept.terminal rfl last hlast
      have hle : time ≤ epochMilliseconds last.closeTime := by
        obtain ⟨_, hclose, rfl⟩ := List.mem_map.1 htime
        obtain ⟨candle, hcandle, rfl⟩ := List.mem_map.1 hclose
        refine epochMilliseconds_mono ?_
        obtain ⟨before, hbefore⟩ := List.getLast?_eq_some_iff.1 hlast
        have hincreasing := (closes_increasing (List.prefix_refl input.evaluation)).1
        rw [hbefore, List.map_append, List.pairwise_append] at hincreasing
        rw [hbefore, List.mem_append, List.mem_singleton] at hcandle
        rcases hcandle with hcandle | rfl
        · exact (hincreasing.2.2 _ (List.mem_map_of_mem hcandle) _ (List.mem_singleton_self _)).le
        · exact le_rfl
      exact (hle.trans_lt (lt_add_one _)).trans_eq hnext.symm
  | _ => exact hbars

/-- The rows are in order of their stored times, and the query leaves them in it. -/
theorem rows_increasing (h : Gridded input state) (hkept : KeptApart input state) :
    ((portfolioRows state.2.records).map fun row => epochMilliseconds row.ts).Pairwise (· < ·) ∧
      (portfolioRows state.2.records).mergeSort rowOrder = portfolioRows state.2.records := by
  obtain ⟨hcurve, -, done, hdone, hgrid⟩ := h
  have htimes : (portfolioRows state.2.records).map (·.ts) = gridOf done state.1 := by
    rw [← hgrid, hcurve.curve_eq, List.map_map]
    rfl
  have hincreasing : ((portfolioRows state.2.records).map fun row =>
      epochMilliseconds row.ts).Pairwise (· < ·) := by
    have hstored := gridOf_stored hdone (s := state.2) hkept
    rw [← htimes, List.map_map] at hstored
    exact hstored
  refine ⟨hincreasing, ?_⟩
  rw [List.pairwise_map] at hincreasing
  refine List.mergeSort_of_pairwise (hincreasing.imp fun hlt => ?_)
  unfold rowOrder
  rw [decide_eq_true_eq]
  exact .inl hlt

/-- **Balanced rows have their running peaks**, those of a run with a capital above zero. -/
theorem peaked_of_reachable (hcapital : 0 < quantizeAmount input.config.initialCapital)
    (h : (system input).Reachable state) (hkept : KeptApart input state) :
    Peaked (portfolioRows state.2.records) := by
  have hgridded := gridded_of_reachable h
  obtain ⟨hmarked, hfirst⟩ := opened_of_reachable h
  have hincreasing := (rows_increasing hgridded hkept).1
  have hbalanced := hgridded.curve.rows
  -- the rows up to one are those that are not later
  have hupto : ∀ {before row after}, portfolioRows state.2.records = before ++ row :: after →
      ∀ other ∈ portfolioRows state.2.records, other ∈ before ++ [row] ↔
        epochMilliseconds other.ts ≤ epochMilliseconds row.ts := by
    intro before row after heq other hother
    rw [heq, List.pairwise_map, List.pairwise_append, List.pairwise_cons] at hincreasing
    obtain ⟨-, ⟨hafter, -⟩, hbefore⟩ := hincreasing
    rw [heq, List.mem_append, List.mem_cons] at hother
    rw [List.mem_append, List.mem_singleton]
    constructor
    · rintro (hmem | rfl)
      · exact (hbefore other hmem row List.mem_cons_self).le
      · exact le_rfl
    · intro hle
      rcases hother with hmem | rfl | hmem
      · exact .inl hmem
      · exact .inr rfl
      · exact absurd (hafter other hmem) (not_lt.2 hle)
  have hrunning : ∀ row ∈ portfolioRows state.2.records,
      ∀ other ∈ portfolioRows state.2.records,
        epochMilliseconds other.ts ≤ epochMilliseconds row.ts →
          other.totalEquity ≤ row.peakEquity := by
    intro row hrow other hother hle
    obtain ⟨before, after, heq⟩ := List.append_of_mem hrow
    exact (hbalanced before row after heq).peak.2
      (List.mem_map_of_mem ((hupto heq other hother).2 hle))
  refine ⟨hincreasing, ?_, hrunning, ?_, fun row hrow => (hmarked row hrow).drawdown_eq⟩
  · intro row hrow
    obtain ⟨before, after, heq⟩ := List.append_of_mem hrow
    obtain ⟨peak, hpeak, hequity⟩ := List.mem_map.1 (hbalanced before row after heq).peak.1
    have hmem : peak ∈ portfolioRows state.2.records := by
      rw [heq, List.append_cons]
      exact List.mem_append_left _ hpeak
    exact ⟨peak, hmem, (hupto heq peak hmem).1 hpeak, hequity⟩
  · intro row hrow
    rcases hfirst with ⟨hempty, -⟩ | ⟨first, rest, heq, hequity⟩
    · rw [hempty] at hrow
      cases hrow
    · -- the first equity is the capital, and no peak is lower
      have hle : epochMilliseconds first.ts ≤ epochMilliseconds row.ts := by
        rw [heq, List.map_cons, List.pairwise_cons] at hincreasing
        rw [heq, List.mem_cons] at hrow
        rcases hrow with rfl | hrow
        · exact le_rfl
        · exact (hincreasing.1 _ (List.mem_map_of_mem hrow)).le
      have hmem : first ∈ portfolioRows state.2.records := by
        rw [heq]
        exact List.mem_cons_self
      exact (hequity ▸ hcapital).trans_le (hrunning row hrow first hmem hle)

/-- **The drawdowns of every run** whose equities fit the table, and whose rows the clock keeps
apart, are derived without a fault. They agree with the peaks and the drawdowns stored with the
rows. -/
theorem drawdownEpisodes_of_reachable
    (hcapital : 0 < quantizeAmount input.config.initialCapital)
    (h : (system input).Reachable state) (hkept : KeptApart input state)
    (hfits : ∀ row ∈ portfolioRows state.2.records, FitsTable row.totalEquity) :
    ∃ episodes, derivedEpisodes .drawdown (portfolioRows state.2.records) = .ok episodes ∧
      DrawdownsAgree (portfolioRows state.2.records) episodes := by
  refine drawdownsAgree (peaked_of_reachable hcapital h hkept)
    (rows_increasing (gridded_of_reachable h) hkept).2 fun row hrow => ⟨?_, hfits row hrow⟩
  exact ((opened_of_reachable h).marked row hrow).isMoney_totalEquity

/-- Whether a run has ended with a trade and an equity below its peak, all of them stored. -/
def endedBelowPeak (state : RunState) : Bool :=
  endedWithTrade state &&
    (portfolioRows state.2.records).all (fun row => decide (FitsTable row.totalEquity)) &&
    (portfolioRows state.2.records).any fun row => decide (row.totalEquity < row.peakEquity)

theorem keptApart_twoDollarRun :
    KeptApart (twoDollarRun 100000 (Binary64.ofRat 100) hundredThousand_pos) state where
  closes := by
    intro candle hcandle
    obtain ⟨bar, hbar, rfl⟩ := List.mem_map.1 hcandle
    simp only [List.mem_cons, List.not_mem_nil, or_false] at hbar
    rcases hbar with rfl | rfl | rfl | rfl
    · exact ⟨7200, rfl, by norm_num⟩
    · exact ⟨10800, rfl, by norm_num⟩
    · exact ⟨14400, rfl, by norm_num⟩
    · exact ⟨18000, rfl, by norm_num⟩
  terminal _ := terminalStored_twoDollarRun

theorem drawdownEpisodes_of_four_hours : ∃ state : RunState, endedBelowPeak state = true ∧
    ∃ episodes, derivedEpisodes .drawdown (portfolioRows state.2.records) = .ok episodes ∧
      DrawdownsAgree (portfolioRows state.2.records) episodes := by
  obtain ⟨state, hstate, hended⟩ := exists_of_simulated
    (twoDollarRun 100000 (Binary64.ofRat 100) hundredThousand_pos) (fun _ => true) 26
    endedBelowPeak (by decide +kernel)
  refine ⟨state, hended, drawdownEpisodes_of_reachable (by decide +kernel)
    (reachable_of_simulated hstate) keptApart_twoDollarRun fun row hrow => ?_⟩
  simp only [endedBelowPeak, Bool.and_eq_true, List.all_eq_true, decide_eq_true_eq] at hended
  exact hended.1.2 row hrow

end Engine
end TradingSystem
