import TradingSystem.Engine.CloseEffects
import TradingSystem.Engine.ExitRoundTrip

/-!
# Coherence of the money state

The book, the cash, the active trade and the protection levels are updated from many
places; `Coherent` says how they agree. Its parameter `held` is the abstract content of
the book: the one position the run has open, or nothing.

The lemmas of this module say what each elementary change does to `held` and that it
keeps the state coherent: an exit takes `some position` to `none` (or, when the quantity
of the exit was not the position's, to what is left), an entry takes `none` to a new
position, funding and marking replace the record.

The flag `exact` selects whether the active trade's quantity is tracked. It is lost once
an exit has left a remainder, and only then.
-/

namespace TradingSystem

open Numeric Logic

namespace Engine

variable {input : RunInput} {book book' : PositionBook} {held : Option Position}
  {position : Position} {fill : Fill}

/-! ### What the book holds -/

/-- The book is filed by key and `held` is its one position of the run's symbol. -/
structure Files (input : RunInput) (book : PositionBook) (held : Option Position) : Prop where
  keyed : book.Keyed
  positionOf_eq : positionOf input book = .ok held

theorem files_empty : Files input PositionBook.empty none := ⟨PositionBook.keyed_empty, rfl⟩

/-- At most one of the two directions is taken. -/
theorem positionOf_eq_ok : positionOf input book = .ok held ↔
    (book (input.config.symbol, .long) = held ∧ book (input.config.symbol, .short) = none) ∨
      (book (input.config.symbol, .long) = none ∧ book (input.config.symbol, .short) = held) := by
  unfold positionOf
  cases book (input.config.symbol, .long) <;> cases book (input.config.symbol, .short) <;>
    cases held <;> simp

/-- The position a book holds is of the run's symbol and of one direction, and stands
under its own key. -/
theorem Files.get (h : Files input book (some position)) :
    position.symbol = input.config.symbol ∧ position.side ≠ .both ∧
      book (position.symbol, position.side) = some position := by
  rcases positionOf_eq_ok.1 h.positionOf_eq with ⟨hget, -⟩ | ⟨-, hget⟩ <;>
  · have hkey := h.keyed _ _ hget
    rw [Prod.mk.injEq] at hkey
    obtain ⟨hsymbol, hside⟩ := hkey
    rw [← hsymbol, ← hside]
    exact ⟨rfl, by decide, hget⟩

/-- Rebinding the key of the held position replaces it. -/
theorem Files.rebind (h : Files input book (some position)) {value : Option Position}
    (hvalue : ∀ p ∈ value, p.symbol = position.symbol ∧ p.side = position.side) :
    Files input (book.update (position.symbol, position.side) value) value := by
  refine ⟨h.keyed.update fun p hp => ?_, ?_⟩
  · obtain ⟨hsymbol, hside⟩ := hvalue p hp
    rw [hsymbol, hside]
  obtain ⟨hsymbol, hboth, hget⟩ := h.get
  rw [hsymbol] at hget ⊢
  rw [positionOf_eq_ok]
  have hother := positionOf_eq_ok.1 h.positionOf_eq
  -- the other direction is free, and the update does not touch it
  cases hside : position.side with
  | long =>
    rw [hside] at hget
    left
    refine ⟨PositionBook.update_self .., ?_⟩
    rw [PositionBook.update_of_ne (by simp)]
    rcases hother with ⟨-, hfree⟩ | ⟨hfree, -⟩
    · exact hfree
    · rw [hget] at hfree
      cases hfree
  | short =>
    rw [hside] at hget
    right
    refine ⟨?_, PositionBook.update_self ..⟩
    rw [PositionBook.update_of_ne (by simp)]
    rcases hother with ⟨-, hfree⟩ | ⟨hfree, -⟩
    · rw [hget] at hfree
      cases hfree
    · exact hfree
  | both => exact absurd hside hboth

/-- Both directions of an empty book are free. -/
theorem Files.free (h : Files input book none) {side : PositionSide} (hside : side ≠ .both) :
    book (input.config.symbol, side) = none := by
  cases side with
  | long => rcases positionOf_eq_ok.1 h.positionOf_eq with ⟨hfree, -⟩ | ⟨hfree, -⟩ <;> exact hfree
  | short => rcases positionOf_eq_ok.1 h.positionOf_eq with ⟨-, hfree⟩ | ⟨-, hfree⟩ <;> exact hfree
  | both => exact absurd rfl hside

/-- Binding a free direction of an empty book opens a position. -/
theorem Files.bind (h : Files input book none) (hsymbol : position.symbol = input.config.symbol)
    (hside : position.side ≠ .both) :
    Files input (book.update (position.symbol, position.side) (some position)) (some position) := by
  refine ⟨h.keyed.update fun p hp => ?_, ?_⟩
  · cases hp
    rfl
  rw [hsymbol, positionOf_eq_ok]
  cases hside' : position.side with
  | long =>
    left
    refine ⟨PositionBook.update_self .., ?_⟩
    rw [PositionBook.update_of_ne (by simp)]
    exact h.free (by decide)
  | short =>
    right
    refine ⟨?_, PositionBook.update_self ..⟩
    rw [PositionBook.update_of_ne (by simp)]
    exact h.free (by decide)
  | both => exact absurd hside' hside

/-- Binding a key of another symbol changes nothing of the run's symbol. -/
theorem Files.bind_foreign (h : Files input book held)
    (hsymbol : position.symbol ≠ input.config.symbol) :
    Files input (book.update (position.symbol, position.side) (some position)) held := by
  refine ⟨h.keyed.update fun p hp => ?_, ?_⟩
  · cases hp
    rfl
  have hne : ∀ side, (input.config.symbol, side) ≠ (position.symbol, position.side) := by
    intro side heq
    rw [Prod.mk.injEq] at heq
    exact hsymbol heq.1.symm
  have hpositionOf := h.positionOf_eq
  unfold positionOf at hpositionOf ⊢
  rw [PositionBook.update_of_ne (hne _), PositionBook.update_of_ne (hne _)]
  exact hpositionOf

/-! ### Open positions -/

/-- What holds of a position while it is open. -/
structure IsOpen (input : RunInput) (position : Position) : Prop where
  marketType_eq : position.marketType = input.config.marketType
  marginType_eq : position.marginType = .isolated
  leverage_pos : 0 < position.leverage
  quantity_money : IsMoney position.quantity
  quantity_pos : 0 < position.quantity
  entryPrice_money : IsMoney position.entryPrice
  entryPrice_pos : 0 < position.entryPrice
  margin_money : IsMoney position.margin
  margin_nonneg : 0 ≤ position.margin
  /-- The margin of a spot position is its cost, up to one unit. -/
  spot_margin : position.marketType = .spot →
    |position.margin - position.entryPrice * position.quantity| ≤ qAmount

/-- The position an entry fill opens. -/
theorem isOpen_opened {leverage : ℕ} {liquidation : Decimal} (hleverage : 0 < leverage)
    (h : (PositionBook.openedPosition fill leverage .isolated input.config.marketType
      liquidation).postInit = .ok position) :
    IsOpen input position ∧ position.symbol = fill.symbol ∧
      position.side = fill.positionSide ∧ position.quantity = fill.quantity := by
  obtain ⟨rfl, -, -, hmargin⟩ := Position.postInit_eq_ok h
  have hquantity : quantizeAmount fill.quantity = fill.quantity :=
    fill.isMoney_quantity.quantizeAmount_eq
  have hprice : quantizeAmount fill.price = fill.price := fill.isMoney_price.quantizeAmount_eq
  refine ⟨?_, rfl, rfl, hquantity⟩
  exact {
    marketType_eq := rfl
    marginType_eq := rfl
    leverage_pos := hleverage
    quantity_money := isMoney_quantizeAmount _
    quantity_pos := hquantity.symm ▸ fill.quantity_pos
    entryPrice_money := isMoney_quantizeAmount _
    entryPrice_pos := hprice.symm ▸ fill.price_pos
    margin_money := isMoney_quantizeAmount _
    margin_nonneg := hmargin
    spot_margin := by
      intro hspot
      change input.config.marketType = .spot at hspot
      -- a spot margin is the rounded notional
      simp only [PositionBook.openedPosition, hspot, quantizeAmount_quantizeAmount]
      rw [hprice, hquantity, mul_comm fill.price, abs_sub_comm]
      refine (abs_sub_quantizeAmount_le _).trans ?_
      have := qAmount_pos
      linarith }

/-- What a partial reduction leaves is open again, if at least half was closed. -/
theorem IsOpen.reducedBy {quantity : Decimal} (h : IsOpen input position)
    (hmoney : IsMoney quantity) (hpos : 0 < quantity) (hlt : quantity < position.quantity)
    (hhalf : position.quantity ≤ 2 * quantity) : IsOpen input (position.reducedBy quantity) := by
  have hrest : IsMoney (position.quantity - quantity) := h.quantity_money.sub hmoney
  have hrest' : quantizeAmount (position.quantity - quantity) = position.quantity - quantity :=
    hrest.quantizeAmount_eq
  have hkept : position.reducedBy quantity = { position with
      quantity := position.quantity - quantity
      totalCost := quantizeAmount ((position.quantity - quantity) * position.averagePrice)
      margin := position.margin - position.releasedBy quantity } := by
    have hreleased : IsMoney (position.releasedBy quantity) := isMoney_quantizeAmount _
    unfold Position.reducedBy
    rw [hrest', (h.margin_money.sub hreleased).quantizeAmount_eq]
    exact Position.clearedWhenFlat_of_ne (sub_pos.2 hlt).ne'
  have hq := h.quantity_pos
  have hshare : position.margin * quantity / position.quantity ≤ position.margin := by
    rw [div_le_iff₀ hq]
    exact mul_le_mul_of_nonneg_left hlt.le h.margin_nonneg
  rw [hkept]
  exact {
    marketType_eq := h.marketType_eq
    marginType_eq := h.marginType_eq
    leverage_pos := h.leverage_pos
    quantity_money := hrest
    quantity_pos := sub_pos.2 hlt
    entryPrice_money := h.entryPrice_money
    entryPrice_pos := h.entryPrice_pos
    margin_money := h.margin_money.sub (isMoney_quantizeAmount _)
    margin_nonneg := by
      have := quantizeAmount_mono hshare
      rw [h.margin_money.quantizeAmount_eq] at this
      exact sub_nonneg.2 this
    spot_margin := by
      intro hspot
      have hbefore := abs_le.1 (h.spot_margin hspot)
      have hround := abs_le.1 (abs_sub_quantizeAmount_le
        (position.margin * quantity / position.quantity))
      have hunit := qAmount_pos
      -- the deviation scales with the kept share, which is at most one half
      set share := quantity / position.quantity with hshare_def
      have hsplit : position.margin * quantity / position.quantity = position.margin * share := by
        rw [hshare_def, mul_div_assoc]
      have hquantity : quantity = share * position.quantity := by
        rw [hshare_def, div_mul_cancel₀ _ hq.ne']
      have hshare_half : 1 / 2 ≤ share := by
        rw [hshare_def, div_le_div_iff₀ (by norm_num) hq]
        linarith
      have hshare_one : share ≤ 1 := by
        rw [hshare_def, div_le_one hq]
        exact hlt.le
      have hdeviation : position.margin - position.releasedBy quantity -
          position.entryPrice * (position.quantity - quantity) =
          (position.margin - position.entryPrice * position.quantity) * (1 - share) +
            (position.margin * quantity / position.quantity - position.releasedBy quantity) := by
        rw [hsplit]
        rw [hquantity]
        ring
      change |position.margin - position.releasedBy quantity -
        position.entryPrice * (position.quantity - quantity)| ≤ qAmount
      rw [hdeviation, abs_le]
      unfold Position.releasedBy
      constructor
      · nlinarith [hbefore.1, hround.1]
      · nlinarith [hbefore.2, hround.2] }

/-! ### Active trades -/

/-- What holds of an active trade from its start. -/
structure IsActive (active : ActiveTrade) : Prop where
  /-- The initial risk is the entry's distance to the signal's stop. -/
  r0_eq : active.r0 = initialRisk active.entryFill active.signal
  wholeMillisecond : WholeMillisecond active.entryFill.timestamp

/-- `s'` is the active trade `s` with other costs, buffered rows and extremes. -/
def SameEntry (active active' : ActiveTrade) : Prop :=
  active'.entryFill = active.entryFill ∧ active'.signal = active.signal ∧
    active'.r0 = active.r0

theorem IsActive.of_sameEntry {active active' : ActiveTrade} (h : IsActive active)
    (hsame : SameEntry active active') : IsActive active' := by
  obtain ⟨hfill, hsignal, hr0⟩ := hsame
  refine ⟨?_, ?_⟩
  · rw [hr0, hfill, hsignal]
    exact h.r0_eq
  · rw [hfill]
    exact h.wholeMillisecond

/-! ### Recorded money rows -/

/-- A recorded EXECUTION row is the row of a fill; only an exit at the end of the data has
no decision. -/
def GenuineExecution (row : ExecutionRow) : Prop :=
  ∃ executionId decisionId fill, row = executionRow executionId decisionId fill ∧
    (decisionId.isSome = true ∨ fill.exitReason = some .endOfData)

/-- A recorded TRADE row is the row of the trade an exit fill completed, later than its
entry. -/
def GenuineTrade (input : RunInput) (row : TradeRow) : Prop :=
  ∃ active exitFill exitExecutionId trade, row = tradeRow active exitExecutionId trade ∧
    completedTrade input active exitFill = .ok trade ∧ IsActive active ∧
    active.entryFill.timestamp < exitFill.timestamp ∧ WholeMillisecond exitFill.timestamp

/-- What holds of every recorded row. -/
def Genuine (input : RunInput) : EvidenceRecord → Prop
  | .execution row => GenuineExecution row
  | .trade row => GenuineTrade input row
  | _ => True

/-- Rows recorded one per item have what each of them has. -/
theorem forall_of_forall₂ {α : Type} {R : α → EvidenceRecord → Prop} {P : EvidenceRecord → Prop}
    {items : List α} {rows : List EvidenceRecord} (h : List.Forall₂ R items rows)
    (hrow : ∀ item row, R item row → P row) : ∀ row ∈ rows, P row := by
  induction h with
  | nil => simp
  | cons hhead _ ih =>
    intro row hmem
    rcases List.mem_cons.1 hmem with rfl | hmem
    · exact hrow _ _ hhead
    · exact ih row hmem

theorem genuine_of_clerical {row : EvidenceRecord} (h : Clerical row) : Genuine input row := by
  cases row <;> trivial

/-! ### The invariant -/

/-- **Coherence.** The book holds `held`, and everything else agrees with it. -/
structure Coherent (input : RunInput) (exact : Prop) (held : Option Position)
    (s : EngineState) : Prop where
  files : Files input s.book held
  isOpen : ∀ position ∈ held, IsOpen input position
  cash_money : IsMoney s.cash
  cash_nonneg : 0 ≤ s.cash
  /-- A position is open exactly when a trade is. -/
  activeTrade_isSome : s.activeTrade.isSome = held.isSome
  isActive : ∀ active ∈ s.activeTrade, IsActive active
  side_eq : ∀ position ∈ held, ∀ active ∈ s.activeTrade,
    active.entryFill.positionSide = position.side
  quantity_eq : exact → ∀ position ∈ held, ∀ active ∈ s.activeTrade,
    active.entryFill.quantity = position.quantity
  flat : held = none → s.protection = { stopPrice := none, takeProfitPrice := none }
  genuine : ∀ row ∈ s.records, Genuine input row

variable {exact : Prop} {s s' : EngineState}

/-- An active trade exists with every open position. -/
theorem Coherent.exists_active (h : Coherent input exact (some position) s) :
    ∃ active, s.activeTrade = some active :=
  Option.isSome_iff_exists.1 h.activeTrade_isSome

theorem Coherent.activeTrade_eq_none (h : Coherent input exact none s) : s.activeTrade = none :=
  Option.isSome_eq_false_iff.1 h.activeTrade_isSome |> Option.isNone_iff_eq_none.1

/-- A state that differs in rows, in the queue, in the series or in the buffers of the
active trade is coherent with it. -/
theorem Coherent.of_same (h : Coherent input exact held s) (hbook : s'.book = s.book)
    (hcash : s'.cash = s.cash) (hprotection : s'.protection = s.protection)
    {change : ActiveTrade → ActiveTrade} (hchange : ∀ active, SameEntry active (change active))
    (hactive : s'.activeTrade = s.activeTrade.map change)
    (hrecords : ∀ row ∈ s'.records, row ∈ s.records ∨ Genuine input row) :
    Coherent input exact held s' where
  -- the book is the same, and so is what the active trade was entered with
  files := hbook ▸ h.files
  isOpen := h.isOpen
  cash_money := hcash ▸ h.cash_money
  cash_nonneg := hcash ▸ h.cash_nonneg
  activeTrade_isSome := by
    rw [hactive, Option.isSome_map, h.activeTrade_isSome]
  isActive := by
    intro active' hmem
    rw [hactive, Option.mem_map] at hmem
    obtain ⟨active, hactive, rfl⟩ := hmem
    exact (h.isActive active hactive).of_sameEntry (hchange active)
  side_eq := by
    intro position hposition active' hmem
    rw [hactive, Option.mem_map] at hmem
    obtain ⟨active, hactive, rfl⟩ := hmem
    rw [(hchange active).1]
    exact h.side_eq position hposition active hactive
  quantity_eq := by
    intro hexact position hposition active' hmem
    rw [hactive, Option.mem_map] at hmem
    obtain ⟨active, hactive, rfl⟩ := hmem
    rw [(hchange active).1]
    exact h.quantity_eq hexact position hposition active hactive
  flat := fun hheld => hprotection.trans (h.flat hheld)
  genuine := fun row hrow => (hrecords row hrow).elim (h.genuine row) id

theorem SameEntry.refl (active : ActiveTrade) : SameEntry active active := ⟨rfl, rfl, rfl⟩

/-- Recording genuine rows keeps a state coherent. -/
theorem Coherent.logs {rows : List EvidenceRecord} (h : Coherent input exact held s)
    (hlogs : Logs rows s s') (hrows : ∀ row ∈ rows, Genuine input row) :
    Coherent input exact held s' := by
  refine h.of_same hlogs.book_eq hlogs.cash_eq hlogs.protection_eq SameEntry.refl ?_ ?_
  · rw [hlogs.activeTrade_eq, Option.map_id']
  · intro row hrow
    rw [hlogs.records_eq, List.mem_append] at hrow
    exact hrow.imp_right (hrows row)

theorem Coherent.notes (h : Coherent input exact held s) (hnotes : Notes s s') :
    Coherent input exact held s' := by
  obtain ⟨rows, hrows, hlogs⟩ := hnotes
  exact h.logs hlogs fun row hrow => genuine_of_clerical (hrows row hrow)

/-- The active trade of `s'`, if there is one, is that of `s` with more costs, buffered rows,
extremes or settlements. -/
def Continues (s s' : EngineState) : Prop :=
  ∀ active' ∈ s'.activeTrade, ∃ active ∈ s.activeTrade,
    active'.entryFill = active.entryFill ∧ active.settledBoundaries ⊆ active'.settledBoundaries

theorem Continues.of_eq (h : s'.activeTrade = s.activeTrade) : Continues s s' := by
  intro active hactive
  rw [h] at hactive
  exact ⟨active, hactive, rfl, List.Subset.refl _⟩

theorem Continues.trans {s₁ s₂ s₃ : EngineState} (h : Continues s₁ s₂) (h' : Continues s₂ s₃) :
    Continues s₁ s₃ := by
  intro active₃ hactive₃
  obtain ⟨active₂, hactive₂, hfill₂, hsub₂⟩ := h' active₃ hactive₃
  obtain ⟨active₁, hactive₁, hfill₁, hsub₁⟩ := h active₂ hactive₂
  exact ⟨active₁, hactive₁, hfill₂.trans hfill₁, List.Subset.trans hsub₁ hsub₂⟩

/-- `s'` is coherent with `held'`, has the queue of `s` and continues its trade. -/
structure Keeps (input : RunInput) (exact : Prop) (s : EngineState) (held' : Option Position)
    (s' : EngineState) : Prop where
  coherent : Coherent input exact held' s'
  pending_eq : s'.pending = s.pending
  continues : Continues s s'

theorem Coherent.keeps (h : Coherent input exact held s) : Keeps input exact s held s :=
  ⟨h, rfl, Continues.of_eq rfl⟩

theorem Keeps.trans {held' held'' : Option Position} {s'' : EngineState}
    (h : Keeps input exact s held' s') (h' : Keeps input exact s' held'' s'') :
    Keeps input exact s held'' s'' :=
  ⟨h'.coherent, h'.pending_eq.trans h.pending_eq, h.continues.trans h'.continues⟩

theorem Coherent.keeps_logs {rows : List EvidenceRecord} (h : Coherent input exact held s)
    (hlogs : Logs rows s s') (hrows : ∀ row ∈ rows, Genuine input row) :
    Keeps input exact s held s' :=
  ⟨h.logs hlogs hrows, hlogs.pending_eq, Continues.of_eq hlogs.activeTrade_eq⟩

/-! ### Exits -/

/-- What an exit leaves open: nothing, or the reduced position. -/
def remainderOf (position : Position) (quantity : Decimal) : Option Position :=
  if position.quantity = quantity then none else some (position.reducedBy quantity)

/-- The book after an exit fill. -/
theorem Files.reduce {released : Decimal} (h : Files input book (some position))
    (hopen : IsOpen input position) (hexit : Matcher.IsExitFill position fill)
    (hrun : PositionBook.reduce fill book = .ok released book') :
    fill.quantity ≤ position.quantity ∧
      Files input book' (remainderOf position fill.quantity) := by
  obtain ⟨-, held, reduced, hheld, hreduced, rfl⟩ := PositionBook.reduce_eq_ok.1 hrun
  obtain ⟨-, -, hget⟩ := h.get
  rw [hexit.symbol_eq, hexit.positionSide_eq] at hheld ⊢
  rw [hget] at hheld
  cases hheld
  obtain ⟨hpos, hle, -, -, rfl⟩ := Position.reduceQuantity_eq_ok.1 hreduced
  rw [fill.isMoney_quantity.quantizeAmount_eq] at hle ⊢
  refine ⟨hle, ?_⟩
  have hquantity : (position.reducedBy fill.quantity).quantity =
      position.quantity - fill.quantity := by
    rw [Position.reducedBy_quantity]
    exact (hopen.quantity_money.sub fill.isMoney_quantity).quantizeAmount_eq
  unfold remainderOf
  simp only [hquantity, sub_eq_zero]
  by_cases hfull : position.quantity = fill.quantity
  · -- the record of a flat position is dropped
    rw [if_pos hfull]
    exact h.rebind (by simp)
  · rw [if_neg hfull]
    refine h.rebind fun p hp => ?_
    cases hp
    exact ⟨Position.reducedBy_symbol _, Position.reducedBy_side _⟩

/-- **An exit keeps the state coherent.** The fill may be for less than the position only
where exactness is not tracked. -/
theorem Coherent.applyExit {positionBefore : Option Position} {executionId : ℕ}
    (h : Coherent input exact (some position) s) (hexit : Matcher.IsExitFill position fill)
    (hhalf : position.quantity ≤ 2 * fill.quantity)
    (hexact : exact → fill.quantity = position.quantity)
    (htime : ∀ active ∈ s.activeTrade, active.entryFill.timestamp < fill.timestamp)
    (hwhole : WholeMillisecond fill.timestamp)
    (hbefore : positionBefore = some position)
    (hrun : applyExit input fill positionBefore executionId s = .ok ⟨⟩ s') :
    Keeps input exact s (remainderOf position fill.quantity) s' := by
  obtain ⟨_, active, cash, released, book, remaining, hposition, hactive, rfl, hcash, hreduce,
    hremaining, hcases⟩ := applyExit_eq_ok hexit.reduceOnly_eq hrun
  rw [hbefore] at hposition
  cases hposition
  -- the book and the cash follow the reduction of the one position held
  obtain ⟨hle, hfiles⟩ := h.files.reduce (h.isOpen position rfl) hexit hreduce
  have hremains : remaining = remainderOf position fill.quantity := by
    rw [hfiles.positionOf_eq] at hremaining
    cases hremaining
    rfl
  have hisActive : IsActive active := h.isActive active (by rw [hactive]; rfl)
  -- either a remainder stays open, or the trade is completed and its rows are filed
  rcases hcases with ⟨kept, hkept, rfl⟩ | ⟨hnone, trade, features, htrade, hfeatures, hlogs⟩
  · -- something is left, so the quantity of the exit was not the position's
    rw [hremains] at hkept
    rw [hkept] at hfiles ⊢
    have hne : position.quantity ≠ fill.quantity := by
      intro heq
      rw [remainderOf, if_pos heq] at hkept
      cases hkept
    rw [remainderOf, if_neg hne] at hkept
    cases hkept
    have hlt : fill.quantity < position.quantity := lt_of_le_of_ne hle hne.symm
    refine ⟨?_, rfl, ?_⟩
    · exact {
        files := hfiles
        isOpen := by
          intro p hp
          cases hp
          exact (h.isOpen position rfl).reducedBy fill.isMoney_quantity fill.quantity_pos hlt hhalf
        cash_money := isMoney_quantizeAmount _
        cash_nonneg := hcash
        activeTrade_isSome := rfl
        isActive := by
          intro a ha
          cases ha
          exact hisActive.of_sameEntry ⟨rfl, rfl, rfl⟩
        side_eq := by
          intro p hp a ha
          cases hp
          cases ha
          have hside := h.side_eq position rfl active (by rw [hactive]; rfl)
          rw [Position.reducedBy_side]
          exact hside
        quantity_eq := fun hx => absurd (hexact hx).symm hne
        flat := nofun
        genuine := h.genuine }
    · intro active' hactive'
      cases hactive'
      exact ⟨active, by rw [hactive]; rfl, rfl, List.Subset.refl _⟩
  · -- the book is empty and the trade is complete
    rw [hremains] at hnone
    rw [hnone] at hfiles ⊢
    have hclosed : Coherent input exact none (tradeClosed { exited s
        (quantizeAmount (exitCash s.cash position fill)) book
        (ActiveTrade.addCosts active fill) with
        trades := s.trades ++ [trade] }) := {
      files := hfiles
      isOpen := by simp
      cash_money := isMoney_quantizeAmount _
      cash_nonneg := hcash
      activeTrade_isSome := rfl
      isActive := by simp [tradeClosed]
      side_eq := by simp
      quantity_eq := by simp
      flat := fun _ => rfl
      genuine := h.genuine }
    refine ⟨hclosed.logs hlogs ?_, hlogs.pending_eq, ?_⟩
    · -- of the rows of a completion only the trade's is about money
      intro row hrow
      simp only [completionRows, List.mem_cons, List.mem_append, List.mem_map] at hrow
      rcases hrow with rfl | ((⟨_, -, rfl⟩ | ⟨_, -, rfl⟩) | ⟨_, -, rfl⟩) | hrow
      · refine ⟨_, fill, _, trade, rfl, htrade, hisActive.of_sameEntry ⟨rfl, rfl, rfl⟩, ?_, hwhole⟩
        exact htime active (by rw [hactive]; rfl)
      · trivial
      · trivial
      · trivial
      · refine forall_of_forall₂ hfeatures ?_ row hrow
        rintro _ _ ⟨_, rfl, -⟩
        trivial
    · intro active' hactive'
      rw [hlogs.activeTrade_eq] at hactive'
      cases hactive'

/-- A fill that is recorded with a decision, or closes at the end of the data, leaves a
genuine row. -/
theorem Coherent.execution {executionId : ℕ} {decisionId : Option ℕ}
    (h : Coherent input exact held s)
    (hdecided : decisionId.isSome = true ∨ fill.exitReason = some .endOfData)
    (hlogs : Logs [.execution (executionRow executionId decisionId fill)] s s') :
    Keeps input exact s held s' := by
  refine h.keeps_logs hlogs fun row hrow => ?_
  rw [List.mem_singleton] at hrow
  subst hrow
  exact ⟨executionId, decisionId, fill, rfl, hdecided⟩

/-- **Exits.** Applying an exit fill of the open position. -/
theorem Coherent.exit {decisionId : Option ℕ} {signal : Option TradingSignal}
    {candidateId : Option ℕ} (h : Coherent input exact (some position) s)
    (hexit : Matcher.IsExitFill position fill) (hhalf : position.quantity ≤ 2 * fill.quantity)
    (hexact : exact → fill.quantity = position.quantity)
    (htime : ∀ active ∈ s.activeTrade, active.entryFill.timestamp < fill.timestamp)
    (hwhole : WholeMillisecond fill.timestamp)
    (hdecided : decisionId.isSome = true ∨ fill.exitReason = some .endOfData)
    (hrun : applyFill input fill decisionId signal candidateId s = .ok ⟨⟩ s') :
    Keeps input exact s (remainderOf position fill.quantity) s' := by
  obtain ⟨held, executionId, s₁, hheld, hlogs, hbranch⟩ := applyFill_eq_ok hrun
  rw [h.files.positionOf_eq] at hheld
  cases hheld
  rw [if_pos hexit.reduceOnly_eq] at hbranch
  -- the execution is recorded first, and leaves the trade alone
  rw [← hlogs.activeTrade_eq] at htime
  have h₁ := h.execution hdecided hlogs
  exact h₁.trans (h₁.coherent.applyExit hexit hhalf hexact htime hwhole rfl hbranch)

/-- **Complete exits** leave the run flat. -/
theorem Coherent.exit_full {decisionId : Option ℕ} {signal : Option TradingSignal}
    {candidateId : Option ℕ} (h : Coherent input exact (some position) s)
    (hexit : Matcher.IsExitFill position fill) (hfull : fill.quantity = position.quantity)
    (htime : ∀ active ∈ s.activeTrade, active.entryFill.timestamp < fill.timestamp)
    (hwhole : WholeMillisecond fill.timestamp)
    (hdecided : decisionId.isSome = true ∨ fill.exitReason = some .endOfData)
    (hrun : applyFill input fill decisionId signal candidateId s = .ok ⟨⟩ s') :
    Keeps input exact s none s' := by
  have hpos := fill.quantity_pos
  have hresult := h.exit hexit (by rw [← hfull]; linarith) (fun _ => hfull) htime hwhole hdecided
    hrun
  rwa [remainderOf, if_pos hfull.symm] at hresult

/-! ### Entries -/

/-- The book after an entry fill: a new position in a flat book; a position of another
symbol where a remainder is held. -/
theorem Files.entry {leverage : ℕ} {marketType : MarketType} {liquidation : Decimal}
    {after : Position} (h : Files input book held) (hentry : fill.reduceOnly = false)
    (hside : fill.positionSide ≠ .both) (hopposite : ∀ p ∈ held, p.side ≠ fill.positionSide)
    (happly : PositionBook.apply fill (some leverage) (some .isolated) marketType liquidation
      book = .ok ⟨⟩ book')
    (hafter : positionOf input book' = .ok (some after)) :
    (held = none ∧ fill.symbol = input.config.symbol ∧
        book (fill.symbol, fill.positionSide) = none ∧ Files input book' (some after)) ∨
      (held = some after ∧ Files input book' held) := by
  obtain ⟨position, hsymbol, hpositionSide, rfl⟩ :=
    PositionBook.apply_of_entry h.keyed hentry happly
  rw [← hsymbol, ← hpositionSide] at hafter ⊢
  rw [← hpositionSide] at hside hopposite
  -- the run reads the book by its own symbol
  by_cases hforeign : position.symbol = input.config.symbol
  · left
    cases held with
    | none =>
      have hfiles := h.bind hforeign hside
      rw [hfiles.positionOf_eq] at hafter
      cases hafter
      refine ⟨rfl, hforeign, ?_, hfiles⟩
      rw [hforeign]
      exact h.free hside
    | some remainder =>
      -- both directions would be taken
      exfalso
      obtain ⟨hsym, hboth, hget⟩ := h.get
      have hne := hopposite remainder rfl
      rw [hsym] at hget
      have hnew := PositionBook.update_self book (position.symbol, position.side) (some position)
      have hold : book.update (position.symbol, position.side) (some position)
          (input.config.symbol, remainder.side) = some remainder := by
        rw [PositionBook.update_of_ne (by simp [hne])]
        exact hget
      rw [hforeign] at hnew hold hafter
      rcases positionOf_eq_ok.1 hafter with ⟨-, hfree⟩ | ⟨hfree, -⟩ <;>
        cases hps : position.side <;> cases hrs : remainder.side <;> simp_all
  · right
    have hfiles := h.bind_foreign hforeign
    rw [hfiles.positionOf_eq] at hafter
    cases hafter
    exact ⟨rfl, hfiles⟩

/-- **Entries.** Applying an entry fill to a flat run opens a position and starts a
trade; over a remainder it changes neither. -/
theorem Coherent.entry {decisionId : Option ℕ} {signal : Option TradingSignal}
    {candidateId : Option ℕ} (h : Coherent input exact held s)
    (hentry : fill.reduceOnly = false) (hside : fill.positionSide ≠ .both)
    (hopposite : ∀ p ∈ held, p.side ≠ fill.positionSide)
    (hwhole : WholeMillisecond fill.timestamp) (hdecided : decisionId.isSome = true)
    (hrun : applyFill input fill decisionId signal candidateId s = .ok ⟨⟩ s') :
    ∃ held', Coherent input exact held' s' ∧ s'.pending = s.pending ∧
      ∀ active' ∈ s'.activeTrade, active'.entryFill = fill ∨
        ∃ active ∈ s.activeTrade, active' = ActiveTrade.addCosts active fill := by
  obtain ⟨before, executionId, s₁, hbefore, hlogs, hbranch⟩ := applyFill_eq_ok hrun
  rw [h.files.positionOf_eq] at hbefore
  cases hbefore
  rw [hentry, if_neg (by decide)] at hbranch
  have h₁ := (h.execution (Or.inl hdecided) hlogs).coherent
  obtain ⟨liquidation, book, after, -, happly, hafter, hcash, -, hcases⟩ :=
    applyEntry_eq_ok hbranch.2
  rw [← hlogs.pending_eq, ← hlogs.activeTrade_eq]
  -- an entry opens the position of a free book, or adds its costs to the one held
  rcases h₁.files.entry hentry hside hopposite happly hafter with
    ⟨rfl, hsymbol, hfree, hfiles⟩ | ⟨rfl, hfiles⟩
  · -- a flat run: the position is the one the fill opens
    have hnone := h₁.activeTrade_eq_none
    rcases hcases with ⟨active, hactive, -⟩ | ⟨-, origin, tradeId, -, hstarted⟩
    · rw [hnone] at hactive
      cases hactive
    obtain ⟨hleverage, position, hposition, rfl⟩ :=
      (PositionBook.apply_of_free hentry hfree).1 happly
    obtain ⟨hopen, hpsymbol, hpside, hpquantity⟩ := isOpen_opened hleverage hposition
    -- the position read back after the fill is the one that the fill opens
    have hafter' : after = position := by
      have hget := hfiles.get
      have hbound := h₁.files.bind (hpsymbol.trans hsymbol) (hpside.symm ▸ hside)
      rw [hpsymbol, hpside] at hbound
      rw [hbound.positionOf_eq] at hafter
      cases hafter
      rfl
    subst hafter'
    refine ⟨some after, ?_, hstarted.pending_eq, ?_⟩
    · refine Coherent.logs (s := { entered s₁ _ _ with
        activeTrade := some _, protection := protectionOf origin }) ?_ hstarted (by simp)
      exact {
        files := hfiles
        isOpen := by
          intro p hp
          cases hp
          exact hopen
        cash_money := isMoney_quantizeAmount _
        cash_nonneg := hcash
        activeTrade_isSome := rfl
        isActive := by
          intro a ha
          cases ha
          exact ⟨rfl, hwhole⟩
        side_eq := by
          intro p hp a ha
          cases hp
          cases ha
          exact hpside.symm
        quantity_eq := by
          intro _ p hp a ha
          cases hp
          cases ha
          exact hpquantity.symm
        flat := nofun
        genuine := h₁.genuine }
    · intro active' hactive'
      rw [hstarted.activeTrade_eq] at hactive'
      cases hactive'
      exact Or.inl rfl
  · -- a remainder is held: its trade gets the costs
    obtain ⟨active₀, hactive₀⟩ := h₁.exists_active
    rcases hcases with ⟨active, hactive, rfl⟩ | ⟨hnone, -⟩
    · refine ⟨some after, ?_, rfl, ?_⟩
      · exact {
          files := hfiles
          isOpen := h₁.isOpen
          cash_money := isMoney_quantizeAmount _
          cash_nonneg := hcash
          activeTrade_isSome := rfl
          isActive := by
            intro a ha
            cases ha
            exact (h₁.isActive active (by rw [hactive]; rfl)).of_sameEntry ⟨rfl, rfl, rfl⟩
          side_eq := by
            intro p hp a ha
            cases ha
            exact h₁.side_eq p hp active (by rw [hactive]; rfl)
          quantity_eq := by
            intro hx p hp a ha
            cases ha
            exact h₁.quantity_eq hx p hp active (by rw [hactive]; rfl)
          flat := nofun
          genuine := h₁.genuine }
      · intro active' hactive'
        cases hactive'
        exact Or.inr ⟨active, by rw [hactive]; rfl, rfl⟩
    · rw [hactive₀] at hnone
      cases hnone

/-! ### Funding and marking -/

/-- Replacing the record of the open position by one of the same key and quantity. -/
theorem Coherent.rebind {position' : Position} (h : Coherent input exact (some position) s)
    (hopen : IsOpen input position') (hsymbol : position'.symbol = position.symbol)
    (hside : position'.side = position.side) (hquantity : position'.quantity = position.quantity)
    (hbook : s'.book = s.book.update (position.symbol, position.side) (some position'))
    (hcash : s'.cash = s.cash)
    (change : ActiveTrade → ActiveTrade) (hchange : ∀ active, SameEntry active (change active))
    (hactive : s'.activeTrade = s.activeTrade.map change) (hrecords : s'.records = s.records) :
    Coherent input exact (some position') s' where
  files := by
    rw [hbook]
    refine h.files.rebind fun p hp => ?_
    cases hp
    exact ⟨hsymbol, hside⟩
  isOpen := by
    intro p hp
    cases hp
    exact hopen
  cash_money := hcash ▸ h.cash_money
  cash_nonneg := hcash ▸ h.cash_nonneg
  -- the trade changes in step with the position
  activeTrade_isSome := by
    rw [hactive, Option.isSome_map, h.activeTrade_isSome]
    rfl
  isActive := by
    intro active' hmem
    rw [hactive, Option.mem_map] at hmem
    obtain ⟨active, hactive, rfl⟩ := hmem
    exact (h.isActive active hactive).of_sameEntry (hchange active)
  side_eq := by
    intro p hp active' hmem
    cases hp
    rw [hactive, Option.mem_map] at hmem
    obtain ⟨active, hactive, rfl⟩ := hmem
    rw [(hchange active).1, hside]
    exact h.side_eq position rfl active hactive
  quantity_eq := by
    intro hexact p hp active' hmem
    cases hp
    rw [hactive, Option.mem_map] at hmem
    obtain ⟨active, hactive, rfl⟩ := hmem
    rw [(hchange active).1, hquantity]
    exact h.quantity_eq hexact position rfl active hactive
  flat := nofun
  genuine := hrecords ▸ h.genuine

/-- **Funding** changes the margin and the liquidation price of the open position. -/
theorem Coherent.settled {charged : Position} {active : ActiveTrade} {boundary : ℤ}
    {row : FundingRow} {result : FundingMarginResult} {cost mmr : Decimal}
    (h : Coherent input exact (some position) s) (hactive : s.activeTrade = some active)
    (hcharge : PositionBook.chargeFunding cost mmr position = .ok result charged) :
    Coherent input exact (some charged)
      (Engine.settled s position charged active boundary row result) := by
  obtain ⟨hmarket, -, level, rfl, -, hmargin, -, -⟩ := PositionBook.chargeFunding_eq_ok hcharge
  have hopen := h.isOpen position rfl
  -- the position keeps its key, so the book is rebound there
  refine h.rebind ?_ rfl rfl rfl rfl rfl
    (fun active => ActiveTrade.addFunding active boundary row result)
    (fun _ => ⟨rfl, rfl, rfl⟩) ?_ rfl
  · exact {
      marketType_eq := hopen.marketType_eq
      marginType_eq := hopen.marginType_eq
      leverage_pos := hopen.leverage_pos
      quantity_money := hopen.quantity_money
      quantity_pos := hopen.quantity_pos
      entryPrice_money := hopen.entryPrice_money
      entryPrice_pos := hopen.entryPrice_pos
      margin_money := isMoney_quantizeAmount _
      margin_nonneg := hmargin
      spot_margin := by
        intro hspot
        change position.marketType = .spot at hspot
        rw [hmarket] at hspot
        cases hspot }
  · rw [hactive]
    rfl

/-- **Marking** changes the prices and the unrealized profit of the open position. -/
theorem Coherent.marked {marked : Position} {price : Decimal} {tracks : ActiveTrade → ActiveTrade}
    (h : Coherent input exact (some position) s)
    (hmark : Position.updatePrice price position = .ok ⟨⟩ marked)
    (htracks : ∀ active, SameEntry active (tracks active)) :
    Coherent input exact (some marked) { s with
      book := s.book.update (position.symbol, position.side) (some marked)
      activeTrade := s.activeTrade.map tracks } := by
  obtain ⟨-, rfl⟩ := Position.updatePrice_eq_ok hmark
  have hopen := h.isOpen position rfl
  refine h.rebind ?_ rfl rfl rfl rfl rfl _ htracks rfl rfl
  exact {
    marketType_eq := hopen.marketType_eq
    marginType_eq := hopen.marginType_eq
    leverage_pos := hopen.leverage_pos
    quantity_money := hopen.quantity_money
    quantity_pos := hopen.quantity_pos
    entryPrice_money := hopen.entryPrice_money
    entryPrice_pos := hopen.entryPrice_pos
    margin_money := hopen.margin_money
    margin_nonneg := hopen.margin_nonneg
    spot_margin := hopen.spot_margin }

end Engine
end TradingSystem
