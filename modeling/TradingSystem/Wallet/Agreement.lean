import TradingSystem.Engine.CloseEffects
import TradingSystem.Engine.RunCoherence
import TradingSystem.Wallet.Persistence

/-!
# The backtest and the paper wallet keep the same ledger

The engine and the wallet book fills in two ways: the engine moves margin, profit and fee
of a fill, the wallet takes the difference of two equities. `ledgers` lets both book the
same futures fills, in any order a wallet produces them, with the engine free to mark its
position in between.

* `Books` — the invariant: equal cash, and one position with the same accounting basis.
* `Books.entry`, `Books.exit` — what one fill preserves.
* `ledgers_agree` — after every fill of every run the two ledgers agree.
-/

namespace TradingSystem
namespace Wallet

open Numeric Logic
open Engine (leverageOf applyFill markPosition positionOf)

/-! ### Both ledgers -/

/-- The engine and the book and cash of a wallet. -/
structure Ledgers where
  engine : EngineState
  book : PositionBook
  cash : Decimal

/-- What both book. The wallet simulates a fill and books it; the engine is given the fill
and a signal of the same leverage. An entry finds the wallet flat, an exit closes what the
wallet holds. -/
inductive Booked (input : RunInput) (config : WalletConfig) : Ledgers → Ledgers → Prop
  | entry {s s' : Ledgers} {message : PaperSignal} {risks : List OpenRisk} {fill : Fill}
      {decisionId candidateId : Option ℕ} {signal : TradingSignal}
      (market : message.signal.marketType = .futures)
      (symbol : message.signal.symbol = input.config.symbol)
      (leverage : leverageOf (some signal) = message.signal.leverage.getD 1)
      (flat : bookPosition s.book message.signal.symbol = .ok none)
      (paper : executeEntry config message s.book s.cash risks = .ok (fill, s'.book, s'.cash))
      (backtest : applyFill input fill decisionId (some signal) candidateId s.engine =
        .ok ⟨⟩ s'.engine) : Booked input config s s'
  | exit {s s' : Ledgers} {message : PaperSignal} {position : Position} {fill : Fill}
      {decisionId candidateId : Option ℕ} {signal : Option TradingSignal}
      (held : bookPosition s.book message.signal.symbol = .ok (some position))
      (full : fill.quantity = position.quantity)
      (paper : executeExit config message s.book position s.cash = .ok (fill, s'.book, s'.cash))
      (backtest : applyFill input fill decisionId signal candidateId s.engine =
        .ok ⟨⟩ s'.engine) : Booked input config s s'
  | mark {s s' : Ledgers} {candle : Candle} {price : Decimal}
      (backtest : markPosition input candle price s.engine = .ok ⟨⟩ s'.engine)
      (book : s'.book = s.book) (cash : s'.cash = s.cash) : Booked input config s s'

/-- Both ledgers over the same futures fills, from equal cash and no position. -/
def ledgers (input : RunInput) (config : WalletConfig) : TransitionSystem Ledgers where
  init s := input.config.marketType = .futures ∧ s.engine.book = PositionBook.empty ∧
    s.book = PositionBook.empty ∧ s.engine.cash = s.cash ∧ IsMoney s.cash
  step := Booked input config

/-- The accounting basis of a position. -/
structure Basis where
  side : PositionSide
  quantity : Decimal
  entryPrice : Decimal
  margin : Decimal
deriving DecidableEq

def basis (position : Position) : Basis where
  side := position.side
  quantity := position.quantity
  entryPrice := position.entryPrice
  margin := position.margin

/-- **The ledgers agree**: on the cash, and on the side, quantity, entry price and margin of
the position each finds in its book. -/
def Agree (input : RunInput) (s : Ledgers) : Prop :=
  s.engine.cash = s.cash ∧ ∃ held held', positionOf input s.engine.book = .ok held ∧
    bookPosition s.book input.config.symbol = .ok held' ∧ held.map basis = held'.map basis

/-! ### The invariant -/

/-- A futures position of the run's symbol, with its money on the grid. -/
structure Tradable (input : RunInput) (position : Position) : Prop where
  symbol_eq : position.symbol = input.config.symbol
  directed : position.side ≠ .both
  market_eq : position.marketType = .futures
  quantity_pos : 0 < position.quantity
  margin_money : IsMoney position.margin

/-- **The invariant**: equal cash and, in each book, one position of the same basis. -/
structure Books (input : RunInput) (s : Ledgers) (held held' : Option Position) : Prop where
  market_eq : input.config.marketType = .futures
  cash_eq : s.engine.cash = s.cash
  cash_money : IsMoney s.cash
  engine_eq : s.engine.book = bookOf held
  wallet_eq : s.book = bookOf held'
  basis_eq : held.map basis = held'.map basis
  tradable : ∀ position ∈ held, Tradable input position
  tradable' : ∀ position ∈ held', Tradable input position

variable {input : RunInput} {config : WalletConfig} {s s' : Ledgers} {message : PaperSignal}
  {held held' : Option Position} {position position' : Position} {fill : Fill}

theorem tradable_none : ∀ other ∈ (none : Option Position), Tradable input other := by
  intro other hother
  exact absurd hother (Option.not_mem_none other)

theorem tradable_some (h : Tradable input position) :
    ∀ other ∈ some position, Tradable input other := by
  intro other hother
  rw [← Option.mem_some_iff.1 hother]
  exact h

/-- The engine finds the one position of its book. -/
theorem positionOf_bookOf (h : ∀ position ∈ held, Tradable input position) :
    positionOf input (bookOf held) = .ok held := by
  cases held with
  | none => rfl
  | some position =>
    obtain ⟨hsymbol, hdirected, -, -, -⟩ := h position rfl
    have hself := @bookOf_self position
    unfold positionOf
    rw [hsymbol] at hself
    cases hside : position.side with
    | both => exact absurd hside hdirected
    | long =>
      rw [hside] at hself
      rw [hself, bookOf_of_ne (by simp [hside])]
    | short =>
      rw [hside] at hself
      rw [hself, bookOf_of_ne (by simp [hside])]

/-- Where the engine finds the position of a book, the wallet finds the same. -/
theorem bookPosition_of_positionOf {book : PositionBook} (h : positionOf input book = .ok held) :
    bookPosition book input.config.symbol = .ok held := by
  unfold positionOf at h
  unfold bookPosition
  -- both read the two sides, and refuse only where both are held
  generalize book (input.config.symbol, .long) = long at h ⊢
  generalize book (input.config.symbol, .short) = short at h ⊢
  cases long with
  | none => cases short <;> exact h
  | some position =>
    cases short with
    | none => exact h
    | some other => cases h

/-- The wallet finds the one position of its book. -/
theorem bookPosition_of_tradable (h : ∀ position ∈ held, Tradable input position) :
    bookPosition (bookOf held) input.config.symbol = .ok held :=
  bookPosition_of_positionOf (positionOf_bookOf h)

/-- The invariant is agreement. -/
theorem Books.agree (h : Books input s held held') : Agree input s := by
  refine ⟨h.cash_eq, held, held', ?_, ?_, h.basis_eq⟩
  · rw [h.engine_eq]
    exact positionOf_bookOf h.tradable
  · rw [h.wallet_eq]
    exact bookPosition_of_tradable h.tradable'

/-! ### Entries -/

/-- An opened futures position pays its margin: its value is the margin. -/
theorem positionValue_of_opened {leverage : ℕ} {level : Decimal}
    (h : (PositionBook.openedPosition fill leverage .isolated .futures level).postInit =
      .ok position) : positionValue (some position) = position.margin := by
  obtain ⟨hfields, -⟩ := Position.postInit_eq_ok h
  rw [hfields]
  simp only [positionValue, PositionBook.openedPosition, quantizeAmount_quantizeAmount,
    quantizeAmount_zero, add_zero]

/-- Opened at different liquidation prices, two positions have the same basis. -/
theorem basis_of_opened {leverage : ℕ} {level level' : Decimal}
    (h : (PositionBook.openedPosition fill leverage .isolated .futures level).postInit =
      .ok position)
    (h' : (PositionBook.openedPosition fill leverage .isolated .futures level').postInit =
      .ok position') : basis position = basis position' := by
  obtain ⟨hfields, -⟩ := Position.postInit_eq_ok h
  obtain ⟨hfields', -⟩ := Position.postInit_eq_ok h'
  rw [hfields, hfields']
  rfl

theorem tradable_of_opened {leverage : ℕ} {level : Decimal} (hsymbol : fill.symbol =
      input.config.symbol) (hdirected : fill.positionSide ≠ .both)
    (h : (PositionBook.openedPosition fill leverage .isolated .futures level).postInit =
      .ok position) : Tradable input position := by
  obtain ⟨hfields, -⟩ := Position.postInit_eq_ok h
  rw [hfields]
  refine ⟨hsymbol, hdirected, rfl, ?_, isMoney_quantizeAmount _⟩
  change 0 < quantizeAmount fill.quantity
  rw [fill.isMoney_quantity.quantizeAmount_eq]
  exact fill.quantity_pos

/-- The engine's entry from an empty book. -/
theorem applyFill_of_entry {engine engine' : EngineState} {decisionId candidateId : Option ℕ}
    {signal : Option TradingSignal} (hmarket : input.config.marketType = .futures)
    (hempty : engine.book = bookOf none) (hreduce : fill.reduceOnly = false)
    (hsymbol : fill.symbol = input.config.symbol) (hdirected : fill.positionSide ≠ .both)
    (h : applyFill input fill decisionId signal candidateId engine = .ok ⟨⟩ engine') :
    ∃ level position,
      (PositionBook.openedPosition fill (leverageOf signal) .isolated .futures level).postInit =
        .ok position ∧ engine'.book = bookOf (some position) ∧
      engine'.cash = quantizeAmount (engine.cash - position.margin - fill.fee) := by
  obtain ⟨held, executionId, s₁, hheld, hlogs, hbranch⟩ := Engine.applyFill_eq_ok h
  have hnone : positionOf input (bookOf none) = .ok none := positionOf_bookOf tradable_none
  rw [hempty, hnone] at hheld
  cases hheld
  rw [hreduce, if_neg (by simp)] at hbranch
  obtain ⟨-, hentry⟩ := hbranch
  obtain ⟨level, book, after, -, hbook, hafter, -, hprojected, hend⟩ :=
    Engine.applyEntry_eq_ok hentry
  rw [hlogs.book_eq, hempty, hmarket] at hbook
  obtain ⟨-, position, hposition, rfl⟩ := (PositionBook.apply_of_free hreduce rfl).1 hbook
  have htradable := tradable_of_opened hsymbol hdirected hposition
  obtain ⟨hfields, -⟩ := Position.postInit_eq_ok hposition
  -- the new position is filed under the key of the fill
  have hbookOf : (bookOf none).update (fill.symbol, fill.positionSide) (some position) =
      bookOf (some position) := by
    rw [hfields]
    rfl
  rw [hbookOf] at hafter hend
  rw [positionOf_bookOf (tradable_some htradable)] at hafter
  have hsame : position = after := Option.some.inj (Except.ok.inj hafter)
  subst hsame
  -- nothing was held before, so all of the margin is new
  have hmargin : quantizeAmount (position.margin - ((none : Option Position).map
      (·.margin)).getD 0) = position.margin := by
    change quantizeAmount (position.margin - 0) = _
    rw [sub_zero]
    exact htradable.margin_money.quantizeAmount_eq
  rw [hmargin, hlogs.cash_eq] at hprojected
  refine ⟨level, position, hposition, ?_⟩
  have hcash : quantizeAmount (Engine.projectedEntryCash input engine.cash fill
      (leverageOf signal)) = quantizeAmount (engine.cash - position.margin - fill.fee) := by
    rw [hprojected, quantizeAmount_quantizeAmount]
  rcases hend with ⟨active, -, heq⟩ | ⟨-, origin, tradeId, -, hlast⟩
  · exact ⟨congrArg EngineState.book heq, (congrArg EngineState.cash heq).trans hcash⟩
  · exact ⟨hlast.book_eq, hlast.cash_eq.trans hcash⟩

/-- **An entry fill keeps the ledgers together.** -/
theorem Books.entry {decisionId candidateId : Option ℕ} {signal : TradingSignal}
    (h : Books input s none none) (hmarket : message.signal.marketType = .futures)
    (hsymbol : message.signal.symbol = input.config.symbol)
    (hleverage : leverageOf (some signal) = message.signal.leverage.getD 1)
    (hpaper : IsEntry message s.book s.cash fill s'.book s'.cash)
    (hbacktest : applyFill input fill decisionId (some signal) candidateId s.engine =
      .ok ⟨⟩ s'.engine) :
    ∃ position position', Books input s' (some position) (some position') := by
  have hfill := hpaper.symbol_eq.trans hsymbol
  obtain ⟨level, position, hposition, hbook, hcash⟩ := applyFill_of_entry h.market_eq h.engine_eq
    hpaper.reduceOnly_eq hfill hpaper.directed hbacktest
  rw [h.wallet_eq] at hpaper
  obtain ⟨level', position', hposition', hbook', -, -, hcash'⟩ := hpaper.exists_opened
  rw [hmarket] at hposition'
  rw [hleverage] at hposition
  have hbasis := basis_of_opened hposition hposition'
  refine ⟨position, position', h.market_eq, ?_, ?_, hbook, hbook', ?_, ?_, ?_⟩
  · rw [hcash, hcash', positionValue_of_opened hposition', h.cash_eq]
    rw [show position.margin = position'.margin from congrArg Basis.margin hbasis]
  · rw [hcash']
    exact isMoney_quantizeAmount _
  · exact congrArg some hbasis
  · exact tradable_some (tradable_of_opened hfill hpaper.directed hposition)
  · exact tradable_some (tradable_of_opened hfill hpaper.directed hposition')

/-! ### Exits -/

/-- The profit of a full exit at a fill's price. -/
def exitProfit (position : Position) (fill : Fill) : Decimal :=
  quantizeAmount (position.priceDelta fill.price * position.quantity)

/-- The engine's delta is that of the position, when it has a direction. -/
theorem realizedPnl_eq_exitProfit (hdirected : position.side ≠ .both)
    (hfull : fill.quantity = position.quantity) :
    Engine.realizedPnl position fill = exitProfit position fill := by
  unfold Engine.realizedPnl exitProfit Position.priceDelta
  rw [hfull]
  cases hside : position.side with
  | both => exact absurd hside hdirected
  | long => rfl
  | short => simp

/-- A full exit releases the whole margin. -/
theorem releasedMargin_of_full (h : Tradable input position)
    (hfull : fill.quantity = position.quantity) :
    Engine.releasedMargin position fill = position.margin := by
  unfold Engine.releasedMargin
  rw [hfull, mul_div_cancel_right₀ _ h.quantity_pos.ne', h.margin_money.quantizeAmount_eq]

/-- Nothing is left of a position reduced by its quantity. -/
theorem reducedBy_quantity_self : (position.reducedBy position.quantity).quantity = 0 := by
  rw [Position.reducedBy_quantity, sub_self, quantizeAmount_zero]

/-- The engine's full exit. -/
theorem applyFill_of_exit {engine engine' : EngineState} {decisionId candidateId : Option ℕ}
    {signal : Option TradingSignal} (hbook : engine.book = bookOf (some position))
    (htradable : Tradable input position) (hmoney : IsMoney engine.cash)
    (hreduce : fill.reduceOnly = true)
    (hkey : (fill.symbol, fill.positionSide) = (position.symbol, position.side))
    (hfull : fill.quantity = position.quantity)
    (h : applyFill input fill decisionId signal candidateId engine = .ok ⟨⟩ engine') :
    engine'.book = bookOf none ∧
      engine'.cash = engine.cash + position.margin + exitProfit position fill - fill.fee := by
  obtain ⟨held, executionId, s₁, hheld, hlogs, hbranch⟩ := Engine.applyFill_eq_ok h
  rw [hbook, positionOf_bookOf (tradable_some htradable)] at hheld
  cases hheld
  rw [hreduce, if_pos rfl] at hbranch
  obtain ⟨before, active, cash, released, book, remaining, hbefore, -, hcash, -, hrun, hremaining,
    hend⟩ := Engine.applyExit_eq_ok hreduce hbranch
  cases hbefore
  obtain ⟨-, filed, after, hfiled, hafter, rfl⟩ := PositionBook.reduce_eq_ok.1 hrun
  rw [hlogs.book_eq, hbook, hkey] at hfiled hremaining hend
  rw [bookOf_self] at hfiled
  cases hfiled
  obtain ⟨-, -, -, -, rfl⟩ := Position.reduceQuantity_eq_ok.1 hafter
  rw [fill.isMoney_quantity.quantizeAmount_eq, hfull, if_pos reducedBy_quantity_self,
    bookOf_update (by intro _ hnone; cases hnone)] at hremaining hend
  rw [hlogs.cash_eq] at hcash
  -- all of the margin is released, and every term is on the grid
  have hsettled : cash = engine.cash + position.margin + exitProfit position fill - fill.fee := by
    rw [hcash]
    unfold Engine.exitCash
    rw [releasedMargin_of_full htradable hfull, realizedPnl_eq_exitProfit htradable.directed hfull]
    exact (((hmoney.add htradable.margin_money).add (isMoney_quantizeAmount _)).sub
      fill.isMoney_fee).quantizeAmount_eq
  rcases hend with ⟨kept, hkept, -⟩ | ⟨-, trade, features, -, -, hlast⟩
  · rw [hkept] at hremaining
    cases hremaining
  · exact ⟨hlast.book_eq, hlast.cash_eq.trans hsettled⟩

/-- The wallet's full exit. -/
theorem IsExit.of_full {book' : PositionBook} {cash cash' : Decimal}
    (h : IsExit (bookOf (some position)) position cash fill book' cash')
    (htradable : Tradable input position) (hmoney : IsMoney cash)
    (hfull : fill.quantity = position.quantity) :
    book' = bookOf none ∧
      cash' = cash + position.margin + exitProfit position fill - fill.fee := by
  obtain ⟨marked, remaining, hmarked, hremaining, hbook, -, hcash⟩ :=
    h.exists_remaining htradable.directed
  obtain ⟨-, hmark⟩ := Position.updatePrice_eq_ok hmarked
  rw [fill.isMoney_price.quantizeAmount_eq, htradable.market_eq] at hmark
  have hquantity : marked.quantity = position.quantity := by rw [hmark]
  -- nothing is left, so the book drops the position
  have hflat : (marked.reducedBy fill.quantity).quantity = 0 := by
    rw [hfull, ← hquantity]
    exact reducedBy_quantity_self
  rw [if_pos hflat] at hremaining
  subst hremaining
  refine ⟨hbook, ?_⟩
  -- the value of the marked position is its margin and its profit
  have hvalue : positionValue (some marked) = position.margin + exitProfit position fill := by
    have hsum : IsMoney (position.margin + exitProfit position fill) :=
      htradable.margin_money.add (isMoney_quantizeAmount _)
    rw [hmark]
    simp only [positionValue]
    exact hsum.quantizeAmount_eq
  have hequity : IsMoney (cash + (position.margin + exitProfit position fill)) :=
    hmoney.add (htradable.margin_money.add (isMoney_quantizeAmount _))
  rw [hcash]
  unfold recompute
  rw [hvalue, hequity.quantizeAmount_eq]
  change quantizeAmount (_ - quantizeAmount 0) = _
  rw [quantizeAmount_zero, sub_zero, (hequity.sub fill.isMoney_fee).quantizeAmount_eq]
  ring

/-- **A full exit keeps the ledgers together.** -/
theorem Books.exit {decisionId candidateId : Option ℕ} {signal : Option TradingSignal}
    (h : Books input s (some position) (some position'))
    (hfull : fill.quantity = position'.quantity)
    (hpaper : IsExit s.book position' s.cash fill s'.book s'.cash)
    (hbacktest : applyFill input fill decisionId signal candidateId s.engine =
      .ok ⟨⟩ s'.engine) : Books input s' none none := by
  have htradable := h.tradable position rfl
  have htradable' := h.tradable' position' rfl
  have hbasis : basis position = basis position' := Option.some.inj h.basis_eq
  have hside : position.side = position'.side := congrArg Basis.side hbasis
  have hquantity : position.quantity = position'.quantity := congrArg Basis.quantity hbasis
  have hentry : position.entryPrice = position'.entryPrice := congrArg Basis.entryPrice hbasis
  have hmargin : position.margin = position'.margin := congrArg Basis.margin hbasis
  have hkey : (fill.symbol, fill.positionSide) = (position.symbol, position.side) := by
    rw [hpaper.symbol_eq, hpaper.positionSide_eq, htradable.symbol_eq, htradable'.symbol_eq, hside]
  have hmoney : IsMoney s.engine.cash := h.cash_eq ▸ h.cash_money
  obtain ⟨hbook, hcash⟩ := applyFill_of_exit h.engine_eq htradable hmoney hpaper.reduceOnly_eq hkey
    (hfull.trans hquantity.symm) hbacktest
  rw [h.wallet_eq] at hpaper
  obtain ⟨hbook', hcash'⟩ := hpaper.of_full htradable' h.cash_money hfull
  -- the profit depends on the basis alone
  have hprofit : exitProfit position fill = exitProfit position' fill := by
    unfold exitProfit Position.priceDelta
    rw [hside, hentry, hquantity]
  refine ⟨h.market_eq, ?_, ?_, hbook, hbook', rfl, tradable_none, tradable_none⟩
  · rw [hcash, hcash', h.cash_eq, hmargin, hprofit]
  · rw [hcash']
    exact ((h.cash_money.add htradable'.margin_money).add (isMoney_quantizeAmount _)).sub
      fill.isMoney_fee

/-! ### Runs -/

/-- A mark of the engine changes neither cash nor basis. -/
theorem Books.mark {candle : Candle} {price : Decimal} (h : Books input s held held')
    (hbacktest : markPosition input candle price s.engine = .ok ⟨⟩ s'.engine)
    (hbook : s'.book = s.book) (hcash : s'.cash = s.cash) :
    ∃ marked, Books input s' marked held' := by
  obtain ⟨found, hfound, hend⟩ := Engine.markPosition_eq_ok hbacktest
  rw [h.engine_eq, positionOf_bookOf h.tradable] at hfound
  cases hfound
  have hkeep : ∀ other : EngineState, s'.engine = other → other.cash = s.engine.cash →
      s'.engine.cash = s'.cash := by
    intro other heq hother
    rw [heq, hother, hcash, h.cash_eq]
  -- without a position nothing is marked; with one only its price changes
  rcases hend with ⟨-, heq⟩ | ⟨position, filed, marked, hheld, hfiled, hmark, tracks, -, heq⟩
  · refine ⟨held, h.market_eq, hkeep _ heq rfl, hcash ▸ h.cash_money, ?_, hbook.trans h.wallet_eq,
      h.basis_eq, h.tradable, h.tradable'⟩
    rw [heq]
    exact h.engine_eq
  · subst hheld
    rw [h.engine_eq, bookOf_self] at hfiled
    cases hfiled
    obtain ⟨-, hfields⟩ := Position.updatePrice_eq_ok hmark
    have hbasis : basis marked = basis position := by rw [hfields]; rfl
    have htradable := h.tradable position rfl
    refine ⟨some marked, h.market_eq, hkeep _ heq rfl, hcash ▸ h.cash_money, ?_,
      hbook.trans h.wallet_eq, ?_, ?_, h.tradable'⟩
    · rw [heq]
      change s.engine.book.update _ _ = _
      rw [h.engine_eq]
      refine bookOf_update ?_
      intro other hother
      rw [← Option.mem_some_iff.1 hother, hfields]
      exact ⟨rfl, rfl⟩
    · rw [← h.basis_eq]
      exact congrArg some hbasis
    · refine tradable_some ?_
      rw [hfields]
      exact ⟨htradable.symbol_eq, htradable.directed, htradable.market_eq, htradable.quantity_pos,
        htradable.margin_money⟩

/-- A book that shows no position of the run's symbol holds none. -/
theorem Books.of_flat (h : Books input s held held')
    (hflat : bookPosition s.book input.config.symbol = .ok none) : Books input s none none := by
  rw [h.wallet_eq, bookPosition_of_tradable h.tradable'] at hflat
  cases hflat
  have hnone : held = none := Option.map_eq_none_iff.1 h.basis_eq
  subst hnone
  exact h

/-- A book that shows a position holds it. -/
theorem Books.of_held {symbol : String} (h : Books input s held held')
    (hheld : bookPosition s.book symbol = .ok (some position')) :
    ∃ position, Books input s (some position) (some position') := by
  rw [h.wallet_eq] at hheld
  have hfound := bookPosition_bookOf (fun other hother => (h.tradable' other hother).directed) hheld
  have hmem : held' = some position' := (Option.filter_eq_some_iff.1 hfound.symm).1
  subst hmem
  obtain ⟨position, hposition, -⟩ := Option.map_eq_some_iff.1 h.basis_eq
  subst hposition
  exact ⟨position, h⟩

/-- **Every run keeps the ledgers together.** -/
theorem books_of_reachable (h : (ledgers input config).Reachable s) :
    ∃ held held', Books input s held held' := by
  refine TransitionSystem.Reachable.invariant (I := fun s => ∃ held held', Books input s held held')
    ?_ ?_ h
  · rintro s ⟨hmarket, hengine, hwallet, hcash, hmoney⟩
    exact ⟨none, none, hmarket, hcash, hmoney, hengine, hwallet, rfl, tradable_none, tradable_none⟩
  · rintro s s' ⟨held, held', hinv⟩ hstep
    cases hstep with
    | entry market symbol leverage flat paper backtest =>
      rw [symbol] at flat
      obtain ⟨position, position', hbooks⟩ := (hinv.of_flat flat).entry market symbol leverage
        (executeEntry_eq_ok paper) backtest
      exact ⟨_, _, hbooks⟩
    | exit shown full paper backtest =>
      obtain ⟨position, hbooks⟩ := hinv.of_held shown
      exact ⟨none, none, hbooks.exit full (executeExit_eq_ok paper) backtest⟩
    | mark backtest book cash =>
      obtain ⟨marked, hbooks⟩ := hinv.mark backtest book cash
      exact ⟨marked, held', hbooks⟩

/-- **Backtest and paper ledgers agree** after every fill of every run. Entries, full exits and
marks leave both with the same cash, and with positions of the same side, quantity, entry price
and margin. -/
theorem ledgers_agree (h : (ledgers input config).Reachable s) : Agree input s := by
  obtain ⟨held, held', hbooks⟩ := books_of_reachable h
  exact hbooks.agree

theorem tenThousand_pos : (0 : Decimal) < 10000 := by norm_num

/-- A run to book paper fills in. -/
def paperRun : RunInput := Engine.twoDollarRun 10000 (Binary64.ofRat 100) tenThousand_pos

/-- Both ledgers with ten thousand and nothing else. -/
def tenThousandEach : Ledgers := ⟨Engine.initialState paperRun 10000, bookOf none, 10000⟩

/-! ### A reversal -/

/-- Both book an entry. -/
def bookEntry (message : PaperSignal) (s : Ledgers) : Option Ledgers :=
  match executeEntry paperWallet message s.book s.cash [] with
  | .error _ => none
  | .ok (fill, book, cash) =>
    match applyFill paperRun fill none (some message.signal) none s.engine with
    | .error _ _ => none
    | .ok _ engine => some ⟨engine, book, cash⟩

theorem booked_of_bookEntry (h : bookEntry message s = some s')
    (market : message.signal.marketType = .futures)
    (symbol : message.signal.symbol = paperRun.config.symbol)
    (leverage : leverageOf (some message.signal) = message.signal.leverage.getD 1)
    (flat : bookPosition s.book message.signal.symbol = .ok none) :
    Booked paperRun paperWallet s s' := by
  unfold bookEntry at h
  split at h
  · cases h
  · next fill book cash hpaper =>
    split at h
    · cases h
    · next engine hbacktest =>
      cases h
      exact .entry market symbol leverage flat hpaper hbacktest

/-- Both book the exit of all that the wallet holds. -/
def bookExit (message : PaperSignal) (s : Ledgers) : Option Ledgers :=
  match bookPosition s.book message.signal.symbol with
  | .error _ | .ok none => none
  | .ok (some position) =>
    match executeExit paperWallet message s.book position s.cash with
    | .error _ => none
    | .ok (fill, book, cash) =>
      if fill.quantity = position.quantity then
        match applyFill paperRun fill none none none s.engine with
        | .error _ _ => none
        | .ok _ engine => some ⟨engine, book, cash⟩
      else none

theorem booked_of_bookExit (h : bookExit message s = some s') :
    Booked paperRun paperWallet s s' := by
  unfold bookExit at h
  split at h
  · cases h
  · cases h
  · next position hheld =>
    split at h
    · cases h
    · next fill book cash hpaper =>
      split at h
      · next hfull =>
        split at h
        · cases h
        · next engine hbacktest =>
          cases h
          exact .exit hheld hfull hpaper hbacktest
      · cases h

/-- The exit of the second minute, to be executed in the third. -/
def exitMessage : PaperSignal where
  walletId := "paper"
  signalId := 2
  decisionCandle := minuteOf 1
  executionCandle := minuteOf 2
  signal := laterExit.signal
  intent := .exit
  side := none

theorem hundredTen_pos : ∀ level ∈ some (Binary64.ofRat 110), Binary64.zero < level := by
  intro level hlevel
  cases hlevel
  decide +kernel

/-- The short entry of the same minute, its stop above. -/
def shortMessage : PaperSignal where
  walletId := "paper"
  signalId := 3
  decisionCandle := minuteOf 1
  executionCandle := minuteOf 2
  signal := { laterExit.signal with
    stopLoss := some (Binary64.ofRat 110)
    stopLoss_pos := hundredTen_pos }
  intent := .enter
  side := some .short

/-- The ledgers after the long entry, after its exit, and after the short entry. -/
def reversal : Option (Ledgers × Ledgers × Ledgers) := do
  let entered ← bookEntry entryMessage tenThousandEach
  let closed ← bookExit exitMessage entered
  let reversed ← bookEntry shortMessage closed
  return (entered, closed, reversed)

/-- **A reversal**: both book a long entry, the exit of all of it and a short entry, and they agree
on what each of them leaves. -/
theorem ledgers_agree_of_reversal : ∃ entered closed reversed : Ledgers,
    (entered.book ("BTCUSDT", .long)).isSome = true ∧ Agree paperRun entered ∧
    bookPosition closed.book "BTCUSDT" = .ok none ∧ Agree paperRun closed ∧
    (reversed.book ("BTCUSDT", .short)).isSome = true ∧ Agree paperRun reversed := by
  have htry : reversal.any (fun result => (result.1.book ("BTCUSDT", .long)).isSome &&
      decide (bookPosition result.2.1.book "BTCUSDT" = .ok none) &&
      (result.2.2.book ("BTCUSDT", .short)).isSome) = true := by decide +kernel
  obtain ⟨⟨entered, closed, reversed⟩, hrun, htest⟩ := (Option.any_eq_true _ _).1 htry
  simp only [Bool.and_eq_true, decide_eq_true_eq] at htest
  obtain ⟨⟨hlong, hflat⟩, hshort⟩ := htest
  unfold reversal at hrun
  simp only [Option.bind_eq_bind, Option.bind_eq_some_iff, Option.pure_def] at hrun
  obtain ⟨_, hentry, _, hexit, _, hreverse, hresult⟩ := hrun
  cases hresult
  have hstart : (ledgers paperRun paperWallet).Reachable tenThousandEach :=
    .init ⟨rfl, rfl, rfl, rfl, ⟨1000000000000, by norm_num [tenThousandEach, qAmount]⟩⟩
  have hentered := hstart.step (booked_of_bookEntry hentry rfl rfl rfl rfl)
  have hclosed := hentered.step (booked_of_bookExit hexit)
  have hreversed := hclosed.step (booked_of_bookEntry hreverse rfl rfl rfl hflat)
  exact ⟨entered, closed, reversed, hlong, ledgers_agree hentered, hflat, ledgers_agree hclosed,
    hshort, ledgers_agree hreversed⟩

end Wallet
end TradingSystem
