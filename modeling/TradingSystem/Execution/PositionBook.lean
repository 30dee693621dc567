import TradingSystem.Costs.Liquidation

/-!
# The position book

A mapping from symbol and side to mutable positions, updated by fills and
funding. Methods of a held position run on the book through `onPosition`, which
keeps the position's mutations even when the method raises.
-/

namespace TradingSystem

open Logic

/-- `PositionKey`: symbol and side. -/
abbrev PositionKey := String × PositionSide

/-- The keyed positions of a book. -/
abbrev PositionBook := PositionKey → Option Position

/-- The outcome of one funding application. -/
structure FundingMarginResult where
  theoreticalCost : Decimal
  appliedCost : Decimal
  exhausted : Bool
deriving DecidableEq

namespace PositionBook

/-- The book that holds nothing. -/
def empty : PositionBook := fun _ => none

/-- Bind a key to a position, or drop it. -/
def update (book : PositionBook) (key : PositionKey) (value : Option Position) : PositionBook :=
  Function.update book key value

@[simp] theorem update_self (book : PositionBook) (key : PositionKey) (value : Option Position) :
    book.update key value key = value := Function.update_self ..

@[simp] theorem update_update (book : PositionBook) (key : PositionKey)
    (value value' : Option Position) :
    (book.update key value).update key value' = book.update key value' :=
  Function.update_idem ..

theorem update_of_ne {book : PositionBook} {key key' : PositionKey} {value : Option Position}
    (h : key' ≠ key) : book.update key value key' = book key' := Function.update_of_ne h ..

/-- A method of the position held at `key`; `missing` if there is none. -/
def onPosition {α : Type} (key : PositionKey) (missing : Fault)
    (method : Program Fault Position α) : Program Fault PositionBook α := fun book =>
  match book key with
  | none => .error missing book
  | some position =>
    match method position with
    | .ok a position => .ok a (book.update key (some position))
    | .error e position => .error e (book.update key (some position))

theorem onPosition_eq_ok {α : Type} {key : PositionKey} {missing : Fault}
    {method : Program Fault Position α} {book book' : PositionBook} {a : α} :
    onPosition key missing method book = .ok a book' ↔
      ∃ position position', book key = some position ∧ method position = .ok a position' ∧
        book' = book.update key (some position') := by
  unfold onPosition
  cases hkey : book key with
  | none => simp
  | some position =>
    simp only [Option.some.injEq, exists_and_left, exists_eq_left']
    cases method position with
    | ok b position' =>
      constructor
      · intro h
        cases h
        exact ⟨position', rfl, rfl⟩
      · rintro ⟨p, h, rfl⟩
        cases h
        rfl
    | error e position' => simp

/-- The position a first fill opens. -/
def openedPosition (fill : Fill) (leverage : ℕ) (marginType : MarginType)
    (marketType : MarketType) (liquidationPrice : Decimal) : Position :=
  let notional := quantizeAmount (fill.quantity * fill.price)
  { symbol := fill.symbol
    quantity := fill.quantity
    averagePrice := fill.price
    totalCost := notional
    currentPrice := fill.price
    unrealizedPnl := quantizeAmount 0
    side := fill.positionSide
    marketType := marketType
    leverage := leverage
    marginType := marginType
    margin :=
      match marketType with
      | .futures => quantizeAmount (notional / leverage)
      | .spot => notional
    entryPrice := fill.price
    markPrice := fill.price
    liquidationPrice := quantizePrice liquidationPrice
    fundingFeeTotal := quantizeAmount 0 }

/-- Open a position from a first fill. -/
def openPosition (fill : Fill) (leverage : Option ℕ) (marginType : Option MarginType)
    (marketType : MarketType) (liquidationPrice : Decimal) : Program Fault PositionBook PUnit :=
  match leverage, marginType with
  | some leverage, some marginType => do
    raiseUnless (0 < leverage) (.valueError "leverage must be a positive int")
    let position ← runPure
      (openedPosition fill leverage marginType marketType liquidationPrice).postInit
    modify fun book => book.update (fill.symbol, fill.positionSide) (some position)
  | _, _ => throw (.valueError "leverage and margin_type are required when opening a position")

/-- Increase the held position and its margin. -/
def weightedAverage (fill : Fill) : Program Fault PositionBook PUnit := do
  let key := (fill.symbol, fill.positionSide)
  let book ← get
  raiseUnless ((book key).isSome) (.keyError "no position to increase")
  raiseUnless (fill.reduceOnly = false)
    (.valueError "reduce-only fill cannot increase a position")
  onPosition key (.keyError "no position to increase") do
    Position.addQuantity fill.quantity fill.price
    modify fun position => { position with
      margin := quantizeAmount (position.margin +
        match position.marketType with
        | .futures => fill.quantity * fill.price / position.leverage
        | .spot => fill.quantity * fill.price) }

/-- Reduce the held position, dropping it when flat; returns the released margin. -/
def reduce (fill : Fill) : Program Fault PositionBook Decimal := do
  raiseUnless (fill.reduceOnly = true)
    (.valueError "position reductions require a reduce-only fill")
  let key := (fill.symbol, fill.positionSide)
  let releasedMargin ← onPosition key (.keyError "no position to reduce")
    (Position.reduceQuantity fill.quantity)
  modify fun book =>
    match book key with
    | some position => if position.quantity = 0 then book.update key none else book
    | none => book
  return releasedMargin

/-- Apply a fill: reduce, increase or open. -/
def apply (fill : Fill) (leverage : Option ℕ) (marginType : Option MarginType)
    (marketType : MarketType) (liquidationPrice : Decimal) : Program Fault PositionBook PUnit := do
  let book ← get
  let held := book (fill.symbol, fill.positionSide)
  if fill.reduceOnly then do
    raiseUnless held.isSome (.keyError "no position to reduce")
    let _ ← reduce fill
  else if held.isSome then weightedAverage fill
  else openPosition fill leverage marginType marketType liquidationPrice

/-- Charge funding to a position's isolated margin and refresh its liquidation
price. A cost beyond the margin is collected only up to it. -/
def chargeFunding (theoreticalCost maintenanceMarginRate : Decimal) :
    Program Fault Position FundingMarginResult := do
  let position ← get
  raiseUnless (position.marketType = .futures)
    (.valueError "funding applies to futures positions only")
  raiseUnless (position.marginType = .isolated)
    (.valueError "funding margin application supports ISOLATED only")
  let normalizedCost := quantizeAmount theoreticalCost
  let appliedCost := if 0 < normalizedCost then min normalizedCost position.margin
    else normalizedCost
  set { position with margin := quantizeAmount (position.margin - appliedCost) }
  let position ← get
  raiseUnless (0 ≤ position.margin)
    (.runtimeError "funding must not make isolated margin negative")
  set { position with
    fundingFeeTotal := quantizeAmount (position.fundingFeeTotal + appliedCost) }
  let position ← get
  let liquidationPrice ← runPure (liquidationPriceFromMargin position maintenanceMarginRate)
  set { position with liquidationPrice := liquidationPrice }
  return {
    theoreticalCost := normalizedCost
    appliedCost := appliedCost
    exhausted := decide (0 < normalizedCost ∧ position.margin = 0) }

/-- What funding does to a position: the applied cost leaves the margin, never more
than the margin, and the liquidation price is recomputed. -/
theorem chargeFunding_eq_ok {theoreticalCost maintenanceMarginRate : Decimal}
    {position position' : Position} {result : FundingMarginResult}
    (h : chargeFunding theoreticalCost maintenanceMarginRate position = .ok result position') :
    position.marketType = .futures ∧ position.marginType = .isolated ∧
      ∃ level, position' = { position with
        margin := quantizeAmount (position.margin - result.appliedCost)
        fundingFeeTotal := quantizeAmount (position.fundingFeeTotal + result.appliedCost)
        liquidationPrice := level } ∧
      liquidationPriceFromMargin { position with
        margin := quantizeAmount (position.margin - result.appliedCost)
        fundingFeeTotal := quantizeAmount (position.fundingFeeTotal + result.appliedCost) }
        maintenanceMarginRate = .ok level ∧
      0 ≤ position'.margin ∧
      result.appliedCost = (if 0 < quantizeAmount theoreticalCost then
        min (quantizeAmount theoreticalCost) position.margin else quantizeAmount theoreticalCost) ∧
      result.exhausted = decide (0 < quantizeAmount theoreticalCost ∧ position'.margin = 0) := by
  unfold chargeFunding at h
  simp only [bind_eq_ok, get_apply, set_apply, raiseUnless_eq_ok, runPure_eq_ok, pure_apply,
    EStateM.Result.ok.injEq] at h
  obtain ⟨_, _, ⟨rfl, rfl⟩, _, _, ⟨hmarket, rfl⟩, _, _, ⟨hisolated, rfl⟩, _, _, ⟨-, rfl⟩, _, _,
    ⟨rfl, rfl⟩, _, _, ⟨hmargin, rfl⟩, _, _, ⟨-, rfl⟩, _, _, ⟨rfl, rfl⟩, level, _,
    ⟨hlevel, rfl⟩, _, _, ⟨-, rfl⟩, rfl, rfl⟩ := h
  exact ⟨hmarket, hisolated, level, rfl, hlevel, hmargin, rfl, rfl⟩

/-- Apply funding to the held position at `key`. -/
def applyFunding (key : PositionKey) (theoreticalCost maintenanceMarginRate : Decimal) :
    Program Fault PositionBook FundingMarginResult :=
  onPosition key (.valueError "funding position must be the active book value")
    (chargeFunding theoreticalCost maintenanceMarginRate)

/-! ### What the operations do -/

variable {fill : Fill} {book book' : PositionBook}

/-- A reduction replaces the held position, or drops it when it is flat. -/
theorem reduce_eq_ok {released : Decimal} :
    reduce fill book = .ok released book' ↔ fill.reduceOnly = true ∧
      ∃ position position', book (fill.symbol, fill.positionSide) = some position ∧
        Position.reduceQuantity fill.quantity position = .ok released position' ∧
        book' = book.update (fill.symbol, fill.positionSide)
          (if position'.quantity = 0 then none else some position') := by
  -- the second write to the same key is the one that counts
  have hdrop : ∀ position' : Position,
      (match (book.update (fill.symbol, fill.positionSide) (some position'))
          (fill.symbol, fill.positionSide) with
        | some position => if position.quantity = 0 then
            (book.update (fill.symbol, fill.positionSide) (some position')).update
              (fill.symbol, fill.positionSide) none
          else book.update (fill.symbol, fill.positionSide) (some position')
        | none => book.update (fill.symbol, fill.positionSide) (some position')) =
      book.update (fill.symbol, fill.positionSide)
        (if position'.quantity = 0 then none else some position') := by
    intro position'
    rw [update_self]
    by_cases hflat : position'.quantity = 0
    · simp only [hflat, if_true, update_update]
    · simp only [hflat, if_false]
  unfold reduce
  simp only [bind_eq_ok, raiseUnless_eq_ok, onPosition_eq_ok, modify_apply, pure_apply,
    EStateM.Result.ok.injEq]
  constructor
  · rintro ⟨_, _, ⟨hreduce, rfl⟩, _, _, ⟨position, position', hheld, hrun, rfl⟩, _, _,
      ⟨-, rfl⟩, rfl, rfl⟩
    exact ⟨hreduce, position, position', hheld, hrun, hdrop position'⟩
  · rintro ⟨hreduce, position, position', hheld, hrun, rfl⟩
    exact ⟨⟨⟩, _, ⟨hreduce, rfl⟩, _, _, ⟨position, position', hheld, hrun, rfl⟩, ⟨⟩, _,
      ⟨trivial, rfl⟩, rfl, hdrop position'⟩

/-- A reduce-only fill is applied by `reduce`. -/
theorem apply_of_reduceOnly {leverage : Option ℕ} {marginType : Option MarginType}
    {marketType : MarketType} {liquidationPrice : Decimal} (h : fill.reduceOnly = true) :
    apply fill leverage marginType marketType liquidationPrice book = .ok ⟨⟩ book' ↔
      ∃ released, reduce fill book = .ok released book' := by
  unfold apply
  simp only [bind_eq_ok, get_apply, EStateM.Result.ok.injEq, h, if_true, raiseUnless_eq_ok,
    pure_apply]
  constructor
  · rintro ⟨_, _, ⟨rfl, rfl⟩, _, _, ⟨-, rfl⟩, released, _, hrun, -, rfl⟩
    exact ⟨released, hrun⟩
  · rintro ⟨released, hrun⟩
    obtain ⟨-, position, _, hheld, -⟩ := reduce_eq_ok.1 hrun
    exact ⟨_, _, ⟨rfl, rfl⟩, ⟨⟩, _, ⟨by rw [hheld]; rfl, rfl⟩, released, _, hrun, trivial, rfl⟩

/-- A fill at a free key opens a position there. -/
theorem apply_of_free {leverage : ℕ} {marginType : MarginType} {marketType : MarketType}
    {liquidationPrice : Decimal} (h : fill.reduceOnly = false)
    (hfree : book (fill.symbol, fill.positionSide) = none) :
    apply fill (some leverage) (some marginType) marketType liquidationPrice book =
        .ok ⟨⟩ book' ↔
      0 < leverage ∧ ∃ position,
        (openedPosition fill leverage marginType marketType liquidationPrice).postInit =
          .ok position ∧
        book' = book.update (fill.symbol, fill.positionSide) (some position) := by
  unfold apply openPosition
  simp only [bind_eq_ok, get_apply, EStateM.Result.ok.injEq, h, Bool.false_eq_true, if_false]
  -- the key is free, so the fill opens a position there
  constructor
  · rintro ⟨_, _, ⟨rfl, rfl⟩, hrun⟩
    rw [hfree] at hrun
    simp only [Option.isSome_none, Bool.false_eq_true, if_false, bind_eq_ok, raiseUnless_eq_ok,
      runPure_eq_ok, modify_apply, EStateM.Result.ok.injEq] at hrun
    obtain ⟨_, _, ⟨hleverage, rfl⟩, position, _, ⟨hposition, rfl⟩, -, rfl⟩ := hrun
    exact ⟨hleverage, position, hposition, rfl⟩
  · rintro ⟨hleverage, position, hposition, rfl⟩
    refine ⟨_, _, ⟨rfl, rfl⟩, ?_⟩
    rw [hfree]
    simp only [Option.isSome_none, Bool.false_eq_true, if_false, bind_eq_ok, raiseUnless_eq_ok,
      runPure_eq_ok, modify_apply, EStateM.Result.ok.injEq]
    exact ⟨⟨⟩, _, ⟨hleverage, rfl⟩, position, _, ⟨hposition, rfl⟩, trivial, rfl⟩

/-! ### Filing -/

/-- Binding a key keeps what holds of every entry when it holds of the new one. -/
theorem forall_update {key : PositionKey} {value : Option Position}
    {Holds : PositionKey → Position → Prop}
    (h : ∀ key' position, book key' = some position → Holds key' position)
    (hvalue : ∀ position ∈ value, Holds key position) :
    ∀ key' position, book.update key value key' = some position → Holds key' position := by
  intro key' position hposition
  by_cases hkey : key' = key
  · subst hkey
    rw [update_self] at hposition
    exact hvalue position hposition
  · rw [update_of_ne hkey] at hposition
    exact h key' position hposition

/-- The book files every position under its own symbol and side. -/
def Keyed (book : PositionBook) : Prop :=
  ∀ key position, book key = some position → key = (position.symbol, position.side)

theorem keyed_empty : Keyed empty := by
  intro key position h
  cases h

/-- Binding a key keeps the filing when the position belongs under it. -/
theorem Keyed.update {key : PositionKey} {value : Option Position} (h : book.Keyed)
    (hvalue : ∀ position ∈ value, key = (position.symbol, position.side)) :
    (book.update key value).Keyed :=
  forall_update h hvalue

/-- Increasing a position moves neither its symbol nor its side. -/
theorem weightedAverage_eq_ok (h : weightedAverage fill book = .ok ⟨⟩ book') :
    ∃ position position', book (fill.symbol, fill.positionSide) = some position ∧
      position'.symbol = position.symbol ∧ position'.side = position.side ∧
      book' = book.update (fill.symbol, fill.positionSide) (some position') := by
  unfold weightedAverage at h
  simp only [bind_eq_ok, get_bind_apply, raiseUnless_eq_ok, onPosition_eq_ok] at h
  obtain ⟨_, _, ⟨-, rfl⟩, _, _, ⟨-, rfl⟩, position, position', hheld, hrun, rfl⟩ := h
  refine ⟨position, position', hheld, ?_⟩
  unfold Position.addQuantity at hrun
  simp only [bind_eq_ok, raiseUnless_eq_ok, modify_apply, Position.checkTotalCost_eq_ok,
    EStateM.Result.ok.injEq] at hrun
  obtain ⟨_, _, ⟨_, _, ⟨-, rfl⟩, _, _, ⟨-, rfl⟩, _, _, ⟨-, rfl⟩, rfl, -⟩, -, rfl⟩ := hrun
  exact ⟨rfl, rfl, rfl⟩

/-- **An entry fill** binds its own key to a position that belongs there, and no other
key. -/
theorem apply_of_entry {leverage : ℕ} {marginType : MarginType} {marketType : MarketType}
    {liquidationPrice : Decimal} (hkeyed : book.Keyed) (hentry : fill.reduceOnly = false)
    (h : apply fill (some leverage) (some marginType) marketType liquidationPrice book =
      .ok ⟨⟩ book') :
    ∃ position, position.symbol = fill.symbol ∧ position.side = fill.positionSide ∧
      book' = book.update (fill.symbol, fill.positionSide) (some position) := by
  cases hheld : book (fill.symbol, fill.positionSide) with
  | none =>
    obtain ⟨-, position, hposition, rfl⟩ := (apply_of_free hentry hheld).1 h
    obtain ⟨rfl, -⟩ := Position.postInit_eq_ok hposition
    exact ⟨_, rfl, rfl, rfl⟩
  | some held =>
    unfold apply at h
    simp only [get_bind_apply, hentry, Bool.false_eq_true, if_false, hheld, Option.isSome_some,
      if_true] at h
    obtain ⟨held', position, hheld', hsymbol, hside, rfl⟩ := weightedAverage_eq_ok h
    -- the filing says what the held position's symbol and side are
    have hkey := hkeyed _ _ hheld'
    rw [Prod.mk.injEq] at hkey
    exact ⟨position, hsymbol.trans hkey.1.symm, hside.trans hkey.2.symm, rfl⟩

end PositionBook
end TradingSystem
