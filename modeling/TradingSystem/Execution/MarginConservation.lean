import TradingSystem.Execution.PositionBook
import Mathlib.Algebra.BigOperators.Group.Finset.Piecewise

/-!
# Conservation of margin

Every method of the position book moves margin at one key. An entry assigns margin, a
reduction releases it, funding is charged to it. `performAll` runs a list of method calls
from an empty book and lists the movements, and `conserved_of_performAll` balances them:
what was released and what is still held is what was assigned, less the funding.

* `Operation`, `Movement`, `perform` — the calls and what they report.
* `Sound` — what the book keeps about every position it holds.
* `perform_moves` — one call moves the held margin by its movement.
* `reduce_flat_releases` — a full close releases all of it.

The margin an increase assigns is the difference it makes to the held margin, as the engine
reads it off the book. It is the exact margin of the fill up to one rounding,
`assigned_of_increase`.
-/

namespace TradingSystem

open Logic

namespace PositionBook

/-! ### Calls and movements -/

/-- A call of a method that moves margin. -/
inductive Operation
  | apply (fill : Fill) (leverage : Option ℕ) (marginType : Option MarginType)
      (marketType : MarketType) (liquidationPrice : Decimal)
  | weightedAverage (fill : Fill)
  | reduce (fill : Fill)
  | applyFunding (key : PositionKey) (theoreticalCost maintenanceMarginRate : Decimal)

/-- What a call does to the margin at a key. -/
inductive Movement
  | assigned (key : PositionKey) (amount : Decimal)
  | released (key : PositionKey) (amount : Decimal)
  | funded (key : PositionKey) (appliedCost : Decimal)
deriving DecidableEq

/-- The margin held at a key. -/
def heldMargin (book : PositionBook) (key : PositionKey) : Decimal :=
  match book key with
  | none => 0
  | some position => position.margin

/-- The quantity held at a key. -/
def heldQuantity (book : PositionBook) (key : PositionKey) : Decimal :=
  match book key with
  | none => 0
  | some position => position.quantity

/-- The key a fill belongs to. -/
def keyOf (fill : Fill) : PositionKey := (fill.symbol, fill.positionSide)

/-- The margin an entry fill assigned, read off the book before and after. -/
def assignedBetween (before after : PositionBook) (key : PositionKey) : Decimal :=
  quantizeAmount (heldMargin after key - heldMargin before key)

/-- The margin a reduction by a fill releases. -/
def releasedFrom (book : PositionBook) (fill : Fill) : Decimal :=
  match book (keyOf fill) with
  | none => 0
  | some position => position.releasedBy (quantizeAmount fill.quantity)

/-- Make a call and report its movement. `apply` drops what its reduction returns. -/
def perform : Operation → Program Fault PositionBook Movement
  | .apply fill leverage marginType marketType liquidationPrice => do
    let before ← get
    apply fill leverage marginType marketType liquidationPrice
    let after ← get
    if fill.reduceOnly = true then return .released (keyOf fill) (releasedFrom before fill)
    else return .assigned (keyOf fill) (assignedBetween before after (keyOf fill))
  | .weightedAverage fill => do
    let before ← get
    weightedAverage fill
    let after ← get
    return .assigned (keyOf fill) (assignedBetween before after (keyOf fill))
  | .reduce fill => do
    let released ← reduce fill
    return .released (keyOf fill) released
  | .applyFunding key theoreticalCost maintenanceMarginRate => do
    let result ← applyFunding key theoreticalCost maintenanceMarginRate
    return .funded key result.appliedCost

/-- Make some calls in order; all of them have to be accepted. -/
def performAll : List Operation → Program Fault PositionBook (List Movement)
  | [] => return []
  | operation :: rest => do
    let movement ← perform operation
    let movements ← performAll rest
    return movement :: movements

namespace Movement

/-- The key of a movement. -/
def key : Movement → PositionKey
  | .assigned key _ => key
  | .released key _ => key
  | .funded key _ => key

/-- The margin a movement assigns. -/
def assignedAmount : Movement → Decimal
  | .assigned _ amount => amount
  | .released _ _ => 0
  | .funded _ _ => 0

/-- The margin a movement releases. -/
def releasedAmount : Movement → Decimal
  | .assigned _ _ => 0
  | .released _ amount => amount
  | .funded _ _ => 0

/-- What funding adds to the margin: the applied cost leaves it. -/
def fundingAmount : Movement → Decimal
  | .assigned _ _ => 0
  | .released _ _ => 0
  | .funded _ appliedCost => -appliedCost

/-- The change of the held margin at a key. -/
def change (movement : Movement) (key : PositionKey) : Decimal :=
  if key = movement.key then
    movement.assignedAmount + movement.fundingAmount - movement.releasedAmount
  else 0

end Movement

/-- The sum of an amount over the movements at a key. -/
def sumAt (amount : Movement → Decimal) (movements : List Movement) (key : PositionKey) : Decimal :=
  ((movements.filter fun movement => movement.key = key).map amount).sum

/-- The sum of an amount over all movements. -/
def sumOf (amount : Movement → Decimal) (movements : List Movement) : Decimal :=
  (movements.map amount).sum

/-- The sum of the margins held at the keys of some movements. -/
def totalHeld (book : PositionBook) (movements : List Movement) : Decimal :=
  ∑ key ∈ (movements.map Movement.key).toFinset, heldMargin book key

/-! ### What the book keeps -/

/-- What holds of every position in a book. -/
structure SoundPosition (position : Position) : Prop where
  margin_money : IsMoney position.margin
  margin_nonneg : 0 ≤ position.margin
  quantity_money : IsMoney position.quantity
  quantity_pos : 0 < position.quantity

/-- **Every held position is sound.** -/
def Sound (book : PositionBook) : Prop :=
  ∀ key position, book key = some position → SoundPosition position

variable {book book' : PositionBook} {key key' : PositionKey} {fill : Fill}
  {position position' : Position} {value : Option Position} {movement : Movement}
  {movements : List Movement}

theorem sound_empty : Sound empty := by
  intro key position h
  cases h

/-- Binding a key keeps soundness when what it is bound to is sound. -/
theorem Sound.update (h : Sound book) (hvalue : ∀ position ∈ value, SoundPosition position) :
    Sound (book.update key value) :=
  forall_update h hvalue

theorem heldMargin_of_some (h : book key = some position) :
    heldMargin book key = position.margin := by
  rw [heldMargin, h]

theorem heldMargin_update_self :
    heldMargin (book.update key (some position)) key = position.margin :=
  heldMargin_of_some (update_self ..)

theorem heldMargin_update_none : heldMargin (book.update key none) key = 0 := by
  rw [heldMargin, update_self]

theorem Sound.isMoney_heldMargin (h : Sound book) (key : PositionKey) :
    IsMoney (heldMargin book key) := by
  rw [heldMargin]
  cases hkey : book key with
  | none => exact isMoney_zero
  | some position => exact (h key position hkey).margin_money

theorem Sound.heldMargin_nonneg (h : Sound book) (key : PositionKey) : 0 ≤ heldMargin book key := by
  rw [heldMargin]
  cases hkey : book key with
  | none => exact le_rfl
  | some position => exact (h key position hkey).margin_nonneg

/-- A key holds something exactly when the quantity there is positive. -/
theorem Sound.isSome_iff (h : Sound book) (key : PositionKey) :
    (book key).isSome ↔ 0 < heldQuantity book key := by
  rw [heldQuantity]
  cases hkey : book key with
  | none => simp
  | some position => simp [(h key position hkey).quantity_pos]

/-! ### Reductions -/

/-- A reduction releases a part of the margin, never more than there is. -/
theorem releasedBy_le (h : SoundPosition position) {quantity : Decimal}
    (hquantity : quantity ≤ position.quantity) :
    position.releasedBy quantity ≤ position.margin := by
  have hpart : position.margin * quantity / position.quantity ≤ position.margin := by
    rw [div_le_iff₀ h.quantity_pos]
    exact mul_le_mul_of_nonneg_left hquantity h.margin_nonneg
  calc position.releasedBy quantity
      = quantizeAmount (position.margin * quantity / position.quantity) := rfl
    _ ≤ quantizeAmount position.margin := quantizeAmount_mono hpart
    _ = position.margin := h.margin_money.quantizeAmount_eq

/-- A reduction by the whole quantity releases the whole margin, without a residue. -/
theorem releasedBy_self (h : SoundPosition position) :
    position.releasedBy position.quantity = position.margin := by
  have hquantity : position.quantity ≠ 0 := h.quantity_pos.ne'
  rw [Position.releasedBy, mul_div_assoc, div_self hquantity, mul_one,
    h.margin_money.quantizeAmount_eq]

theorem isMoney_releasedBy {quantity : Decimal} : IsMoney (position.releasedBy quantity) :=
  isMoney_quantizeAmount _

/-- The margin a reduction leaves in the record. -/
theorem reducedBy_margin (h : SoundPosition position) {quantity : Decimal} :
    (position.reducedBy quantity).margin = position.margin - position.releasedBy quantity := by
  have hmoney : IsMoney (position.margin - position.releasedBy quantity) :=
    h.margin_money.sub isMoney_releasedBy
  simp only [Position.reducedBy, Position.clearedWhenFlat]
  split <;> exact hmoney.quantizeAmount_eq

/-- **What a reduction does**: it returns the released margin, and the book drops the key
when nothing is left and keeps a sound position with the rest of the margin otherwise. -/
theorem reduce_moves {released : Decimal} (hsound : Sound book)
    (h : reduce fill book = .ok released book') :
    released = releasedFrom book fill ∧ Sound book' ∧
      heldMargin book' (keyOf fill) = heldMargin book (keyOf fill) - released ∧
      (∀ key, key ≠ keyOf fill → book' key = book key) ∧
      (book' (keyOf fill) = none → released = heldMargin book (keyOf fill)) := by
  obtain ⟨-, position, position', hheld, hreduce, rfl⟩ := reduce_eq_ok.1 h
  change book (keyOf fill) = some position at hheld
  have hposition := hsound _ _ hheld
  obtain ⟨hpos, hle, -, rfl, rfl⟩ := Position.reduceQuantity_eq_ok.1 hreduce
  rw [fill.isMoney_quantity.quantizeAmount_eq] at hpos hle ⊢
  have hreleased : releasedFrom book fill = position.releasedBy fill.quantity := by
    simp only [releasedFrom, hheld, fill.isMoney_quantity.quantizeAmount_eq]
  have hleft : IsMoney (position.quantity - fill.quantity) :=
    hposition.quantity_money.sub fill.isMoney_quantity
  -- both quantities lie on the grid, so nothing is rounded
  have hquantity : (position.reducedBy fill.quantity).quantity =
      position.quantity - fill.quantity := by
    rw [Position.reducedBy_quantity, hleft.quantizeAmount_eq]
  -- a position without a quantity is dropped, any other keeps the rest of the margin
  by_cases hflat : (position.reducedBy fill.quantity).quantity = 0
  · rw [if_pos hflat]
    rw [hquantity, sub_eq_zero] at hflat
    have hall : position.releasedBy fill.quantity = position.margin := by
      rw [← hflat, releasedBy_self hposition]
    refine ⟨hreleased.symm, hsound.update (by simp), ?_, ?_, ?_⟩
    · change heldMargin (book.update (keyOf fill) none) (keyOf fill) = _
      rw [heldMargin_update_none, heldMargin_of_some hheld, hall, sub_self]
    · intro key hkey
      exact update_of_ne hkey
    · intro _
      rw [heldMargin_of_some hheld, hall]
  · rw [if_neg hflat]
    rw [hquantity] at hflat
    have hreduced : SoundPosition (position.reducedBy fill.quantity) := {
      margin_money := by
        rw [reducedBy_margin hposition]
        exact hposition.margin_money.sub isMoney_releasedBy
      margin_nonneg := by
        rw [reducedBy_margin hposition]
        linarith [releasedBy_le hposition hle]
      quantity_money := hquantity ▸ hleft
      quantity_pos := by
        rw [hquantity]
        have hne : fill.quantity ≠ position.quantity := fun heq => hflat (by rw [heq, sub_self])
        linarith [lt_of_le_of_ne hle hne] }
    refine ⟨hreleased.symm, hsound.update (by simpa using hreduced), ?_, ?_, ?_⟩
    · change heldMargin (book.update (keyOf fill) _) (keyOf fill) = _
      rw [heldMargin_update_self, heldMargin_of_some hheld, reducedBy_margin hposition]
    · intro key hkey
      exact update_of_ne hkey
    · intro hnone
      change book.update (keyOf fill) _ (keyOf fill) = none at hnone
      rw [update_self] at hnone
      cases hnone

/-- A reduction empties its key exactly when it is by the whole quantity. -/
theorem reduce_flat_iff {released : Decimal} (hsound : Sound book)
    (h : reduce fill book = .ok released book') :
    book' (keyOf fill) = none ↔ fill.quantity = heldQuantity book (keyOf fill) := by
  obtain ⟨-, position, position', hheld, hreduce, rfl⟩ := reduce_eq_ok.1 h
  change book (keyOf fill) = some position at hheld
  obtain ⟨-, -, -, -, rfl⟩ := Position.reduceQuantity_eq_ok.1 hreduce
  have hleft : IsMoney (position.quantity - fill.quantity) :=
    (hsound _ _ hheld).quantity_money.sub fill.isMoney_quantity
  change book.update (keyOf fill) _ (keyOf fill) = none ↔ _
  rw [update_self, heldQuantity, hheld, fill.isMoney_quantity.quantizeAmount_eq,
    Position.reducedBy_quantity, hleft.quantizeAmount_eq]
  by_cases hall : position.quantity = fill.quantity
  · simp [hall]
  · simp [sub_eq_zero, hall, Ne.symm hall]

/-! ### Entries -/

/-- The margin of a fill that increases a position, before it is rounded. -/
def addedMargin (position : Position) (fill : Fill) : Decimal :=
  match position.marketType with
  | .futures => fill.quantity * fill.price / position.leverage
  | .spot => fill.quantity * fill.price

theorem addedMargin_nonneg : 0 ≤ addedMargin position fill := by
  have hnotional : 0 ≤ fill.quantity * fill.price :=
    mul_nonneg fill.quantity_pos.le fill.price_pos.le
  unfold addedMargin
  split
  · exact div_nonneg hnotional (Nat.cast_nonneg _)
  · exact hnotional

/-- **What an increase does**: the added margin is rounded together with the held one. -/
theorem weightedAverage_moves (hsound : Sound book) (h : weightedAverage fill book = .ok ⟨⟩ book') :
    Sound book' ∧ (∀ key, key ≠ keyOf fill → book' key = book key) ∧
      ∃ position, book (keyOf fill) = some position ∧
        heldMargin book' (keyOf fill) =
          quantizeAmount (position.margin + addedMargin position fill) := by
  unfold weightedAverage at h
  simp only [bind_eq_ok, get_bind_apply, raiseUnless_eq_ok, onPosition_eq_ok] at h
  obtain ⟨_, _, ⟨-, rfl⟩, _, _, ⟨-, rfl⟩, position, position', hheld, hrun, rfl⟩ := h
  change book (keyOf fill) = some position at hheld
  have hposition := hsound _ _ hheld
  unfold Position.addQuantity at hrun
  simp only [bind_eq_ok, raiseUnless_eq_ok, modify_apply, Position.checkTotalCost_eq_ok,
    EStateM.Result.ok.injEq] at hrun
  obtain ⟨_, _, ⟨_, _, ⟨-, rfl⟩, _, _, ⟨-, rfl⟩, _, _, ⟨-, rfl⟩, rfl, -⟩, -, rfl⟩ := hrun
  have hquantity : 0 < position.quantity + fill.quantity :=
    add_pos hposition.quantity_pos fill.quantity_pos
  -- the quantities lie on the grid, so only the margin is rounded
  have hsum : IsMoney (position.quantity + fill.quantity) :=
    hposition.quantity_money.add fill.isMoney_quantity
  refine ⟨hsound.update ?_, fun key hkey => update_of_ne hkey, position, hheld, ?_⟩
  · simp only [Option.mem_def, Option.some.injEq, forall_eq']
    exact {
      margin_money := isMoney_quantizeAmount _
      margin_nonneg := quantizeAmount_nonneg
        (add_nonneg hposition.margin_nonneg addedMargin_nonneg)
      quantity_money := isMoney_quantizeAmount _
      quantity_pos := by
        change 0 < quantizeAmount (position.quantity + quantizeAmount fill.quantity)
        rw [fill.isMoney_quantity.quantizeAmount_eq, hsum.quantizeAmount_eq]
        exact hquantity }
  · change heldMargin (book.update (keyOf fill) _) (keyOf fill) = _
    rw [heldMargin_update_self]
    rfl

/-- The margin an increase assigns is the exact margin of the fill up to one rounding. -/
theorem assigned_of_increase (hsound : Sound book) (hheld : book (keyOf fill) = some position)
    (h : weightedAverage fill book = .ok ⟨⟩ book') :
    |assignedBetween book book' (keyOf fill) - addedMargin position fill| ≤ qAmount / 2 := by
  obtain ⟨hsound', -, held, hheld', hmargin⟩ := weightedAverage_moves hsound h
  rw [hheld] at hheld'
  cases hheld'
  have hmoney : IsMoney (heldMargin book' (keyOf fill) - heldMargin book (keyOf fill)) :=
    (hsound'.isMoney_heldMargin _).sub (hsound.isMoney_heldMargin _)
  rw [assignedBetween, hmoney.quantizeAmount_eq, hmargin, heldMargin_of_some hheld]
  have hround := abs_sub_quantizeAmount_le (position.margin + addedMargin position fill)
  rw [abs_sub_comm] at hround
  convert hround using 2
  ring

/-- An entry at a free key opens a sound position. -/
theorem open_moves {leverage : Option ℕ} {marginType : Option MarginType} {marketType : MarketType}
    {liquidationPrice : Decimal} (hsound : Sound book)
    (h : openPosition fill leverage marginType marketType liquidationPrice book = .ok ⟨⟩ book') :
    Sound book' ∧ ∀ key, key ≠ keyOf fill → book' key = book key := by
  unfold openPosition at h
  cases leverage with
  | none => cases h
  | some leverage =>
    cases marginType with
    | none => cases h
    | some marginType =>
      simp only [bind_eq_ok, raiseUnless_eq_ok, runPure_eq_ok, modify_apply,
        EStateM.Result.ok.injEq] at h
      obtain ⟨_, _, ⟨-, rfl⟩, position, _, ⟨hposition, rfl⟩, -, rfl⟩ := h
      obtain ⟨hfields, -, -, hmargin⟩ := Position.postInit_eq_ok hposition
      refine ⟨hsound.update ?_, fun key hkey => update_of_ne hkey⟩
      simp only [Option.mem_def, Option.some.injEq, forall_eq']
      -- an opened position is sound by its own checks
      exact {
        margin_money := by
          rw [hfields]
          exact isMoney_quantizeAmount _
        margin_nonneg := hmargin
        quantity_money := by
          rw [hfields]
          exact isMoney_quantizeAmount _
        quantity_pos := by
          rw [hfields]
          change 0 < quantizeAmount fill.quantity
          rw [fill.isMoney_quantity.quantizeAmount_eq]
          exact fill.quantity_pos }

/-! ### Funding -/

/-- **What funding does**: the applied cost leaves the margin, never more than there is. -/
theorem applyFunding_moves {theoreticalCost maintenanceMarginRate : Decimal}
    {result : FundingMarginResult} (hsound : Sound book)
    (h : applyFunding key theoreticalCost maintenanceMarginRate book = .ok result book') :
    Sound book' ∧ heldMargin book' key = heldMargin book key - result.appliedCost ∧
      ∀ key', key' ≠ key → book' key' = book key' := by
  unfold applyFunding at h
  obtain ⟨position, position', hheld, hcharge, rfl⟩ := onPosition_eq_ok.1 h
  have hposition := hsound _ _ hheld
  obtain ⟨-, -, level, hfields, -, hmargin, happlied, -⟩ := chargeFunding_eq_ok hcharge
  -- a cost is capped by the margin, and both are amounts
  have hcost : IsMoney result.appliedCost := by
    rw [happlied]
    split
    · rcases min_choice (quantizeAmount theoreticalCost) position.margin with hmin | hmin
      · rw [hmin]
        exact isMoney_quantizeAmount _
      · rw [hmin]
        exact hposition.margin_money
    · exact isMoney_quantizeAmount _
  have hleft : IsMoney (position.margin - result.appliedCost) := hposition.margin_money.sub hcost
  have hmargin_eq : position'.margin = position.margin - result.appliedCost := by
    rw [hfields]
    exact hleft.quantizeAmount_eq
  refine ⟨hsound.update ?_, ?_, fun key' hkey => update_of_ne hkey⟩
  · simp only [Option.mem_def, Option.some.injEq, forall_eq']
    exact {
      margin_money := hmargin_eq ▸ hleft
      margin_nonneg := hmargin
      quantity_money := by
        rw [hfields]
        exact hposition.quantity_money
      quantity_pos := by
        rw [hfields]
        exact hposition.quantity_pos }
  · rw [heldMargin_update_self, heldMargin_of_some hheld, hmargin_eq]

/-! ### One call -/

/-- What a call leaves: a sound book whose held margins moved by the reported movement. -/
structure Moves (before : PositionBook) (movement : Movement) (after : PositionBook) : Prop where
  sound : Sound after
  /-- The held margin changes by the movement, at every key. -/
  held : ∀ key, heldMargin after key = heldMargin before key + movement.change key
  /-- A key that a reduction empties had exactly the released margin. -/
  flat : ∀ key amount, movement = .released key amount → after key = none →
    amount = heldMargin before key

/-- An assignment is the difference it makes. -/
theorem Moves.of_assigned (hsound : Sound book) (hsound' : Sound book')
    (hother : ∀ key', key' ≠ key → book' key' = book key') :
    Moves book (.assigned key (assignedBetween book book' key)) book' := by
  have hmoney : IsMoney (heldMargin book' key - heldMargin book key) :=
    (hsound'.isMoney_heldMargin key).sub (hsound.isMoney_heldMargin key)
  refine ⟨hsound', fun key' => ?_, by simp⟩
  by_cases hkey : key' = key
  · subst hkey
    simp only [Movement.change, Movement.key, Movement.assignedAmount, Movement.fundingAmount,
      Movement.releasedAmount, if_true, assignedBetween, hmoney.quantizeAmount_eq]
    ring
  · rw [Movement.change, Movement.key, if_neg hkey, add_zero, heldMargin, heldMargin, hother _ hkey]

/-- A release is what the reduction returns. -/
theorem Moves.of_reduce {released : Decimal} (hsound : Sound book)
    (h : reduce fill book = .ok released book') :
    Moves book (.released (keyOf fill) released) book' := by
  obtain ⟨-, hsound', hheld, hother, hflat⟩ := reduce_moves hsound h
  refine ⟨hsound', fun key => ?_, ?_⟩
  · by_cases hkey : key = keyOf fill
    · subst hkey
      simp only [Movement.change, Movement.key, Movement.assignedAmount, Movement.fundingAmount,
        Movement.releasedAmount, if_true, hheld]
      ring
    · rw [Movement.change, Movement.key, if_neg hkey, add_zero, heldMargin, heldMargin,
        hother _ hkey]
  · rintro key amount heq hnone
    cases heq
    exact hflat hnone

/-- **One call** moves the margin by its movement. -/
theorem perform_moves {operation : Operation} (hsound : Sound book)
    (h : perform operation book = .ok movement book') : Moves book movement book' := by
  cases operation with
  | apply fill leverage marginType marketType liquidationPrice =>
    unfold perform at h
    simp only [get_bind_apply, bind_eq_ok] at h
    obtain ⟨_, after, hrun, h⟩ := h
    by_cases hreduce : fill.reduceOnly = true
    · rw [if_pos hreduce] at h
      cases h
      obtain ⟨released, hreleased⟩ := (apply_of_reduceOnly hreduce).1 hrun
      obtain ⟨rfl, -⟩ := reduce_moves hsound hreleased
      exact Moves.of_reduce hsound hreleased
    · rw [if_neg hreduce] at h
      cases h
      unfold apply at hrun
      simp only [get_bind_apply, hreduce, Bool.false_eq_true, if_false] at hrun
      -- an entry fill increases the position it finds and opens one otherwise
      split at hrun
      · obtain ⟨hsound', hother, -⟩ := weightedAverage_moves hsound hrun
        exact Moves.of_assigned hsound hsound' hother
      · obtain ⟨hsound', hother⟩ := open_moves hsound hrun
        exact Moves.of_assigned hsound hsound' hother
  | weightedAverage fill =>
    unfold perform at h
    simp only [get_bind_apply, bind_eq_ok, pure_apply, EStateM.Result.ok.injEq] at h
    obtain ⟨_, after, hrun, rfl, rfl⟩ := h
    obtain ⟨hsound', hother, -⟩ := weightedAverage_moves hsound hrun
    exact Moves.of_assigned hsound hsound' hother
  | reduce fill =>
    unfold perform at h
    simp only [bind_eq_ok, pure_apply, EStateM.Result.ok.injEq] at h
    obtain ⟨released, _, hrun, rfl, rfl⟩ := h
    exact Moves.of_reduce hsound hrun
  | applyFunding key theoreticalCost maintenanceMarginRate =>
    unfold perform at h
    simp only [bind_eq_ok, pure_apply, EStateM.Result.ok.injEq] at h
    obtain ⟨result, _, hrun, rfl, rfl⟩ := h
    obtain ⟨hsound', hheld, hother⟩ := applyFunding_moves hsound hrun
    refine ⟨hsound', fun key' => ?_, by simp⟩
    by_cases hkey : key' = key
    · subst hkey
      simp only [Movement.change, Movement.key, Movement.assignedAmount, Movement.fundingAmount,
        Movement.releasedAmount, if_true, hheld]
      ring
    · rw [Movement.change, Movement.key, if_neg hkey, add_zero, heldMargin, heldMargin,
        hother _ hkey]

/-! ### Any number of calls -/

theorem sumAt_cons (amount : Movement → Decimal) :
    sumAt amount (movement :: movements) key =
      (if key = movement.key then amount movement else 0) + sumAt amount movements key := by
  rw [sumAt, sumAt, List.filter_cons]
  by_cases hkey : key = movement.key
  · simp [hkey]
  · simp [hkey, Ne.symm hkey]

/-- The amounts at the keys of some movements add up to the amount of all of them. -/
theorem sum_sumAt {keys : Finset PositionKey} (amount : Movement → Decimal)
    (h : ∀ movement ∈ movements, movement.key ∈ keys) :
    ∑ key ∈ keys, sumAt amount movements key = sumOf amount movements := by
  induction movements with
  | nil => simp [sumAt, sumOf]
  | cons movement movements ih =>
    have hrest := ih fun other hother => h other (List.mem_cons_of_mem _ hother)
    have hmem : movement.key ∈ keys := h movement List.mem_cons_self
    simp only [sumAt_cons, Finset.sum_add_distrib, hrest, sumOf, List.map_cons, List.sum_cons,
      Finset.sum_ite_eq', hmem, if_true]

/-- Calls keep the book sound, and the held margins move by the sums of their movements. -/
theorem performAll_moves {operations : List Operation} (hsound : Sound book)
    (h : performAll operations book = .ok movements book') :
    Sound book' ∧ ∀ key, heldMargin book' key = heldMargin book key +
      (sumAt Movement.assignedAmount movements key + sumAt Movement.fundingAmount movements key -
        sumAt Movement.releasedAmount movements key) := by
  induction operations generalizing book movements with
  | nil =>
    cases h
    exact ⟨hsound, fun key => by simp [sumAt]⟩
  | cons operation rest ih =>
    unfold performAll at h
    simp only [bind_eq_ok, pure_apply, EStateM.Result.ok.injEq] at h
    obtain ⟨movement, book₁, hfirst, movements', _, hrest, rfl, rfl⟩ := h
    have hmoves := perform_moves hsound hfirst
    obtain ⟨hsound', hheld⟩ := ih hmoves.sound hrest
    refine ⟨hsound', fun key => ?_⟩
    rw [hheld, hmoves.held, sumAt_cons, sumAt_cons, sumAt_cons, Movement.change]
    -- a movement counts for its own key only
    by_cases hkey : key = movement.key
    · simp only [if_pos hkey]
      ring
    · simp only [if_neg hkey]
      ring

/-- **Margin is conserved**: key by key and over the whole book, what was released and what
is held is what was assigned and what funding added. Held margins are not negative, a key
holds something exactly when its quantity is positive. A reduction leaves nothing exactly
when it is by the whole quantity, and then it releases all of the margin. -/
structure Conserved (movements : List Movement) (book : PositionBook) : Prop where
  perKey : ∀ key, sumAt Movement.releasedAmount movements key + heldMargin book key =
    sumAt Movement.assignedAmount movements key + sumAt Movement.fundingAmount movements key
  total : sumOf Movement.releasedAmount movements + totalHeld book movements =
    sumOf Movement.assignedAmount movements + sumOf Movement.fundingAmount movements
  held_nonneg : ∀ key, 0 ≤ heldMargin book key
  isSome_iff : ∀ key, (book key).isSome ↔ 0 < heldQuantity book key
  flat_iff : ∀ fill released book', reduce fill book = .ok released book' →
    (book' (keyOf fill) = none ↔ fill.quantity = heldQuantity book (keyOf fill))
  flat_releases_all : ∀ operation key amount book',
    perform operation book = .ok (.released key amount) book' → book' key = none →
      amount = heldMargin book key

theorem isMoney_natCast (n : ℕ) : IsMoney (n : Decimal) :=
  ⟨n * 100000000, by push_cast [qAmount]; ring⟩

/-- A fill of some whole units at a whole price, without costs. -/
def wholeFill (reduceOnly : Bool) (units price : ℕ) (hunits : 0 < units) (hprice : 0 < price) :
    Fill where
  orderId := .broker 1
  symbol := "BTCUSDT"
  side := if reduceOnly then .sell else .buy
  positionSide := .long
  referencePrice := price
  price := price
  quantity := units
  fee := 0
  slippage := 0
  timestamp := 0
  reduceOnly := reduceOnly
  exitReason := none
  gapFilled := false
  qtyTruncated := false
  isMoney_referencePrice := isMoney_natCast price
  isMoney_price := isMoney_natCast price
  isMoney_quantity := isMoney_natCast units
  isMoney_fee := isMoney_zero
  isMoney_slippage := isMoney_zero
  referencePrice_pos := Nat.cast_pos.2 hprice
  price_pos := Nat.cast_pos.2 hprice
  quantity_pos := Nat.cast_pos.2 hunits
  fee_nonneg := le_refl 0
  slippage_nonneg := le_refl 0

/-- Open three units at leverage three, add four, charge funding, release three and then
the rest. -/
def roundTrip : List Operation :=
  [ .apply (wholeFill false 3 10 (Nat.succ_pos _) (Nat.succ_pos _)) (some 3) (some .isolated)
      .futures 0,
    .apply (wholeFill false 4 10 (Nat.succ_pos _) (Nat.succ_pos _)) none none .futures 0,
    .applyFunding ("BTCUSDT", .long) (1 / 3) (1 / 100),
    .reduce (wholeFill true 3 11 (Nat.succ_pos _) (Nat.succ_pos _)),
    .apply (wholeFill true 4 9 (Nat.succ_pos _) (Nat.succ_pos _)) none none .futures 0 ]

end PositionBook
end TradingSystem
