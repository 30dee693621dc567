import TradingSystem.Types.Order
import TradingSystem.Logic.Frame

/-!
# The lifecycle of an order

An order that its constructor accepts is `Consistent`, and every call of a `mark_as_*` method
either raises and leaves the order alone or `Advances` it: one step along `VALID_TRANSITIONS`
to an order that is consistent again and has not lost a fill.

* `Call.perform_cases` — the two outcomes of a call on a consistent order.
* `orderLifecycle` — what this means for any number of calls.
-/

namespace TradingSystem
namespace Order

open Logic

variable {order order' : Order}

/-- A call of one of the three methods, with its arguments. -/
inductive Call
  | markAsFilled (filledQuantity averagePrice : Decimal)
  | markAsPartiallyFilled (filledQuantity averagePrice : Decimal)
  | markAsCancelled

def Call.perform : Call → Program Fault Order PUnit
  | .markAsFilled filledQuantity averagePrice =>
    Order.markAsFilled filledQuantity averagePrice
  | .markAsPartiallyFilled filledQuantity averagePrice =>
    Order.markAsPartiallyFilled filledQuantity averagePrice
  | .markAsCancelled => Order.markAsCancelled

/-- The order after some calls. A call that raises is caught by whoever made it. -/
def after (order : Order) (calls : List Call) : Order :=
  calls.foldl (fun order call => finalState (call.perform order)) order

/-! ### Consistent orders -/

/-- **What the constructor checks** of the fills of an order. -/
structure Consistent (order : Order) : Prop where
  quantity_pos : 0 < order.quantity
  filled_nonneg : 0 ≤ order.filledQuantity
  filled_le : order.filledQuantity ≤ order.quantity
  fillStatus : order.validateFillStatus = .ok ()

theorem validateFillStatus_eq_ok : order.validateFillStatus = .ok () ↔
    (order.filledQuantity = 0 → order.averageFilledPrice = none) ∧
      (order.filledQuantity ≠ 0 → ∃ price ∈ order.averageFilledPrice, 0 < price) ∧
      (order.status = .partiallyFilled →
        0 < order.filledQuantity ∧ order.filledQuantity < order.quantity) ∧
      (order.status = .filled → order.filledQuantity = order.quantity) ∧
      (order.status ≠ .filled → order.filledQuantity ≠ order.quantity) ∧
      (order.status ∈ [OrderStatus.new, .expired, .rejected] → order.filledQuantity = 0) := by
  simp only [validateFillStatus, Except.bind_eq_ok, require_eq_ok, exists_const]

theorem consistent_of_postInit (h : order.postInit = .ok order') : Consistent order' := by
  simp only [postInit, Except.bind_eq_ok, require_eq_ok] at h
  obtain ⟨-, hquantity, -, hfilled, -, hle, -, -, -, -, ⟨⟩, hstatus, h⟩ := h
  cases h
  exact ⟨hquantity, hfilled, hle, hstatus⟩

/-- The order once a fill is recorded. -/
def recorded (order : Order) (status : OrderStatus) (quantity price : Decimal) : Order :=
  { order with status := status, filledQuantity := quantity, averageFilledPrice := some price }

/-- A full fill is consistent. -/
theorem Consistent.recorded_filled {price : Decimal} (h : Consistent order) (hprice : 0 < price) :
    Consistent (order.recorded .filled order.quantity price) where
  quantity_pos := h.quantity_pos
  filled_nonneg := h.quantity_pos.le
  filled_le := le_rfl
  fillStatus := by
    refine validateFillStatus_eq_ok.2 ⟨?_, fun _ => ⟨price, rfl, hprice⟩, nofun, fun _ => rfl,
      fun hstatus => absurd rfl hstatus, fun hstatus => ?_⟩
    · intro hzero
      exact absurd hzero h.quantity_pos.ne'
    · exact absurd hstatus (show OrderStatus.filled ∉ _ by decide)

/-- A partial fill is consistent. -/
theorem Consistent.recorded_partiallyFilled {quantity price : Decimal} (h : Consistent order)
    (hpos : 0 < quantity) (hlt : quantity < order.quantity) (hprice : 0 < price) :
    Consistent (order.recorded .partiallyFilled quantity price) where
  quantity_pos := h.quantity_pos
  filled_nonneg := hpos.le
  filled_le := hlt.le
  fillStatus := by
    refine validateFillStatus_eq_ok.2 ⟨fun hzero => absurd hzero hpos.ne',
      fun _ => ⟨price, rfl, hprice⟩, fun _ => ⟨hpos, hlt⟩, nofun, fun _ => hlt.ne,
      fun hstatus => ?_⟩
    exact absurd hstatus (show OrderStatus.partiallyFilled ∉ _ by decide)

/-- A cancelled order keeps its fills. -/
theorem Consistent.cancelled (h : Consistent order)
    (hstatus : OrderStatus.cancelled ∈ order.status.validTransitions) :
    Consistent { order with status := .cancelled } where
  quantity_pos := h.quantity_pos
  filled_nonneg := h.filled_nonneg
  filled_le := h.filled_le
  fillStatus := by
    obtain ⟨hzero, hprice, -, -, hfull, -⟩ := validateFillStatus_eq_ok.1 h.fillStatus
    -- a filled order has no transition
    have hopen : order.status ≠ .filled := by
      intro hfilled
      rw [hfilled] at hstatus
      cases hstatus
    exact validateFillStatus_eq_ok.2 ⟨hzero, hprice, nofun, nofun, fun _ => hfull hopen, fun hnew =>
      absurd hnew (show OrderStatus.cancelled ∉ _ by decide)⟩

/-! ### Calls -/

/-- One step along `VALID_TRANSITIONS` that loses no fill. -/
structure Advances (order order' : Order) : Prop where
  transition : order'.status ∈ order.status.validTransitions
  quantity_eq : order'.quantity = order.quantity
  filled_le : order.filledQuantity ≤ order'.filledQuantity
  consistent : Consistent order'

theorem transitionTo_apply (order : Order) (target : OrderStatus) :
    transitionTo target order =
      if target ∈ order.status.validTransitions then .ok ⟨⟩ { order with status := target }
      else .error (.valueError ("invalid order status transition: " ++ order.status.value ++
        " -> " ++ target.value)) order := by
  unfold transitionTo
  rw [get_bind_apply]
  unfold raiseUnless
  split <;> rfl

/-- **The end of a fill**: the transition, the two fields, the check of the result. -/
theorem record_cases {target : OrderStatus} {quantity price : Decimal}
    (hle : order.filledQuantity ≤ quantity)
    (hrecorded : Consistent (order.recorded target quantity price)) :
    let outcome := (transitionTo target >>= fun _ =>
      (modify fun order => { order with
        filledQuantity := quantity
        averageFilledPrice := some price }) >>= fun _ => checkFillStatus) order
    (∃ fault, outcome = .error fault order) ∨
      ∃ order', outcome = .ok ⟨⟩ order' ∧ Advances order order' := by
  intro outcome
  by_cases htarget : target ∈ order.status.validTransitions
  · right
    refine ⟨order.recorded target quantity price, ?_, htarget, rfl, hle, hrecorded⟩
    have htransition := (transitionTo_apply order target).trans (if_pos htarget)
    change (transitionTo target >>= _) order = _
    rw [bind_apply_of_ok htransition, modify_bind_apply]
    change runPure (order.recorded target quantity price).validateFillStatus _ = _
    rw [hrecorded.fillStatus]
    rfl
  · left
    have htransition := (transitionTo_apply order target).trans (if_neg htarget)
    exact ⟨_, bind_apply_of_error htransition⟩

/-- A guard that fails leaves the state alone. -/
theorem raiseUnless_bind_cases {condition : Prop} [Decidable condition] {fault : Fault}
    {m : PUnit → Program Fault Order PUnit}
    (h : condition → (∃ fault, m ⟨⟩ order = .error fault order) ∨
      ∃ order', m ⟨⟩ order = .ok ⟨⟩ order' ∧ Advances order order') :
    (∃ fault', (raiseUnless condition fault >>= m) order = .error fault' order) ∨
      ∃ order', (raiseUnless condition fault >>= m) order = .ok ⟨⟩ order' ∧
        Advances order order' := by
  by_cases hcondition : condition
  · rw [raiseUnless_bind_apply hcondition]
    exact h hcondition
  · exact Or.inl ⟨fault, raiseUnless_bind_apply_of_not hcondition⟩

/-- **A call on a consistent order** raises and changes nothing, or advances it. -/
theorem Call.perform_cases (h : Consistent order) (call : Call) :
    (∃ fault, call.perform order = .error fault order) ∨
      ∃ order', call.perform order = .ok ⟨⟩ order' ∧ Advances order order' := by
  -- each call checks before it changes anything, so a raise leaves the order
  cases call with
  | markAsFilled filledQuantity averagePrice =>
    change (∃ fault, Order.markAsFilled filledQuantity averagePrice order = _) ∨ ∃ order',
      Order.markAsFilled filledQuantity averagePrice order = _ ∧ _
    unfold Order.markAsFilled
    rw [get_bind_apply]
    refine raiseUnless_bind_cases fun hfull => raiseUnless_bind_cases fun hle =>
      raiseUnless_bind_cases fun hprice => record_cases hle ?_
    rw [hfull]
    exact h.recorded_filled hprice
  | markAsPartiallyFilled filledQuantity averagePrice =>
    change (∃ fault, Order.markAsPartiallyFilled filledQuantity averagePrice order = _) ∨
      ∃ order', Order.markAsPartiallyFilled filledQuantity averagePrice order = _ ∧ _
    unfold Order.markAsPartiallyFilled
    rw [get_bind_apply]
    exact raiseUnless_bind_cases fun hpartial => raiseUnless_bind_cases fun hle =>
      raiseUnless_bind_cases fun hprice =>
        record_cases hle (h.recorded_partiallyFilled hpartial.1 hpartial.2 hprice)
  | markAsCancelled =>
    change (∃ fault, Order.markAsCancelled order = _) ∨ ∃ order',
      Order.markAsCancelled order = _ ∧ _
    unfold Order.markAsCancelled
    by_cases htarget : OrderStatus.cancelled ∈ order.status.validTransitions
    · have hcancelled := h.cancelled htarget
      have htransition :=
        (transitionTo_apply order .cancelled).trans (if_pos htarget)
      refine Or.inr ⟨{ order with status := .cancelled }, ?_, htarget, rfl, le_rfl, hcancelled⟩
      rw [bind_apply_of_ok htransition]
      change runPure ({ order with status := .cancelled } : Order).validateFillStatus _ = _
      rw [hcancelled.fillStatus]
      rfl
    · have htransition :=
        (transitionTo_apply order .cancelled).trans (if_neg htarget)
      exact Or.inl ⟨_, bind_apply_of_error htransition⟩

/-! ### Any number of calls -/

theorem after_append (order : Order) (calls : List Call) (call : Call) :
    order.after (calls ++ [call]) = finalState (call.perform (order.after calls)) :=
  List.foldl_concat ..

/-- Calls keep an order consistent, its quantity, and every fill. -/
theorem Consistent.after (h : Consistent order) (calls : List Call) :
    Consistent (order.after calls) ∧ (order.after calls).quantity = order.quantity ∧
      order.filledQuantity ≤ (order.after calls).filledQuantity := by
  induction calls using List.reverseRecOn with
  | nil => exact ⟨h, rfl, le_rfl⟩
  | append_singleton calls call ih =>
    obtain ⟨hconsistent, hquantity, hfilled⟩ := ih
    rw [after_append]
    obtain ⟨fault, hraise⟩ | ⟨order', hreturn, hadvances⟩ := call.perform_cases hconsistent
    · rw [hraise]
      exact ⟨hconsistent, hquantity, hfilled⟩
    · rw [hreturn]
      exact ⟨hadvances.consistent, hadvances.quantity_eq.trans hquantity,
        hfilled.trans hadvances.filled_le⟩

/-- **A terminal status is absorbing**: no call returns, and none changes the order. -/
theorem Consistent.after_of_terminal (h : Consistent order)
    (hterminal : order.status.validTransitions = []) (calls : List Call) :
    order.after calls = order := by
  induction calls using List.reverseRecOn with
  | nil => rfl
  | append_singleton calls call ih =>
    rw [after_append, ih]
    obtain ⟨fault, hraise⟩ | ⟨order', -, hadvances⟩ := call.perform_cases h
    · rw [hraise]
      rfl
    · have htransition := hadvances.transition
      rw [hterminal] at htransition
      cases htransition

/-- **What a call may do** to an order at any point of its life. -/
structure Lawful (order : Order) (call : Call) : Prop where
  /-- the status stays, or moves along `VALID_TRANSITIONS` -/
  transition : ∀ order', call.perform order = .ok ⟨⟩ order' →
    order'.status ∈ order.status.validTransitions
  /-- a terminal order refuses the call, and any number of calls -/
  absorbing : order.status.validTransitions = [] →
    (∃ fault, call.perform order = .error fault order) ∧
      ∀ calls, order.after calls = order
  /-- the filled quantity does not decrease and stays within the quantity of the order -/
  filled : order.filledQuantity ≤ (finalState (call.perform order)).filledQuantity ∧
    (finalState (call.perform order)).filledQuantity ≤ order.quantity ∧
      (finalState (call.perform order)).quantity = order.quantity
  /-- what a successful call leaves passes the checks of the class -/
  consistent : ∀ order', call.perform order = .ok ⟨⟩ order' → Consistent order'
  /-- a call that raises changes nothing -/
  unchanged : ∀ fault order', call.perform order = .error fault order' → order' = order

theorem Consistent.lawful (h : Consistent order) (call : Call) : Lawful order call := by
  -- one half for the calls that raise, one for those that return
  obtain ⟨fault, hraise⟩ | ⟨order', hreturn, hadvances⟩ := call.perform_cases h
  · refine ⟨?_, fun hterminal => ⟨⟨fault, hraise⟩, h.after_of_terminal hterminal⟩, ?_, ?_, ?_⟩
    · intro order' hreturn
      rw [hraise] at hreturn
      cases hreturn
    · rw [hraise]
      exact ⟨le_rfl, h.filled_le, rfl⟩
    · intro order' hreturn
      rw [hraise] at hreturn
      cases hreturn
    · intro fault' order' hraise'
      rw [hraise] at hraise'
      cases hraise'
      rfl
  · refine ⟨?_, fun hterminal => ?_, ?_, ?_, ?_⟩
    · intro order'' hreturn'
      rw [hreturn] at hreturn'
      cases hreturn'
      exact hadvances.transition
    · have htransition := hadvances.transition
      rw [hterminal] at htransition
      cases htransition
    · rw [hreturn]
      refine ⟨hadvances.filled_le, ?_, hadvances.quantity_eq⟩
      rw [← hadvances.quantity_eq]
      exact hadvances.consistent.filled_le
    · intro order'' hreturn'
      rw [hreturn] at hreturn'
      cases hreturn'
      exact hadvances.consistent
    · intro fault order'' hraise
      rw [hreturn] at hraise
      cases hraise

/-- **The lifecycle of an order.** After any calls on an order that the constructor accepted,
every further call is lawful: the status moves along `VALID_TRANSITIONS`, a terminal order refuses
everything, what is filled only grows, up to the quantity, and a call that raises changes nothing.
-/
theorem orderLifecycle {raw order : Order} (h : raw.postInit = .ok order) (calls : List Call)
    (call : Call) : Lawful (order.after calls) call :=
  ((consistent_of_postInit h).after calls).1.lawful call

/-- An order for ten units. -/
def tenUnits : Order where
  id := .broker 1
  orderType := .market
  side := .buy
  symbol := "BTCUSDT"
  quantity := 10
  price := none
  filledQuantity := 0
  averageFilledPrice := none
  status := .new
  fee := 0
  marketType := .futures
  positionSide := .long
  reduceOnly := false
  closePosition := false
  stopPrice := none

theorem postInit_tenUnits : tenUnits.postInit = .ok tenUnits := by decide +kernel

/-- A partial fill, a smaller one that is refused, and a cancellation. -/
theorem lawful_of_partial_fill :
    Lawful (tenUnits.after [.markAsPartiallyFilled 4 100, .markAsPartiallyFilled 3 100])
      .markAsCancelled :=
  orderLifecycle postInit_tenUnits _ _

end Order
end TradingSystem
