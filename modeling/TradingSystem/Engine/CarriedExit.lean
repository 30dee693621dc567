import TradingSystem.Engine.RunCoherence

/-!
# Carried exits

An exit that a bar decides on is executed at the open of the next. Until then nothing touches
the position it was created for: no gap is crossed with an order waiting, the boundary at the
open has been settled at the close before, and the exit is the first order to be executed. What
can go wrong is its quantity, which has passed through a float.

* `waiting_exit` — a waiting exit is the first of the queue, for the position that is open.
* `settleAtBoundary_of_waiting`, `betweenBars_of_waiting` — nothing happens before it is executed.
* `carriedExit_iff` — the position can be reduced by the fill of the exit exactly when the float
  of its quantity is not above it.
-/

namespace TradingSystem

open Numeric Logic

namespace Engine

variable {input : RunInput} {state : RunState} {pending : PendingOrder} {position : Position}
  {s s' : EngineState} {fill : Fill} {bar : Bar}

/-! ### The way to the open -/

/-- A waiting exit is the first order of its queue and closes the position that is held. -/
theorem IsQueue.exit_first {candle : Candle} {held : Option Position} {orders : List PendingOrder}
    (h : IsQueue input candle held orders) (hpending : pending ∈ orders)
    (hreduce : pending.request.reduceOnly = true) :
    ∃ position rest, held = some position ∧ IsExitOf position pending ∧
      orders = pending :: rest := by
  -- an entry never reduces, so the pending order is none
  have hentry : ∀ {entry : PendingOrder} {signal : TradingSignal} {side : PositionSide}
      {quantity : Binary64}, IsEntryOf signal side quantity entry → entry ≠ pending := by
    rintro entry signal side quantity hisEntry rfl
    rw [(entryRequest_eq_ok.1 hisEntry.request_eq).2] at hreduce
    cases hreduce
  cases h with
  | nothing => cases hpending
  | exit _ hexit =>
    rw [List.mem_singleton] at hpending
    subst hpending
    exact ⟨_, [], rfl, hexit, rfl⟩
  | entry _ hisEntry =>
    rw [List.mem_singleton] at hpending
    exact absurd hpending.symm (hentry hisEntry)
  | reverse _ hexit _ hisEntry _ =>
    rcases List.mem_cons.1 hpending with rfl | hpending
    · exact ⟨_, _, rfl, hexit, rfl⟩
    · rw [List.mem_singleton] at hpending
      exact absurd hpending.symm (hentry hisEntry)

/-- No gap is crossed while an order waits. -/
theorem betweenBars_of_waiting {candle next : Candle} (hpending : pending ∈ s.pending)
    (h : betweenBars input candle next s = .ok ⟨⟩ s') : s' = s := by
  unfold betweenBars at h
  split at h
  · obtain ⟨held, hempty, -⟩ := closeAtDataGap_eq_ok h
    rw [hempty] at hpending
    cases hpending
  · cases h
    rfl

/-- The boundary at the open of a bar that starts with an order has been settled before. -/
theorem settleAtBoundary_of_waiting (h : Inv input False (.beforeOpen bar, s))
    (hpending : pending ∈ s.pending)
    (hrun : settleAtBoundary input bar.candle.openTime s = .ok ⟨⟩ s') : s' = s := by
  obtain ⟨held, -, -, -, hempty | ⟨prev, -, -, hsettled⟩⟩ := h
  · change s.pending = [] at hempty
    rw [hempty] at hpending
    cases hpending
  · exact settleAtBoundary_settled hsettled hrun

/-! ### The fill of an exit -/

/-- An exit has no risk budget, and its fill has the quantity that the float gives back. -/
theorem matchPending_exit (hopen : IsOpen input position)
    (hexit : exitRequest position = .ok pending.request)
    (h : matchPending input pending s = .ok fill s') :
    fill.quantity = exitQuantity position.quantity := by
  have hreduce : pending.request.reduceOnly = true := by
    rw [exitRequest_eq_ok hexit]
  unfold matchPending at h
  simp only [bind_eq_ok, get_bind_apply, pure_apply, EStateM.Result.ok.injEq] at h
  obtain ⟨budget, s₀, hbudget, fill', s₁, hsubmit, rfl, -⟩ := h
  have hnone : budget = none := by
    unfold riskBudget at hbudget
    rw [hreduce] at hbudget
    cases hsizing : input.config.sizing <;> rw [hsizing] at hbudget <;> cases hbudget <;> rfl
  obtain ⟨sequence, hfill, -⟩ := submit_eq_ok hsubmit
  obtain ⟨execution, -, -, -, hquantity⟩ := submitOrder_exit hopen.quantity_money
    hopen.quantity_pos hnone hexit hfill
  exact hquantity

/-- The fill is for more than the position: reducing it raises. -/
def Overdraws (position : Position) (fill : Fill) : Prop :=
  ∃ position', Position.reduceQuantity fill.quantity position =
    .error (.valueError "cannot reduce more than the position quantity") position'

/-- The check of the total cost raises a fault of its own. -/
theorem checkTotalCost_fault {position' : Position} {fault : Fault}
    (h : Position.checkTotalCost position = .error fault position') :
    fault ≠ .valueError "cannot reduce more than the position quantity" := by
  unfold Position.checkTotalCost Position.validateTotalCost at h
  rw [get_bind_apply, runPure_eq_error, require_eq_error] at h
  obtain ⟨⟨-, hfault⟩, -⟩ := h
  rw [hfault]
  simp

theorem overdraws_iff : Overdraws position fill ↔ position.quantity < fill.quantity := by
  have hquantity : quantizeAmount fill.quantity = fill.quantity :=
    fill.isMoney_quantity.quantizeAmount_eq
  have hpos : 0 < quantizeAmount fill.quantity := hquantity.symm ▸ fill.quantity_pos
  unfold Overdraws Position.reduceQuantity
  constructor
  · rintro ⟨position', hraised⟩
    rw [get_bind_apply] at hraised
    by_contra hle
    -- each check of the reduction in turn: only the second can have raised
    rcases bind_eq_error.1 hraised with hfirst | ⟨_, _, -, hraised⟩
    · rw [raiseUnless_eq_error] at hfirst
      exact hfirst.1 hpos
    rcases bind_eq_error.1 hraised with hsecond | ⟨_, _, -, hraised⟩
    · rw [raiseUnless_eq_error, hquantity] at hsecond
      exact hsecond.1 (not_lt.1 hle)
    rw [set_bind_apply] at hraised
    rcases bind_eq_error.1 hraised with hcost | ⟨_, _, -, hreturned⟩
    · exact checkTotalCost_fault hcost rfl
    · cases hreturned
  · intro hlt
    refine ⟨position, ?_⟩
    rw [get_bind_apply, bind_eq_error]
    refine Or.inr ⟨⟨⟩, position, raiseUnless_eq_ok.2 ⟨hpos, rfl⟩, ?_⟩
    rw [bind_eq_error]
    exact Or.inl (raiseUnless_eq_error.2 ⟨by rw [hquantity]; exact not_le.2 hlt, rfl, rfl⟩)

/-! ### Where orders wait -/

/-- The phases at which orders wait for the next open. -/
def OrdersWait : Phase → Prop
  | .afterClose _ => True
  | .beforeOpen _ => True
  | _ => False

/-- **An intact exit**: it is the first order of the queue, and the position it was created for
is open, with its trade. -/
structure ExitIntact (input : RunInput) (pending : PendingOrder) (position : Position)
    (s : EngineState) : Prop where
  held : positionOf input s.book = .ok (some position)
  isActive : s.activeTrade.isSome
  /-- Symbol, side and quantity of the order are those of the position. -/
  request_eq : exitRequest position = .ok pending.request
  first : s.pending.head? = some pending

theorem exitIntact_of_queue {candle : Candle} {held : Option Position}
    (hcoherent : Coherent input False held s) (hqueue : IsQueue input candle held s.pending)
    (hpending : pending ∈ s.pending) (hreduce : pending.request.reduceOnly = true) :
    ∃ position, ExitIntact input pending position s ∧ IsOpen input position := by
  obtain ⟨position, rest, rfl, hexit, hfirst⟩ := hqueue.exit_first hpending hreduce
  refine ⟨position, ⟨hcoherent.files.positionOf_eq, ?_, hexit.request_eq, ?_⟩,
    hcoherent.isOpen position rfl⟩
  · rw [hcoherent.activeTrade_isSome]
    rfl
  · rw [hfirst]
    rfl

/-- Where orders wait, a waiting exit is intact. -/
theorem exitIntact_of_inv (h : Inv input False state) (hphase : OrdersWait state.1)
    (hpending : pending ∈ state.2.pending) (hreduce : pending.request.reduceOnly = true) :
    ∃ position, ExitIntact input pending position state.2 ∧ IsOpen input position := by
  obtain ⟨phase, s⟩ := state
  obtain ⟨held, hcoherent, hat⟩ := h
  cases phase with
  | beforeOpen bar =>
    obtain ⟨-, -, hempty | ⟨prev, -, hqueue, -⟩⟩ := hat
    · change pending ∈ s.pending at hpending
      rw [hempty] at hpending
      cases hpending
    · exact exitIntact_of_queue hcoherent hqueue hpending hreduce
  | afterClose bar => exact exitIntact_of_queue hcoherent hat.2.2.2 hpending hreduce
  | carrying bar orders => cases hphase
  | settling bar boundaries => cases hphase
  | protecting bar => cases hphase
  | beforeClose bar => cases hphase
  | finished => cases hphase

/-! ### An exit for more than the position -/

theorem hundred_thousand_pos : (0 : Decimal) < 100000 := by norm_num

theorem overdrawn_capital_pos : (0 : Decimal) < 6710886400 + 38 / 1000000 := by norm_num

/-- Enter at the first bar, leave at the second. The risk budget caps the entry at
67108864.00000038 units. -/
def overdrawnRun : RunInput :=
  twoDollarRun (6710886400 + 38 / 1000000) (Binary64.ofRat 70000000) overdrawn_capital_pos

/-- A bar starts with an exit whose fill compares with the position as asked. -/
def startsWithExit (input : RunInput) (compare : Decimal → Decimal → Bool) (state : RunState) :
    Bool :=
  match state.1, state.2.pending, positionOf input state.2.book with
  | .beforeOpen _, [pending], .ok (some position) => pending.request.reduceOnly &&
      endsWith (matchPending input pending { state.2 with pending := [] }) fun fill _ =>
        compare position.quantity fill.quantity
  | _, _, _ => false

theorem exists_of_startsWithExit {compare : Decimal → Decimal → Bool}
    (h : startsWithExit input compare state = true) : ∃ pending position fill s',
      OrdersWait state.1 ∧ pending ∈ state.2.pending ∧ pending.request.reduceOnly = true ∧
        positionOf input state.2.book = .ok (some position) ∧
        matchPending input pending { state.2 with pending := [] } = .ok fill s' ∧
        compare position.quantity fill.quantity = true := by
  unfold startsWithExit at h
  split at h
  · next bar pending position hphase hpending hposition =>
    rw [Bool.and_eq_true] at h
    obtain ⟨hreduce, hfill⟩ := h
    obtain ⟨fill, s', hmatch, hcompare⟩ := exists_of_endsWith hfill
    refine ⟨pending, position, fill, s', ?_, ?_, hreduce, hposition, hmatch, hcompare⟩
    · rw [hphase]
      trivial
    · rw [hpending]
      exact List.mem_singleton_self pending
  · cases h

theorem overdrawnRun_startsWithExit :
    (simulated overdrawnRun (fun _ => true) 13).any
      (startsWithExit overdrawnRun fun held filled => decide (held < filled)) = true := by
  decide +kernel

/-- The run over a hundred units. -/
def hundredRun : RunInput :=
  twoDollarRun 100000 (Binary64.ofRat 100) hundred_thousand_pos

theorem hundredRun_startsWithExit :
    (simulated hundredRun (fun _ => true) 13).any
      (startsWithExit hundredRun fun held filled => decide (filled = held)) = true := by
  decide +kernel

/-! ### Every waiting exit of a run -/

/-- **A carried exit.** From the close that queues an exit to its execution, the position it was
created for is open and nothing changes it; and its fill overdraws the position exactly when
the float of the quantity is above it. -/
theorem carriedExit_iff (h : (system input).Reachable state) (hphase : OrdersWait state.1)
    (hpending : pending ∈ state.2.pending) (hreduce : pending.request.reduceOnly = true) :
    ∃ position, ExitIntact input pending position state.2 ∧
      (∀ candle next s', betweenBars input candle next state.2 = .ok ⟨⟩ s' → s' = state.2) ∧
      (∀ bar s', state.1 = .beforeOpen bar →
        settleAtBoundary input bar.candle.openTime state.2 = .ok ⟨⟩ s' → s' = state.2) ∧
      ∀ fill s', matchPending input pending { state.2 with pending := [] } = .ok fill s' →
        (¬Overdraws position fill ↔ exitQuantity position.quantity ≤ position.quantity) := by
  have hinv := inv_of_reachable h
  obtain ⟨position, hintact, hopen⟩ := exitIntact_of_inv hinv hphase hpending hreduce
  refine ⟨position, hintact, fun _ _ _ => betweenBars_of_waiting hpending, ?_, ?_⟩
  · intro bar s' hbar hrun
    obtain ⟨phase, s⟩ := state
    change phase = .beforeOpen bar at hbar
    subst hbar
    exact settleAtBoundary_of_waiting hinv hpending hrun
  · intro fill s' hmatch
    rw [overdraws_iff, not_lt, matchPending_exit hopen hintact.request_eq hmatch]

/-- A hundred units are closed by their own exit. -/
theorem carriedExit_iff_of_hundred_units : ∃ state pending position fill s',
    (system hundredRun).Reachable state ∧ pending ∈ state.2.pending ∧
      ExitIntact hundredRun pending position state.2 ∧
      matchPending hundredRun pending { state.2 with pending := [] } = .ok fill s' ∧
      exitQuantity position.quantity ≤ position.quantity := by
  obtain ⟨state, hstate, hstarts⟩ := exists_of_simulated hundredRun (fun _ => true) 13
    (startsWithExit hundredRun fun held filled => decide (filled = held))
    hundredRun_startsWithExit
  obtain ⟨pending, position, fill, s', hwait, hpending, hreduce, hheld, hmatch, hsame⟩ :=
    exists_of_startsWithExit hstarts
  have hreachable := reachable_of_simulated hstate
  obtain ⟨position', hintact, -, -, hoverdraws⟩ :=
    carriedExit_iff hreachable hwait hpending hreduce
  -- the run holds one position, so both name the same
  have hposition : position' = position := by
    have hboth := hintact.held.symm.trans hheld
    injection hboth with hboth
    exact Option.some.inj hboth
  rw [hposition] at hintact hoverdraws
  refine ⟨state, pending, position, fill, s', hreachable, hpending, hintact, hmatch,
    (hoverdraws fill s' hmatch).1 ?_⟩
  rw [overdraws_iff, of_decide_eq_true hsame]
  exact lt_irrefl _

/-- **67108864.00000038 units** print as a float of one unit more, which the exit orders and
the position cannot be reduced by. -/
theorem overdraws_of_large_position :
    ¬∀ (input : RunInput) (state : RunState) (pending : PendingOrder) (position : Position)
      (fill : Fill) (s' : EngineState), (system input).Reachable state → OrdersWait state.1 →
        pending ∈ state.2.pending → pending.request.reduceOnly = true →
        positionOf input state.2.book = .ok (some position) →
        matchPending input pending { state.2 with pending := [] } = .ok fill s' →
          ¬Overdraws position fill := by
  intro hclaim
  obtain ⟨state, hstate, hstarts⟩ := exists_of_simulated overdrawnRun (fun _ => true) 13
    (startsWithExit overdrawnRun fun held filled => decide (held < filled))
    overdrawnRun_startsWithExit
  obtain ⟨pending, position, fill, s', hwait, hpending, hreduce, hheld, hmatch, hmore⟩ :=
    exists_of_startsWithExit hstarts
  exact hclaim overdrawnRun state pending position fill s' (reachable_of_simulated hstate) hwait
    hpending hreduce hheld hmatch (overdraws_iff.2 (of_decide_eq_true hmore))

end Engine
end TradingSystem
