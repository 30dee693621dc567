import TradingSystem.Engine.Simulation

/-!
# Coherence over whole runs

`BooksAgree` is what every state of every run satisfies: one direction at most, a position
exactly with an active trade and on its side, no protection while flat, cash a
nonnegative number of units, and a queue that waits for the contiguous next candle.

`StateCoherence` adds that the active trade has the quantity of the position. It holds
while every quantity that is closed through a float survives it, and a run over a larger
quantity breaks it.
-/

namespace TradingSystem

open Numeric Logic

namespace Engine

variable {input : RunInput} {state : RunState}

/-- The orders a run still has to execute: the queue, and inside a bar what was taken from
it. -/
def waitingOrders (state : RunState) : List PendingOrder :=
  match state.1 with
  | .carrying _ orders => state.2.pending ++ orders
  | _ => state.2.pending

/-- A run that is about to cross from one bar to another that does not follow it. -/
def AtDataGap : Phase → Prop
  | .afterClose ⟨_, candle, next :: _⟩ => next.openTime ≠ candle.closeTime
  | _ => False

/-- The agreement of book, cash, active trade, protection and queue. -/
structure BooksAgree (input : RunInput) (state : RunState) : Prop where
  /-- The book holds at most one direction of the run's symbol. -/
  oneDirection : state.2.book (input.config.symbol, .long) = none ∨
    state.2.book (input.config.symbol, .short) = none
  /-- A position is open exactly when a trade is active. -/
  open_iff_active : (∃ position, positionOf input state.2.book = .ok (some position)) ↔
    state.2.activeTrade.isSome = true
  side_eq : ∀ position active, positionOf input state.2.book = .ok (some position) →
    state.2.activeTrade = some active → active.entryFill.positionSide = position.side
  /-- A flat run has no protection. -/
  flat : positionOf input state.2.book = .ok none →
    state.2.protection = { stopPrice := none, takeProfitPrice := none }
  cash_money : IsMoney state.2.cash
  cash_nonneg : 0 ≤ state.2.cash
  /-- Every waiting order was decided at a candle that is followed without a gap. -/
  waiting_contiguous : ∀ pending ∈ waitingOrders state,
    ∃ next, nextBar input pending.decisionCandle = .ok (.contiguous next)
  /-- Nothing is queued when a data gap is crossed. -/
  gap_empty : AtDataGap state.1 → state.2.pending = []

/-- Agreement, with the quantities. -/
structure StateCoherence (input : RunInput) (state : RunState) : Prop
    extends BooksAgree input state where
  quantity_eq : ∀ position active, positionOf input state.2.book = .ok (some position) →
    state.2.activeTrade = some active → active.entryFill.quantity = position.quantity

/-- Waiting orders were queued for the contiguous next candle. -/
private theorem waiting_queued {exact : Prop} (h : Inv input exact state) :
    ∀ pending ∈ waitingOrders state, ∃ prev, IsQueued input prev pending := by
  obtain ⟨held, -, hphase⟩ := h
  obtain ⟨phase, s⟩ := state
  intro pending hpending
  have hnothing : s.pending = [] → pending ∉ s.pending := by
    intro hempty
    rw [hempty]
    exact List.not_mem_nil
  -- only the phases around a close hold orders
  cases phase with
  | beforeOpen bar =>
    obtain ⟨-, -, hempty | ⟨prev, -, hqueue, -⟩⟩ := hphase
    · exact absurd hpending (hnothing hempty)
    · exact ⟨prev, hqueue.queued pending hpending⟩
  | carrying bar orders =>
    obtain ⟨hbar, horders⟩ := hphase
    have hmem : pending ∈ orders := by
      change pending ∈ s.pending ++ orders at hpending
      rw [hbar.pending_eq] at hpending
      exact hpending
    rcases horders with rfl | ⟨prev, -, hcarried, -⟩
    · cases hmem
    · cases hcarried with
      | queue hqueue => exact ⟨prev, hqueue.queued pending hmem⟩
      | entry hqueued _ _ =>
        rw [List.mem_singleton] at hmem
        exact ⟨prev, hmem ▸ hqueued⟩
  | settling bar boundaries => exact absurd hpending (hnothing hphase.1.pending_eq)
  | protecting bar => exact absurd hpending (hnothing hphase.1.pending_eq)
  | beforeClose bar => exact absurd hpending (hnothing hphase.1.pending_eq)
  | afterClose bar => exact ⟨bar.candle, hphase.2.2.2.queued pending hpending⟩
  | finished => exact hphase pending hpending

/-- At a data gap the queue is empty: an order in it would make the next bar contiguous. -/
private theorem gap_pending {exact : Prop} (h : Inv input exact state) (hgap : AtDataGap state.1) :
    state.2.pending = [] := by
  obtain ⟨held, -, hphase⟩ := h
  obtain ⟨phase, s⟩ := state
  cases phase with
  | afterClose bar =>
    obtain ⟨index, candle, rest⟩ := bar
    cases rest with
    | nil => cases hgap
    | cons next rest =>
      obtain ⟨hbar, -, -, hqueue⟩ := hphase
      by_contra hne
      obtain ⟨pending, hpending⟩ := List.exists_mem_of_ne_nil _ hne
      have hqueued := hqueue.queued pending hpending
      obtain ⟨follower, hfollower⟩ := hqueued.contiguous
      exact hgap (hbar.contiguous hfollower)
  | _ => cases hgap

/-- The invariant of runs, read as the agreement of the books. -/
theorem Inv.booksAgree {exact : Prop} (h : Inv input exact state) : BooksAgree input state := by
  have hwaiting := waiting_queued h
  have hgap := gap_pending h
  obtain ⟨held, hcoherent, -⟩ := h
  -- the position of the book is the one the invariant names
  have hheld : ∀ {held' : Option Position}, positionOf input state.2.book = .ok held' →
      held' = held := by
    intro held' hposition
    rw [hcoherent.files.positionOf_eq] at hposition
    cases hposition
    rfl
  exact {
    oneDirection := by
      rcases positionOf_eq_ok.1 hcoherent.files.positionOf_eq with ⟨-, hfree⟩ | ⟨hfree, -⟩
      · exact Or.inr hfree
      · exact Or.inl hfree
    open_iff_active := by
      rw [hcoherent.activeTrade_isSome, Option.isSome_iff_exists]
      constructor
      · rintro ⟨position, hposition⟩
        exact ⟨position, (hheld hposition).symm⟩
      · rintro ⟨position, rfl⟩
        exact ⟨position, hcoherent.files.positionOf_eq⟩
    side_eq := by
      intro position active hposition hactive
      exact hcoherent.side_eq position (hheld hposition).symm active hactive
    flat := fun hflat => hcoherent.flat (hheld hflat).symm
    cash_money := hcoherent.cash_money
    cash_nonneg := hcoherent.cash_nonneg
    waiting_contiguous := by
      intro pending hpending
      obtain ⟨prev, hqueued⟩ := hwaiting pending hpending
      rw [hqueued.decisionCandle_eq]
      exact hqueued.contiguous
    gap_empty := hgap }

/-- **The books agree** in every state of every run. -/
theorem booksAgree_of_reachable (h : (system input).Reachable state) : BooksAgree input state :=
  (inv_of_reachable h).booksAgree

/-- **Coherence.** In a run whose closes through a float lose nothing, every state is coherent:
the book holds one direction at most, a position is open exactly with an active trade on its side,
and their quantities are equal. Everything but the quantities holds without that condition. -/
theorem stateCoherence_of_lossless (h : (system input).ReachableVia (ClosesLossless input) state) :
    StateCoherence input state := by
  have hinv := inv_of_reachableVia h
  refine ⟨hinv.booksAgree, ?_⟩
  obtain ⟨held, hcoherent, -⟩ := hinv
  intro position active hposition hactive
  rw [hcoherent.files.positionOf_eq] at hposition
  cases hposition
  exact hcoherent.quantity_eq trivial position rfl active hactive

/-! ### A trade whose exit leaves a unit -/

private theorem dollar_pos : Binary64.zero < Binary64.ofRat 1 :=
  Binary64.zero_lt_ofRat le_rfl

private theorem riskOfOnePercent_valid : (SizingMethod.riskBased onePercent).Valid := by
  decide +kernel

theorem hundredThousand_pos : (0 : Decimal) < 100000 := by norm_num

private def oneDollar : Price := ⟨Binary64.ofRat 1, dollar_pos⟩

private def twoDollars : Price := ⟨Binary64.ofRat 2, by decide +kernel⟩

/-- Enter at the first bar with a stop one dollar away, leave at the second. -/
def enterThenExit (requested : Binary64) : ℕ → StrategyAnswer
  | 0 => .signal (hourlySignal .futures twoDollars (some oneDollar) none none (some requested)
      (by simp))
  | 1 => .signal (hourlySignal .futures twoDollars none none none none (by simp))
  | _ => .nothing

/-- Four hours at two dollars; the risk budget of one percent of the capital caps the entry
at that many units. -/
def twoDollarRun (initialCapital : Decimal) (requested : Binary64)
    (hcapital : 0 < initialCapital) : RunInput :=
  hourly .futures initialCapital (.riskBased onePercent)
    [(1, twoDollars), (2, twoDollars), (3, twoDollars), (4, twoDollars)] (enterThenExit requested)
    hcapital riskOfOnePercent_valid (by decide)

/-- A hundred units are coherent while the position is open. -/
theorem stateCoherence_of_hundred_units : ∃ state : RunState,
    state.2.activeTrade.isSome = true ∧
      StateCoherence (twoDollarRun 100000 (Binary64.ofRat 100) hundredThousand_pos) state := by
  obtain ⟨state, hstate, hopen⟩ := exists_of_simulated
    (twoDollarRun 100000 (Binary64.ofRat 100) hundredThousand_pos)
    (keepsQuantity (twoDollarRun 100000 (Binary64.ofRat 100) hundredThousand_pos))
    12 (fun state => state.2.activeTrade.isSome) (by decide +kernel)
  exact ⟨state, hopen, stateCoherence_of_lossless
    (reachableVia_of_simulated (fun _ => closesLossless_of_keepsQuantity) hstate)⟩

/-- Whether the open trade and the held position differ in quantity. -/
def quantityDiffers (input : RunInput) (state : RunState) : Bool :=
  match positionOf input state.2.book, state.2.activeTrade with
  | .ok (some position), some active =>
    decide (active.entryFill.quantity ≠ position.quantity)
  | _, _ => false

/-- A capital of 6710886400.000002 caps the entry at 67108864.00000002 units. Their float
prints as 67108864.00000001, so the exit leaves a unit of `10^(-8)` and the trade active. -/
theorem not_stateCoherence_of_remainder : ∃ state : RunState,
    (system (twoDollarRun (6710886400 + 2 / 1000000) (Binary64.ofRat 70000000)
      (by norm_num))).Reachable state ∧
    ¬StateCoherence (twoDollarRun (6710886400 + 2 / 1000000) (Binary64.ofRat 70000000)
      (by norm_num)) state := by
  obtain ⟨state, hstate, hdiffers⟩ := exists_of_simulated
    (twoDollarRun (6710886400 + 2 / 1000000) (Binary64.ofRat 70000000) (by norm_num))
    (fun _ => true) 15
    (quantityDiffers (twoDollarRun (6710886400 + 2 / 1000000) (Binary64.ofRat 70000000)
      (by norm_num))) (by decide +kernel)
  refine ⟨state, reachable_of_simulated hstate, fun hcoherent => ?_⟩
  unfold quantityDiffers at hdiffers
  split at hdiffers
  · next position active hposition hactive =>
    rw [decide_eq_true_eq] at hdiffers
    exact hdiffers (hcoherent.quantity_eq position active hposition hactive)
  · cases hdiffers

/-! ### A run to its end -/

/-- Whether a run has ended with a trade. -/
def endedWithTrade (state : RunState) : Bool :=
  match state with
  | (.finished, s) => !s.trades.isEmpty
  | _ => false

theorem finished_of_endedWithTrade {state : RunState} (h : endedWithTrade state = true) :
    state.1 = .finished := by
  unfold endedWithTrade at h
  split at h
  · rfl
  · cases h

/-- A run of four hours that ends with a trade. -/
theorem exists_ended : ∃ state : RunState, endedWithTrade state = true ∧
    (system (twoDollarRun 100000 (Binary64.ofRat 100) hundredThousand_pos)).Reachable state := by
  obtain ⟨state, hstate, hended⟩ := exists_of_simulated
    (twoDollarRun 100000 (Binary64.ofRat 100) hundredThousand_pos) (fun _ => true) 26
    endedWithTrade (by decide +kernel)
  exact ⟨state, hended, reachable_of_simulated hstate⟩

end Engine
end TradingSystem
