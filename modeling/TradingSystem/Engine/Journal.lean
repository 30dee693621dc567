import TradingSystem.Engine.Effects
import TradingSystem.Logic.Journal

/-!
# The evidence as a journal

The evidence of a run is a journal: the keys of a row are what the PRIMARY KEY and UNIQUE
constraints of its table name, its references are its foreign keys. A signal raises the task of
being answered by a decision, a decision that acts the task of being executed.

`Journal reserved tasks s` says that the evidence of a state is in order while the given keys
are reserved and the given tasks are in hand, and that every number in use is one the counters
have handed out. What a run has reserved between two steps are the keys of the active trade,
whose rows are recorded when it is completed, and the candidates of waiting orders.
-/

namespace TradingSystem

open Numeric Logic

/-! ### Keys, references and tasks -/

/-- What the uniqueness constraints of the evidence tables are about. -/
inductive EvidenceKey
  /-- A row's own number. -/
  | id (counter : Counter) (n : ℕ)
  /-- `UNIQUE (trade_id, phase)`. -/
  | phase (tradeId : ℕ) (phase : FeaturePhase)
  /-- `UNIQUE (trade_id, settled_at)`. -/
  | settledAt (tradeId : ℕ) (boundary : ℤ)
  | definition (indicatorKey : SeriesKey)
deriving DecidableEq

/-- The counter a key belongs to, and its number there. -/
def EvidenceKey.owner : EvidenceKey → Counter × ℕ
  | id counter n => (counter, n)
  | phase tradeId _ | settledAt tradeId _ => (.trade, tradeId)
  | definition _ => (.indicatorSnapshot, 0)

/-- What a row leaves to be done. -/
inductive EvidenceTask
  | answer (signalId : ℕ)
  | execute (decisionId : ℕ)
deriving DecidableEq

namespace EvidenceRecord

/-- The keys of a row. -/
def keys : EvidenceRecord → List EvidenceKey
  | signal row => [.id .signal row.signalId]
  | decision row => [.id .decision row.decisionId]
  | execution row => [.id .execution row.executionId]
  | trade row => [.id .trade row.tradeId]
  | position row => [.id .position row.positionSeq]
  | portfolio row => [.id .equity row.equitySeq]
  | funding row => [.id .settlement row.settlementId, .settledAt row.tradeId row.settledAt]
  | candidate row => [.id .candidate row.candidateId]
  | feature row => [.id .tfs row.tfsId, .phase row.tradeId row.phase]
  | indicatorDefinition row => [.definition row.indicatorKey]
  | indicatorSnapshot row => [.id .indicatorSnapshot row.snapshotSeq]

/-- The foreign keys of a row. -/
def refs : EvidenceRecord → List EvidenceKey
  | signal _ | portfolio _ | indicatorDefinition _ => []
  | decision row => row.signalId.toList.map (.id .signal)
  | execution row => row.decisionId.toList.map (.id .decision)
  | trade row => [.id .execution row.entryExecutionId, .id .execution row.exitExecutionId]
  | position row => row.tradeId.toList.map (.id .trade)
  | funding row => [.id .trade row.tradeId]
  | candidate row => row.linkedTradeId.toList.map (.id .trade)
  | feature row => [.id .trade row.tradeId]
  | indicatorSnapshot row => [.definition row.indicatorKey]

/-- The tasks a row raises. -/
def raises : EvidenceRecord → List EvidenceTask
  | signal row => [.answer row.signalId]
  | decision row => if row.action = .skip then [] else [.execute row.decisionId]
  | _ => []

/-- The tasks a row settles. -/
def settles : EvidenceRecord → List EvidenceTask
  | decision row => row.signalId.toList.map .answer
  | execution row => row.decisionId.toList.map .execute
  | _ => []

end EvidenceRecord

/-- The execution an order is waiting for. -/
def PendingOrder.task (pending : PendingOrder) : EvidenceTask := .execute pending.decisionId

/-- The evidence tables as a journal. -/
def evidence : JournalSpec EvidenceRecord EvidenceKey EvidenceTask where
  keys := EvidenceRecord.keys
  refs := EvidenceRecord.refs
  raises := EvidenceRecord.raises
  settles := EvidenceRecord.settles

namespace Engine

open JournalSpec

variable {s s' : EngineState} {reserved reserved' : Multiset EvidenceKey}
  {tasks tasks' : List EvidenceTask} {key : EvidenceKey}

/-- **The evidence of a state is in order**, and its numbers have been handed out. -/
structure Journal (reserved : Multiset EvidenceKey) (tasks : List EvidenceTask)
    (s : EngineState) : Prop where
  kept : evidence.Kept reserved tasks s.records
  bounded : ∀ key ∈ ↑(evidence.keysOf s.records) + reserved,
    key.owner.2 ≤ s.sequence key.owner.1

/-- A key that some row has. -/
def Known (s : EngineState) (key : EvidenceKey) : Prop := key ∈ evidence.keysOf s.records

/-- Rows are only added, and the queue is as it was. -/
structure Extends (s s' : EngineState) : Prop where
  records : s.records <+: s'.records
  pending_eq : s'.pending = s.pending

theorem Extends.refl (s : EngineState) : Extends s s := ⟨List.prefix_rfl, rfl⟩

theorem Extends.trans {s'' : EngineState} (h : Extends s s') (h' : Extends s' s'') :
    Extends s s'' := ⟨h.records.trans h'.records, h'.pending_eq.trans h.pending_eq⟩

theorem Extends.of_eq (hrecords : s'.records = s.records) (hpending : s'.pending = s.pending) :
    Extends s s' := by
  refine ⟨?_, hpending⟩
  rw [hrecords]

theorem Known.mono (h : Known s key) (hrecords : s.records <+: s'.records) : Known s' key := by
  obtain ⟨rows, hrows⟩ := hrecords
  unfold Known
  rw [← hrows, keysOf_append]
  exact List.mem_append_left _ h

theorem Known.extends (h : Known s key) (hextends : Extends s s') : Known s' key :=
  h.mono hextends.records

/-- A decision row with a number, a time and a planned execution, that the sink took. -/
def Decided (input : RunInput) (s : EngineState) (decisionId : ℕ) (ts planned : ℤ) : Prop :=
  ∃ row, .decision row ∈ s.records ∧ row.decisionId = decisionId ∧ row.decisionTs = ts ∧
    row.plannedExecutionTs = some planned ∧
    ∃ records, input.sink records (.decision row) = .ok ⟨⟩

theorem Decided.known {decisionId : ℕ} {ts planned : ℤ}
    (h : Decided input s decisionId ts planned) :
    Known s (.id .decision decisionId) := by
  obtain ⟨row, hrow, rfl, -⟩ := h
  exact mem_keysOf.2 ⟨_, hrow, List.mem_singleton_self _⟩

theorem Decided.mono {decisionId : ℕ} {ts planned : ℤ} (h : Decided input s decisionId ts planned)
    (hrecords : s.records <+: s'.records) : Decided input s' decisionId ts planned := by
  obtain ⟨row, hrow, hdecided⟩ := h
  exact ⟨row, hrecords.subset hrow, hdecided⟩

theorem Decided.extends {decisionId : ℕ} {ts planned : ℤ}
    (h : Decided input s decisionId ts planned)
    (hextends : Extends s s') : Decided input s' decisionId ts planned :=
  h.mono hextends.records

/-! ### The elementary steps -/

/-- Rows and counters as they were. -/
theorem Journal.same (h : Journal reserved tasks s) (hrecords : s'.records = s.records)
    (hsequence : s'.sequence = s.sequence) : Journal reserved tasks s' := by
  refine ⟨?_, ?_⟩
  · rw [hrecords]
    exact h.kept
  · rw [hrecords, hsequence]
    exact h.bounded

theorem Journal.mono (h : Journal reserved tasks s) (hreserved : reserved' ≤ reserved)
    (htasks : tasks ⊆ tasks') : Journal reserved' tasks' s := by
  refine ⟨h.kept.mono hreserved htasks, fun key hkey => h.bounded key ?_⟩
  exact Multiset.mem_of_le (Multiset.add_le_add_left hreserved) hkey

theorem next_run {counter : Counter} {n : ℕ} (h : next counter s = .ok n s') :
    n = s.sequence counter + 1 ∧ s' = { s with
      sequence := Function.update s.sequence counter (s.sequence counter + 1) } := by
  unfold next at h
  simp only [bind_eq_ok, modify_apply, get_apply, pure_apply, EStateM.Result.ok.injEq] at h
  obtain ⟨_, _, ⟨-, rfl⟩, _, _, ⟨rfl, rfl⟩, rfl, rfl⟩ := h
  exact ⟨Function.update_self .., rfl⟩

theorem record_run {row : EvidenceRecord} {u : PUnit} (h : record input row s = .ok u s') :
    s' = { s with records := s.records ++ [row] } := by
  exact (record_eq_ok_iff.1 h).2

theorem decided_record {row : DecisionRow} {planned : ℤ} {u : PUnit}
    (h : record input (.decision row) s = .ok u s')
    (hplanned : row.plannedExecutionTs = some planned) :
    Decided input s' row.decisionId row.decisionTs planned := by
  obtain ⟨htaken, rfl⟩ := record_eq_ok_iff.1 h
  exact ⟨row, List.mem_append_right _ (List.mem_singleton_self _), rfl, rfl, hplanned, _, htaken⟩

/-- **A new number** reserves keys of its own. -/
theorem Journal.next {counter : Counter} {n : ℕ} {keys : Multiset EvidenceKey}
    (h : Journal reserved tasks s) (hrun : next counter s = .ok n s') (hnodup : keys.Nodup)
    (howner : ∀ key ∈ keys, key.owner = (counter, n)) : Journal (keys + reserved) tasks s' := by
  obtain ⟨rfl, rfl⟩ := next_run hrun
  -- all keys so far are bounded by their counters, and the new ones are one above
  have hfresh : ∀ key ∈ keys, key ∉ ↑(evidence.keysOf s.records) + reserved := by
    intro key hkey hused
    have hle := h.bounded key hused
    rw [howner key hkey] at hle
    simp at hle
  refine ⟨⟨?_, h.kept.referenced, h.kept.outstanding⟩, fun key hkey => ?_⟩
  · rw [← Multiset.add_assoc, Multiset.add_comm _ keys, Multiset.add_assoc, Multiset.nodup_add]
    refine ⟨hnodup, h.kept.nodup, Multiset.disjoint_left.2 fun hkey => hfresh _ hkey⟩
  · show key.owner.2 ≤ Function.update s.sequence counter (s.sequence counter + 1) key.owner.1
    -- only the bound of the counter that was moved has changed
    by_cases hcounter : key.owner.1 = counter
    · rw [hcounter, Function.update_self]
      rw [Multiset.mem_add, Multiset.mem_add] at hkey
      rcases hkey with hkey | hkey | hkey
      · have hle := h.bounded key (Multiset.mem_add.2 (Or.inl hkey))
        rw [hcounter] at hle
        omega
      · rw [howner key hkey]
      · have hle := h.bounded key (Multiset.mem_add.2 (Or.inr hkey))
        rw [hcounter] at hle
        omega
    · rw [Function.update_of_ne hcounter]
      rw [Multiset.mem_add, Multiset.mem_add] at hkey
      rcases hkey with hkey | hkey | hkey
      · exact h.bounded key (Multiset.mem_add.2 (Or.inl hkey))
      · rw [howner key hkey] at hcounter
        exact absurd rfl hcounter
      · exact h.bounded key (Multiset.mem_add.2 (Or.inr hkey))

theorem next_extends {counter : Counter} {n : ℕ} (hrun : next counter s = .ok n s') :
    Extends s s' := by
  obtain ⟨-, rfl⟩ := next_run hrun
  exact .of_eq rfl rfl

/-- **Reserving** a key of a number that has been handed out. -/
theorem Journal.reserve (h : Journal reserved tasks s) (hused : ¬ Known s key)
    (hreserved : key ∉ reserved) (howner : key.owner.2 ≤ s.sequence key.owner.1) :
    Journal (key ::ₘ reserved) tasks s := by
  refine ⟨h.kept.reserve hused hreserved, fun other hother => ?_⟩
  rw [Multiset.add_cons, Multiset.mem_cons] at hother
  rcases hother with rfl | hother
  · exact howner
  · exact h.bounded other hother

/-- A number of a counter that has no keys but the number itself. -/
theorem Journal.number {counter : Counter} {n : ℕ} (h : Journal reserved tasks s)
    (hrun : Engine.next counter s = .ok n s') :
    Journal ({.id counter n} + reserved) tasks s' :=
  h.next hrun (Multiset.nodup_singleton _) fun key hkey => by
    rw [Multiset.mem_singleton.1 hkey]
    rfl

/-- **A recorded row** uses keys that were reserved and refers to known ones. -/
theorem Journal.record {row : EvidenceRecord} {u : PUnit}
    (h : Journal (↑row.keys + reserved) tasks s) (hrun : record input row s = .ok u s')
    (hrefs : ∀ key ∈ row.refs, Known s key)
    (htasks : ∀ task, task ∈ tasks ∨ task ∈ row.raises → task ∈ tasks' ∨ task ∈ row.settles) :
    Journal reserved tasks' s' ∧ Extends s s' ∧ ∀ key ∈ row.keys, Known s' key := by
  obtain rfl := record_run hrun
  have hkeys : evidence.keysOf (s.records ++ [row]) = evidence.keysOf s.records ++ row.keys := by
    rw [keysOf_append, keysOf_singleton]
    rfl
  refine ⟨⟨h.kept.append hrefs htasks, fun key hkey => h.bounded key ?_⟩,
    ⟨List.prefix_append _ _, rfl⟩, fun key hkey => ?_⟩
  · change key ∈ ↑(evidence.keysOf (s.records ++ [row])) + reserved at hkey
    rwa [hkeys, ← Multiset.coe_add, Multiset.add_assoc] at hkey
  · show key ∈ evidence.keysOf (s.records ++ [row])
    rw [hkeys]
    exact List.mem_append_right _ hkey

/-- A row without tasks. -/
theorem Journal.record_plain {row : EvidenceRecord} {u : PUnit}
    (h : Journal (↑row.keys + reserved) tasks s) (hrun : Engine.record input row s = .ok u s')
    (hrefs : ∀ key ∈ row.refs, Known s key) (hraises : row.raises = []) :
    Journal reserved tasks s' ∧ Extends s s' ∧ ∀ key ∈ row.keys, Known s' key := by
  refine h.record hrun hrefs fun task htask => Or.inl ?_
  rw [hraises] at htask
  exact htask.resolve_right List.not_mem_nil

/-! ### What a run has reserved -/

/-- The candidate of an order or a trade. -/
def candidateKeys (candidateId : Option ℕ) : Multiset EvidenceKey :=
  ↑(candidateId.toList.map (EvidenceKey.id .candidate))

/-- The four features of a trade. -/
def phaseKeys (tradeId : ℕ) : Multiset EvidenceKey :=
  ↑([.entry, .exit, .mae, .mfe].map (EvidenceKey.phase tradeId))

/-- The keys of the rows of a trade that is not completed. -/
def tradeKeys (active : ActiveTrade) : Multiset EvidenceKey :=
  {.id .trade active.tradeId} + phaseKeys active.tradeId +
    ↑(evidence.keysOf (active.positionRecords.map .position)) +
    ↑(evidence.keysOf (active.fundingRecords.map .funding)) + candidateKeys active.candidateId

/-- The keys reserved for the active trade. -/
def activeKeys : Option ActiveTrade → Multiset EvidenceKey
  | none => 0
  | some active => tradeKeys active

/-- The keys reserved for waiting orders. -/
def orderKeys (orders : List PendingOrder) : Multiset EvidenceKey :=
  (orders.map fun pending => candidateKeys pending.candidateId).sum

/-- What the buffered rows of an active trade refer to. -/
structure Rooted (s : EngineState) (active : ActiveTrade) : Prop where
  entry : Known s (.id .execution active.entryExecutionId)
  position : ∀ row ∈ active.positionRecords, row.tradeId = some active.tradeId
  funding : ∀ row ∈ active.fundingRecords, row.tradeId = active.tradeId
  settled : ∀ row ∈ active.fundingRecords, row.settledAt ∈ active.settledBoundaries

theorem Rooted.extends {active : ActiveTrade} (h : Rooted s active) (hextends : Extends s s') :
    Rooted s' active := { h with entry := h.entry.extends hextends }

/-- **Between two operations** of a run the keys of the active trade are reserved. -/
structure InOrder (reserved : Multiset EvidenceKey) (tasks : List EvidenceTask)
    (s : EngineState) : Prop where
  journal : Journal (activeKeys s.activeTrade + reserved) tasks s
  rooted : ∀ active ∈ s.activeTrade, Rooted s active

/-- An active trade with the same numbers and buffered rows. -/
structure SameRows (active active' : ActiveTrade) : Prop where
  tradeId_eq : active'.tradeId = active.tradeId
  entryExecutionId_eq : active'.entryExecutionId = active.entryExecutionId
  candidateId_eq : active'.candidateId = active.candidateId
  positionRecords_eq : active'.positionRecords = active.positionRecords
  fundingRecords_eq : active'.fundingRecords = active.fundingRecords
  settledBoundaries_eq : active'.settledBoundaries = active.settledBoundaries

theorem SameRows.refl (active : ActiveTrade) : SameRows active active :=
  ⟨rfl, rfl, rfl, rfl, rfl, rfl⟩

theorem SameRows.tradeKeys_eq {active active' : ActiveTrade} (h : SameRows active active') :
    tradeKeys active' = tradeKeys active := by
  unfold tradeKeys
  rw [h.tradeId_eq, h.candidateId_eq, h.positionRecords_eq, h.fundingRecords_eq]

theorem Rooted.same {active active' : ActiveTrade} (h : Rooted s active)
    (hsame : SameRows active active') (hextends : Extends s s') : Rooted s' active' := by
  refine ⟨?_, ?_, ?_, ?_⟩
  · rw [hsame.entryExecutionId_eq]
    exact h.entry.extends hextends
  · rw [hsame.positionRecords_eq, hsame.tradeId_eq]
    exact h.position
  · rw [hsame.fundingRecords_eq, hsame.tradeId_eq]
    exact h.funding
  · rw [hsame.fundingRecords_eq, hsame.settledBoundaries_eq]
    exact h.settled

/-- Rows and counters as they were, and the numbers of the active trade. -/
theorem InOrder.same {f : ActiveTrade → ActiveTrade} (h : InOrder reserved tasks s)
    (hrecords : s'.records = s.records) (hsequence : s'.sequence = s.sequence)
    (hpending : s'.pending = s.pending) (hactive : s'.activeTrade = s.activeTrade.map f)
    (hf : ∀ active, SameRows active (f active)) :
    InOrder reserved tasks s' ∧ Extends s s' := by
  have hextends : Extends s s' := .of_eq hrecords hpending
  refine ⟨⟨?_, fun active' hactive' => ?_⟩, hextends⟩
  · have hkeys : activeKeys s'.activeTrade = activeKeys s.activeTrade := by
      rw [hactive]
      cases s.activeTrade with
      | none => rfl
      | some active => exact (hf active).tradeKeys_eq
    rw [hkeys]
    exact h.journal.same hrecords hsequence
  · rw [hactive, Option.mem_map] at hactive'
    obtain ⟨active, hmem, rfl⟩ := hactive'
    exact (h.rooted active hmem).same (hf active) hextends

/-- Nothing that the journal speaks of has changed. -/
theorem InOrder.keep (h : InOrder reserved tasks s) (hrecords : s'.records = s.records)
    (hsequence : s'.sequence = s.sequence) (hpending : s'.pending = s.pending)
    (hactive : s'.activeTrade = s.activeTrade) : InOrder reserved tasks s' ∧ Extends s s' :=
  h.same hrecords hsequence hpending (hactive.trans Option.map_id'.symm) SameRows.refl

theorem InOrder.mono (h : InOrder reserved tasks s) (hreserved : reserved' ≤ reserved)
    (htasks : tasks ⊆ tasks') : InOrder reserved' tasks' s :=
  ⟨h.journal.mono (Multiset.add_le_add_left hreserved) htasks, h.rooted⟩

/-- The queue is no part of the journal. -/
theorem InOrder.requeue (h : InOrder reserved tasks s) (pending : List PendingOrder) :
    InOrder reserved tasks { s with pending := pending } := by
  refine ⟨h.journal.same rfl rfl, fun active hactive => ?_⟩
  have hrooted := h.rooted active hactive
  exact ⟨hrooted.entry, hrooted.position, hrooted.funding, hrooted.settled⟩

theorem InOrder.next {counter : Counter} {n : ℕ} (h : InOrder reserved tasks s)
    (hrun : Engine.next counter s = .ok n s') :
    InOrder ({.id counter n} + reserved) tasks s' ∧ Extends s s' := by
  have hnumber := h.journal.number hrun
  obtain ⟨-, rfl⟩ := next_run hrun
  refine ⟨⟨?_, fun active hactive => (h.rooted active hactive).extends (.of_eq rfl rfl)⟩,
    .of_eq rfl rfl⟩
  rwa [add_left_comm] at hnumber

theorem InOrder.record {row : EvidenceRecord} {u : PUnit}
    (h : InOrder (↑row.keys + reserved) tasks s) (hrun : Engine.record input row s = .ok u s')
    (hrefs : ∀ key ∈ row.refs, Known s key)
    (htasks : ∀ task, task ∈ tasks ∨ task ∈ row.raises → task ∈ tasks' ∨ task ∈ row.settles) :
    InOrder reserved tasks' s' ∧ Extends s s' ∧ ∀ key ∈ row.keys, Known s' key := by
  have hjournal := h.journal
  rw [add_left_comm] at hjournal
  obtain ⟨hkept, hextends, hknown⟩ := hjournal.record hrun hrefs htasks
  obtain rfl := record_run hrun
  exact ⟨⟨hkept, fun active hactive => (h.rooted active hactive).extends hextends⟩, hextends,
    hknown⟩

theorem InOrder.record_plain {row : EvidenceRecord} {u : PUnit}
    (h : InOrder (↑row.keys + reserved) tasks s) (hrun : Engine.record input row s = .ok u s')
    (hrefs : ∀ key ∈ row.refs, Known s key) (hraises : row.raises = []) :
    InOrder reserved tasks s' ∧ Extends s s' ∧ ∀ key ∈ row.keys, Known s' key := by
  refine h.record hrun hrefs fun task htask => Or.inl ?_
  rw [hraises] at htask
  exact htask.resolve_right List.not_mem_nil

end Engine
end TradingSystem
