import Mathlib.Data.List.Sort
import Mathlib.Data.Prod.Lex
import Mathlib.Data.String.Basic
import TradingSystem.Types.Candle
import TradingSystem.Logic.Program

/-!
# The job registries

`JobRegistry` and `DataJobRegistry` keep snapshots of jobs and an `asyncio.Event` for each.
They differ in what a job carries besides its status and in how an update computes it, which
is the parameter `π` and the argument `details` here, and in what they call a job in a message,
which is the argument `kind` of `register`. The two dictionaries of a registry have
the same keys at all times the lock is free, so a job and its event are one `Entry`.

* `register`, `update`, `get` — the methods, as they run under the lock.
* `dropOldestFinished_spec` — what pruning drops and what it leaves.
* `update_eq_ok`, `register_eq_ok` — what one method does to the entries.
-/

namespace TradingSystem
namespace WebApi

open Logic

/-! ### Jobs -/

/-- `JobStateValue`; a data job is never orphaned. -/
inductive JobStateValue
  | queued | running | succeeded | failed | orphaned
deriving DecidableEq

/-- `TERMINAL_JOB_STATES`, and `TERMINAL_DATA_JOB_STATES` for data jobs. -/
def JobStateValue.isTerminal : JobStateValue → Bool
  | .queued => false
  | .running => false
  | .succeeded => true
  | .failed => true
  | .orphaned => true

/-- The snapshot of a job. -/
structure Job (π : Type) where
  jobId : String
  status : JobStateValue
  createdAt : ℤ
  updatedAt : ℤ
  revision : ℕ
  details : π

/-- A job and the identity of its event object. -/
structure Entry (π : Type) where
  job : Job π
  event : ℕ

/-- The registry: its entries in insertion order, and the number of events made so far. -/
structure Registry (π : Type) where
  entries : List (Entry π)
  events : ℕ

/-- `MAX_RETAINED_FINISHED_JOBS` and `MAX_RETAINED_FINISHED_DATA_JOBS`. -/
def maxRetainedFinishedJobs : ℕ := 200

/-- The sort key of pruning. -/
def Entry.age {π : Type} (entry : Entry π) : ℤ ×ₗ ℤ ×ₗ String :=
  toLex (entry.job.updatedAt, toLex (entry.job.createdAt, entry.job.jobId))

def Entry.finished {π : Type} (entry : Entry π) : Bool := entry.job.status.isTerminal

namespace Registry

variable {π : Type}

def empty : Registry π := ⟨[], 0⟩

def get (registry : Registry π) (jobId : String) : Option (Entry π) :=
  registry.entries.find? fun entry => entry.job.jobId = jobId

/-- The finished jobs past the retention limit, oldest first. -/
def excess (entries : List (Entry π)) : List (Entry π) :=
  let finished := entries.filter Entry.finished
  if finished.length ≤ maxRetainedFinishedJobs then []
  else (finished.insertionSort fun entry entry' => entry.age ≤ entry'.age).take
    (finished.length - maxRetainedFinishedJobs)

def dropOldestFinished (entries : List (Entry π)) : List (Entry π) :=
  entries.filter fun entry => !(excess entries).any fun dropped =>
    dropped.job.jobId = entry.job.jobId

/-- `register`, of a job or of a data job. -/
def register (kind jobId : String) (now : ℤ) (details : π) (registry : Registry π) :
    Except Fault (Registry π) := do
  require (registry.get jobId = none) (.valueError (kind ++ " already exists: " ++ jobId))
  return {
    entries := dropOldestFinished registry.entries ++ [{
      job := {
        jobId := jobId
        status := .queued
        createdAt := now
        updatedAt := now
        revision := 0
        details := details }
      event := registry.events }]
    events := registry.events + 1 }

/-- A job after an update. -/
def updated (status : JobStateValue) (now : ℤ) (details : Job π → π) (job : Job π) : Job π :=
  { job with
    status := status
    updatedAt := now
    revision := job.revision + 1
    details := details job }

/-- `update`: the registry after it, and the event it sets. -/
def update (jobId : String) (status : JobStateValue) (now : ℤ) (details : Job π → π)
    (registry : Registry π) : Except Fault (Registry π × ℕ) :=
  match registry.get jobId with
  | none => .error (.keyError jobId)
  | some found => .ok ({ registry with
      entries := registry.entries.map fun entry =>
        if entry.job.jobId = jobId then { entry with job := updated status now details entry.job }
        else entry }, found.event)

/-! ### Pruning -/

variable {entries : List (Entry π)} {entry dropped kept : Entry π}

theorem mem_dropOldestFinished : entry ∈ dropOldestFinished entries ↔
    entry ∈ entries ∧ ∀ dropped ∈ excess entries, dropped.job.jobId ≠ entry.job.jobId := by
  unfold dropOldestFinished
  rw [List.mem_filter, Bool.not_eq_true', List.any_eq_false]
  simp only [decide_eq_true_eq]

/-- The finished jobs in order, the excess first. -/
def byAge (entries : List (Entry π)) : List (Entry π) :=
  (entries.filter Entry.finished).insertionSort fun entry entry' => entry.age ≤ entry'.age

theorem mem_byAge : entry ∈ byAge entries ↔ entry ∈ entries ∧ entry.finished = true := by
  unfold byAge
  rw [List.mem_insertionSort, List.mem_filter]

theorem excess_eq_take : excess entries = (byAge entries).take
    ((entries.filter Entry.finished).length - maxRetainedFinishedJobs) := by
  change (if (entries.filter Entry.finished).length ≤ maxRetainedFinishedJobs then []
    else (byAge entries).take _) = _
  split
  · next hle => rw [Nat.sub_eq_zero_of_le hle, List.take_zero]
  · rfl

/-- **Only finished jobs are dropped.** -/
theorem finished_of_mem_excess (h : dropped ∈ excess entries) :
    dropped ∈ entries ∧ dropped.finished = true := by
  rw [excess_eq_take] at h
  exact mem_byAge.1 (List.mem_of_mem_take h)

/-- **The oldest are dropped first.** -/
theorem age_le_of_dropped (hdropped : dropped ∈ excess entries)
    (hkept : kept ∈ dropOldestFinished entries) (hfinished : kept.finished = true) :
    dropped.age ≤ kept.age := by
  obtain ⟨hmem, hids⟩ := mem_dropOldestFinished.1 hkept
  have hsorted : (byAge entries).Pairwise fun entry entry' => entry.age ≤ entry'.age :=
    List.pairwise_insertionSort (fun entry entry' : Entry π => entry.age ≤ entry'.age) _
  rw [← List.take_append_drop ((entries.filter Entry.finished).length - maxRetainedFinishedJobs)
    (byAge entries), ← excess_eq_take, List.pairwise_append] at hsorted
  have hin : kept ∈ byAge entries := mem_byAge.2 ⟨hmem, hfinished⟩
  rw [← List.take_append_drop ((entries.filter Entry.finished).length - maxRetainedFinishedJobs)
    (byAge entries), ← excess_eq_take, List.mem_append] at hin
  rcases hin with hexcess | hrest
  · exact absurd rfl (hids kept hexcess)
  · exact hsorted.2.2 dropped hdropped kept hrest

/-- **At most the limit of finished jobs is left.** -/
theorem length_finished_le :
    ((dropOldestFinished entries).filter Entry.finished).length ≤ maxRetainedFinishedJobs := by
  set count := (entries.filter Entry.finished).length - maxRetainedFinishedJobs with hcount
  set stays : Entry π → Bool := fun entry => !(excess entries).any fun dropped =>
    dropped.job.jobId = entry.job.jobId with hstays
  have hperm : ((dropOldestFinished entries).filter Entry.finished).Perm
      ((byAge entries).filter stays) := by
    unfold dropOldestFinished
    rw [List.filter_comm]
    exact ((List.perm_insertionSort _ _).symm).filter _
  have hnone : ((byAge entries).take count).filter stays = [] := by
    rw [List.filter_eq_nil_iff]
    intro entry hentry
    rw [hcount, ← excess_eq_take] at hentry
    rw [hstays]
    simp only [Bool.not_eq_true', Bool.not_eq_false, List.any_eq_true, decide_eq_true_eq]
    exact ⟨entry, hentry, rfl⟩
  rw [hperm.length_eq, ← List.take_append_drop count (byAge entries), List.filter_append, hnone,
    List.nil_append]
  refine (List.length_filter_le _ _).trans ?_
  rw [List.length_drop, byAge, List.length_insertionSort]
  omega

/-! ### What the methods do -/

/-- Jobs have different names and different events, and events are not made twice. -/
structure WellFormed (registry : Registry π) : Prop where
  ids : registry.entries.Pairwise fun entry entry' => entry.job.jobId ≠ entry'.job.jobId
  events_ne : registry.entries.Pairwise fun entry entry' => entry.event ≠ entry'.event
  events_lt : ∀ entry ∈ registry.entries, entry.event < registry.events

variable {registry registry' : Registry π} {jobId : String} {now : ℤ} {status : JobStateValue}
  {event : ℕ}

theorem get_eq_some (h : registry.get jobId = some entry) :
    entry ∈ registry.entries ∧ entry.job.jobId = jobId :=
  ⟨List.mem_of_find?_eq_some h, by simpa using List.find?_some h⟩

theorem get_eq_none (h : registry.get jobId = none) :
    ∀ entry ∈ registry.entries, entry.job.jobId ≠ jobId := by
  intro entry hentry
  have hall := List.find?_eq_none.1 h entry hentry
  simpa using hall

/-- Different events are different entries. -/
theorem WellFormed.eq_of_event_eq (h : registry.WellFormed) {entry entry' : Entry π}
    (hentry : entry ∈ registry.entries) (hentry' : entry' ∈ registry.entries)
    (heq : entry.event = entry'.event) : entry = entry' := by
  have hnodup : (registry.entries.map Entry.event).Nodup := List.pairwise_map.2 h.events_ne
  exact List.inj_on_of_nodup_map hnodup hentry hentry' heq

theorem WellFormed.eq_of_jobId_eq (h : registry.WellFormed) {entry entry' : Entry π}
    (hentry : entry ∈ registry.entries) (hentry' : entry' ∈ registry.entries)
    (heq : entry.job.jobId = entry'.job.jobId) : entry = entry' := by
  have hnodup : (registry.entries.map fun entry => entry.job.jobId).Nodup :=
    List.pairwise_map.2 h.ids
  exact List.inj_on_of_nodup_map hnodup hentry hentry' heq

theorem WellFormed.get_eq (h : registry.WellFormed) (hentry : entry ∈ registry.entries) :
    registry.get entry.job.jobId = some entry := by
  cases hget : registry.get entry.job.jobId with
  | none => exact absurd rfl (get_eq_none hget entry hentry)
  | some found =>
    obtain ⟨hfound, hid⟩ := get_eq_some hget
    rw [h.eq_of_jobId_eq hfound hentry hid]

theorem wellFormed_empty : (empty : Registry π).WellFormed := ⟨.nil, .nil, nofun⟩

/-- **A registration** prunes and appends a queued job with a new event. -/
theorem register_eq_ok {kind : String} {details : π}
    (h : registry.register kind jobId now details = .ok registry') :
    (∀ entry ∈ registry.entries, entry.job.jobId ≠ jobId) ∧
      registry'.events = registry.events + 1 ∧
      registry'.entries = dropOldestFinished registry.entries ++
        [⟨⟨jobId, .queued, now, now, 0, details⟩, registry.events⟩] := by
  unfold register at h
  simp only [Except.bind_eq_ok, require_eq_ok] at h
  obtain ⟨-, hfree, h⟩ := h
  cases h
  exact ⟨get_eq_none hfree, rfl, rfl⟩

theorem WellFormed.register {kind : String} {details : π} (h : registry.WellFormed)
    (hregister : registry.register kind jobId now details = .ok registry') :
    registry'.WellFormed := by
  obtain ⟨hfree, hevents, hentries⟩ := register_eq_ok hregister
  -- dropping old jobs only removes entries
  have hsublist : List.Sublist (dropOldestFinished registry.entries) registry.entries :=
    List.filter_sublist
  constructor
  · rw [hentries, List.pairwise_append]
    refine ⟨h.ids.sublist hsublist, List.pairwise_singleton .., ?_⟩
    intro entry hentry entry' hentry'
    rw [List.mem_singleton.1 hentry']
    exact hfree entry (hsublist.subset hentry)
  · rw [hentries, List.pairwise_append]
    refine ⟨h.events_ne.sublist hsublist, List.pairwise_singleton .., ?_⟩
    intro entry hentry entry' hentry'
    rw [List.mem_singleton.1 hentry']
    exact (h.events_lt entry (hsublist.subset hentry)).ne
  · rw [hentries, hevents]
    intro entry hentry
    rcases List.mem_append.1 hentry with hold | hnew
    · have hlt := h.events_lt entry (hsublist.subset hold)
      omega
    · rw [List.mem_singleton.1 hnew]
      exact Nat.lt_succ_self _

/-- **An update** changes one entry and returns its event. -/
theorem update_eq_ok {details : Job π → π}
    (h : registry.update jobId status now details = .ok (registry', event)) :
    ∃ found ∈ registry.entries, found.job.jobId = jobId ∧ found.event = event ∧
      registry'.events = registry.events ∧
      registry'.entries = registry.entries.map fun entry =>
        if entry.job.jobId = jobId then { entry with job := updated status now details entry.job }
        else entry := by
  unfold update at h
  split at h
  · cases h
  · next found hget =>
    cases h
    obtain ⟨hfound, hid⟩ := get_eq_some hget
    exact ⟨found, hfound, hid, rfl, rfl, rfl⟩

theorem WellFormed.update {details : Job π → π} (h : registry.WellFormed)
    (hupdate : registry.update jobId status now details = .ok (registry', event)) :
    registry'.WellFormed := by
  obtain ⟨found, -, -, -, hevents, hentries⟩ := update_eq_ok hupdate
  -- an update moves neither the name nor the event of any entry
  have hkeeps : ∀ entry : Entry π,
      (if entry.job.jobId = jobId then { entry with job := updated status now details entry.job }
        else entry).job.jobId = entry.job.jobId ∧
      (if entry.job.jobId = jobId then { entry with job := updated status now details entry.job }
        else entry).event = entry.event := by
    intro entry
    split
    · exact ⟨rfl, rfl⟩
    · exact ⟨rfl, rfl⟩
  constructor
  · rw [hentries, List.pairwise_map]
    refine h.ids.imp ?_
    intro entry entry' hne
    rw [(hkeeps entry).1, (hkeeps entry').1]
    exact hne
  · rw [hentries, List.pairwise_map]
    refine h.events_ne.imp ?_
    intro entry entry' hne
    rw [(hkeeps entry).2, (hkeeps entry').2]
    exact hne
  · rw [hentries, hevents]
    intro entry hentry
    obtain ⟨before, hbefore, rfl⟩ := List.mem_map.1 hentry
    rw [(hkeeps before).2]
    exact h.events_lt before hbefore

end Registry

end WebApi
end TradingSystem
