import TradingSystem.WebApi.DataJobs

/-!
# What is left when the shutdown returns

A task that is cancelled before its first statement never reaches the handler that fails its job,
and its done callback does not look at cancelled tasks. Every other task settles its job before
it ends, and the queue is served in order, so its subscribers are told before the shutdown goes
on.

* `Kept` — the invariant: whoever is still to settle a job is tracked, and waited for.
* `settled_of_returned` — if no task is before its first statement when the shutdown starts, every
  job is terminal and known to those who wait when it returns.
* `not_settled_of_created` — a shutdown right after a submission leaves the job queued.
-/

namespace TradingSystem
namespace WebApi

open Logic

variable {π : Type}

/-! ### Queues -/

/-- The events that are asked to be set. -/
def eventsOf (ready : List Handle) : List ℕ :=
  ready.filterMap fun handle =>
    match handle with
    | .setEvent event => some event
    | _ => none

theorem eventsOf_append (front back : List Handle) :
    eventsOf (front ++ back) = eventsOf front ++ eventsOf back := List.filterMap_append

theorem eventsOf_of_none {ready : List Handle} (h : ∀ event, .setEvent event ∉ ready) :
    eventsOf ready = [] := by
  unfold eventsOf
  rw [List.filterMap_eq_nil_iff]
  intro handle hhandle
  cases handle with
  | setEvent event => exact absurd hhandle (h event)
  | _ => rfl

section Order

variable {α : Type} {a b : α} {front back : List α}

/-- One element comes before another. -/
def Precedes (a b : α) (items : List α) : Prop := List.Sublist [a, b] items

/-- In a concatenation the order is that of a part, or across the parts. -/
theorem precedes_append : Precedes a b (front ++ back) ↔
    Precedes a b front ∨ (a ∈ front ∧ b ∈ back) ∨ Precedes a b back := by
  unfold Precedes
  rw [List.sublist_append_iff]
  constructor
  · rintro ⟨first, second, heq, hfirst, hsecond⟩
    -- where the pair is cut
    match first, heq with
    | [], heq =>
      rw [List.nil_append] at heq
      rw [heq]
      exact Or.inr (Or.inr hsecond)
    | [x], heq =>
      rw [List.singleton_append, List.cons.injEq] at heq
      obtain ⟨rfl, rfl⟩ := heq
      exact Or.inr (Or.inl ⟨List.singleton_sublist.1 hfirst, List.singleton_sublist.1 hsecond⟩)
    | x :: y :: rest, heq =>
      simp only [List.cons_append, List.cons.injEq, List.nil_eq, List.append_eq_nil_iff] at heq
      obtain ⟨rfl, rfl, rfl, -⟩ := heq
      exact Or.inl hfirst
  · rintro (hfront | ⟨ha, hb⟩ | hback)
    · exact ⟨[a, b], [], (List.append_nil _).symm, hfront, List.nil_sublist _⟩
    · exact ⟨[a], [b], rfl, List.singleton_sublist.2 ha, List.singleton_sublist.2 hb⟩
    · exact ⟨[], [a, b], rfl, List.nil_sublist _, hback⟩

theorem Precedes.of_tail {head : α} (h : Precedes a b back) : Precedes a b (head :: back) :=
  List.Sublist.cons _ h

theorem precedes_of_head (h : b ∈ back) : Precedes a b (a :: back) :=
  List.Sublist.cons_cons _ (List.singleton_sublist.2 h)

theorem not_precedes_singleton {c : α} : ¬Precedes a b [c] := by
  intro h
  have hlength := List.Sublist.length_le h
  simp at hlength

theorem precedes_pair {c d : α} : Precedes a b [c, d] ↔ a = c ∧ b = d := by
  change Precedes a b ([c] ++ [d]) ↔ _
  rw [precedes_append, List.mem_singleton, List.mem_singleton]
  constructor
  · rintro (h | h | h)
    · exact absurd h not_precedes_singleton
    · exact h
    · exact absurd h not_precedes_singleton
  · exact fun h => Or.inr (Or.inl h)

end Order

/-! ### The invariant -/

/-- A task is not over. -/
def Unfinished (tasks : ℕ → Option JobTask) (id : ℕ) : Prop :=
  ∃ task, tasks id = some task ∧ task.point.isDone = false

/-- A task is over. -/
def Ended (tasks : ℕ → Option JobTask) (id : ℕ) : Prop :=
  ∃ task, tasks id = some task ∧ task.point.isDone = true

theorem Ended.not_unfinished {tasks : ℕ → Option JobTask} {id : ℕ} (h : Ended tasks id) :
    ¬Unfinished tasks id := by
  rintro ⟨task, htask, hpoint⟩
  obtain ⟨found, hfound, hdone⟩ := h
  rw [htask] at hfound
  cases hfound
  rw [hpoint] at hdone
  cases hdone

/-- A task that is not over, or whose end has not been noticed. -/
def Live (tasks : ℕ → Option JobTask) (ready : List Handle) (id : ℕ) : Prop :=
  Unfinished tasks id ∨ .jobDone id ∈ ready

/-- A task that is still to settle its job, by itself or in its done callback. -/
def Owns (tasks : ℕ → Option JobTask) (ready : List Handle) (id : ℕ) (task : JobTask) : Prop :=
  tasks id = some task ∧
    (task.point.isDone = false ∨ (task.point = .done .raised ∧ .jobDone id ∈ ready))

/-- Before the shutdown: nothing is cancelled, and whatever has been reported by a task that is
over precedes its done callback. -/
structure Quiet (tasks : ℕ → Option JobTask) (ready : List Handle) : Prop where
  calm : ∀ id task, tasks id = some task →
    task.cancelling = false ∧ task.point ≠ .stopping ∧ task.point ≠ .done .raised
  announced : ∀ back, List.IsSuffix back ready →
    (∃ id, Unfinished tasks id) ∨ eventsOf back = [] ∨ ∃ id, .jobDone id ∈ back
  gathered : ∀ id, .gathered id ∉ ready

/-- While the shutdown waits: whoever is live is waited for, and its done callback precedes the
one of the shutdown. -/
structure Gathering (tasks : ℕ → Option JobTask) (ready : List Handle) (pending : List ℕ) :
    Prop where
  live : ∀ id, Live tasks ready id → id ∈ pending
  started : ∀ id task, tasks id = some task → task.point ≠ .created
  once : ∀ id task, tasks id = some task → task.point = .stopping → task.cancelling = false
  gathered : ∀ id, .gathered id ∈ ready → ¬Unfinished tasks id
  order : ∀ id, ¬Precedes (.gathered id) (.jobDone id) ready
  last : pending = [] → ∀ back, List.IsSuffix (.resumeShutdown :: back) ready →
    eventsOf back = []

/-- **The invariant**, for all jobs but an exempted one. -/
structure KeptFor (exempt : Option String) (world : World π) (tasks : ℕ → Option JobTask)
    (tracked : List ℕ) (ready : List Handle) (shutdown : Shutdown) : Prop where
  awake : Awake world
  scheduled : world.scheduled.Perm (eventsOf ready)
  owned : ∀ entry ∈ world.registry.entries, entry.finished = false →
    some entry.job.jobId ≠ exempt → ∃ id task, Owns tasks ready id task ∧
      task.jobId = entry.job.jobId
  tracked : ∀ id, Live tasks ready id → id ∈ tracked
  ended : ∀ id, .jobDone id ∈ ready → Ended tasks id
  single : ∀ id, ¬Precedes (.jobDone id) (.jobDone id) ready
  resume : .resumeShutdown ∈ ready → shutdown = .gathering [] ∨ shutdown = .returned
  quiet : shutdown = .idle → Quiet tasks ready
  gathering : ∀ pending, shutdown = .gathering pending → Gathering tasks ready pending
  returned : shutdown = .returned → (∀ id, ¬Live tasks ready id) ∧ eventsOf ready = []

/-- The invariant of a loop. -/
def Kept (loop : Loop π) : Prop :=
  KeptFor none loop.world loop.tasks loop.tracked loop.ready loop.shutdown

variable {loop loop' : Loop π} {exempt exempt' : Option String} {world world' : World π}
  {tasks : ℕ → Option JobTask} {tracked : List ℕ} {ready rest : List Handle} {shutdown : Shutdown}
  {id event : ℕ} {task : JobTask} {jobId : String} {stamp : Stamp π} {status : JobStateValue}
  {reply : Reply} {handle : Handle}

theorem kept_start : Kept (Loop.start : Loop π) where
  awake := awake_start
  scheduled := .nil
  owned := nofun
  tracked := by
    rintro id (⟨task, htask, -⟩ | hdone)
    · cases htask
    · cases hdone
  ended := nofun
  single := by
    intro id h
    cases h
  resume := nofun
  quiet := fun _ => ⟨nofun, by
    intro back hback
    rw [List.suffix_nil.1 hback]
    exact Or.inr (Or.inl rfl), nofun⟩
  gathering := nofun
  returned := nofun

/-- What is kept for all jobs is kept for all but one. -/
theorem KeptFor.weaken (h : KeptFor none world tasks tracked ready shutdown) :
    KeptFor exempt world tasks tracked ready shutdown :=
  { h with owned := fun entry hentry hunfinished _ => h.owned entry hentry hunfinished nofun }

/-! ### Primitive operations -/

/-- Who may report: somebody who is not over before the shutdown, and somebody who is waited for
during it. -/
structure MayReport (tasks : ℕ → Option JobTask) (shutdown : Shutdown) : Prop where
  quiet : shutdown = .idle → ∃ id, Unfinished tasks id
  gathering : ∀ pending, shutdown = .gathering pending → pending ≠ []
  returned : shutdown ≠ .returned

/-- A task that is not over may report. -/
theorem KeptFor.mayReport (h : KeptFor exempt world tasks tracked ready shutdown)
    (hunfinished : Unfinished tasks id) : MayReport tasks shutdown where
  quiet := fun _ => ⟨id, hunfinished⟩
  gathering := by
    intro pending hpending
    exact List.ne_nil_of_mem ((h.gathering pending hpending).live id (Or.inl hunfinished))
  returned := fun hreturned => (h.returned hreturned).1 id (Or.inl hunfinished)

/-- A handle that is no callback of a task that is over, and does not resume the shutdown. -/
def Handle.IsPlain (handle : Handle) : Prop :=
  (∀ id, handle ≠ .jobDone id) ∧ (∀ id, handle ≠ .gathered id) ∧ handle ≠ .resumeShutdown

/-- **A plain handle** is put behind the others by somebody who may report. -/
theorem KeptFor.enqueue (h : KeptFor exempt world tasks tracked ready shutdown)
    (hplain : handle.IsPlain) (hmay : MayReport tasks shutdown) (hawake : Awake world')
    (hscheduled : world'.scheduled.Perm (eventsOf (ready ++ [handle])))
    (howned : ∀ entry ∈ world'.registry.entries, entry.finished = false →
      some entry.job.jobId ≠ exempt' → ∃ id task, Owns tasks ready id task ∧
        task.jobId = entry.job.jobId) :
    KeptFor exempt' world' tasks tracked (ready ++ [handle]) shutdown := by
  obtain ⟨hnotDone, hnotGathered, hnotResume⟩ := hplain
  -- whatever a clause of the invariant looks for was in the queue before
  have hold : ∀ {other}, other ≠ handle → other ∈ ready ++ [handle] → other ∈ ready := by
    intro other hne hin
    rw [List.mem_append, List.mem_singleton] at hin
    exact hin.resolve_right hne
  have hdone : ∀ id, .jobDone id ∈ ready ++ [handle] → .jobDone id ∈ ready :=
    fun id => hold (hnotDone id).symm
  have hgathered : ∀ id, .gathered id ∈ ready ++ [handle] → .gathered id ∈ ready :=
    fun id => hold (hnotGathered id).symm
  have hlive : ∀ id, Live tasks (ready ++ [handle]) id → Live tasks ready id :=
    fun id hid => hid.imp_right (hdone id)
  have hprecedes : ∀ {first id}, Precedes first (.jobDone id) (ready ++ [handle]) →
      Precedes first (.jobDone id) ready := by
    intro first id hid
    rcases precedes_append.1 hid with hold | ⟨-, hnew⟩ | hnew
    · exact hold
    · exact absurd (List.mem_singleton.1 hnew).symm (hnotDone id)
    · exact absurd hnew not_precedes_singleton
  constructor
  case awake => exact hawake
  case scheduled => exact hscheduled
  case owned =>
    intro entry hentry hunfinished hexempt
    obtain ⟨id, task, ⟨htask, hend⟩, hname⟩ := howned entry hentry hunfinished hexempt
    exact ⟨id, task, ⟨htask, hend.imp_right fun hraised =>
      ⟨hraised.1, List.mem_append_left _ hraised.2⟩⟩, hname⟩
  case tracked => exact fun id hid => h.tracked id (hlive id hid)
  case ended => exact fun id hid => h.ended id (hdone id hid)
  case single => exact fun id hid => h.single id (hprecedes hid)
  case resume => exact fun hid => h.resume (hold hnotResume.symm hid)
  case quiet =>
    intro hidle
    have hquiet := h.quiet hidle
    exact ⟨hquiet.calm, fun back _ => Or.inl (hmay.quiet hidle),
      fun id hid => hquiet.gathered id (hgathered id hid)⟩
  case gathering =>
    intro pending hpending
    have hgathering := h.gathering pending hpending
    exact ⟨fun id hid => hgathering.live id (hlive id hid), hgathering.started, hgathering.once,
      fun id hid => hgathering.gathered id (hgathered id hid),
      fun id hid => hgathering.order id (hprecedes hid),
      fun hnil => absurd hnil (hmay.gathering pending hpending)⟩
  case returned => exact fun hreturned => absurd hreturned hmay.returned

/-- **A report** sets the event of a job. -/
theorem KeptFor.announce (h : KeptFor exempt world tasks tracked ready shutdown)
    (hmay : MayReport tasks shutdown) (hawake : Awake world')
    (hscheduled : world'.scheduled = event :: world.scheduled)
    (howned : ∀ entry ∈ world'.registry.entries, entry.finished = false →
      some entry.job.jobId ≠ exempt' → ∃ id task, Owns tasks ready id task ∧
        task.jobId = entry.job.jobId) :
    KeptFor exempt' world' tasks tracked (ready ++ [.setEvent event]) shutdown := by
  refine h.enqueue ⟨nofun, nofun, nofun⟩ hmay hawake ?_ howned
  rw [hscheduled, eventsOf_append]
  exact (h.scheduled.cons event).trans (List.perm_append_singleton _ _).symm

/-- **A task that goes on** to another point. -/
theorem KeptFor.setTask {task' : JobTask} (h : KeptFor exempt world tasks tracked ready shutdown)
    (htask : tasks id = some task) (hunfinished : task.point.isDone = false)
    (hname : task'.jobId = task.jobId) (hcalm : task'.cancelling = false)
    (hpoint : task'.point.isDone = false) (hstarted : task'.point ≠ .created)
    (hstopping : task'.point = .stopping → shutdown ≠ .idle) :
    KeptFor exempt world (Function.update tasks id (some task')) tracked ready shutdown := by
  -- the task was not over and is not over, so the same tasks are live
  have hsame : ∀ other, Unfinished (Function.update tasks id (some task')) other ↔
      Unfinished tasks other := by
    intro other
    unfold Unfinished
    by_cases hother : other = id
    · subst hother
      rw [Function.update_self]
      exact ⟨fun _ => ⟨task, htask, hunfinished⟩, fun _ => ⟨task', rfl, hpoint⟩⟩
    · rw [Function.update_of_ne hother]
  have hlive : ∀ other, Live (Function.update tasks id (some task')) ready other ↔
      Live tasks ready other := fun other => or_congr_left (hsame other)
  have hcases : ∀ other found, Function.update tasks id (some task') other = some found →
      found = task' ∨ tasks other = some found := by
    intro other found hfound
    by_cases hother : other = id
    · subst hother
      rw [Function.update_self] at hfound
      exact Or.inl (Option.some.inj hfound).symm
    · rw [Function.update_of_ne hother] at hfound
      exact Or.inr hfound
  -- one case for each clause; only those that look at the point of the task change
  constructor
  case awake => exact h.awake
  case scheduled => exact h.scheduled
  case owned =>
    intro entry hentry hentryUnfinished hexempt
    obtain ⟨other, found, ⟨hfound, hend⟩, hentryName⟩ :=
      h.owned entry hentry hentryUnfinished hexempt
    by_cases hother : other = id
    · subst hother
      rw [htask] at hfound
      cases hfound
      exact ⟨other, task', ⟨Function.update_self .., Or.inl hpoint⟩, hname.trans hentryName⟩
    · exact ⟨other, found, ⟨(Function.update_of_ne hother _ _).trans hfound, hend⟩, hentryName⟩
  case tracked => exact fun other hother => h.tracked other ((hlive other).1 hother)
  case ended =>
    intro other hother
    have hended := h.ended other hother
    have hne : other ≠ id := by
      rintro rfl
      exact hended.not_unfinished ⟨task, htask, hunfinished⟩
    unfold Ended
    rw [Function.update_of_ne hne]
    exact hended
  case single => exact h.single
  case resume => exact h.resume
  case quiet =>
    intro hidle
    have hquiet := h.quiet hidle
    refine ⟨?_, ?_, hquiet.gathered⟩
    · intro other found hfound
      rcases hcases other found hfound with rfl | hold
      · refine ⟨hcalm, fun hpoint => hstopping hpoint hidle, ?_⟩
        intro hraised
        rw [hraised] at hpoint
        cases hpoint
      · exact hquiet.calm other found hold
    · intro back hback
      exact Or.inl ⟨id, (hsame id).2 ⟨task, htask, hunfinished⟩⟩
  case gathering =>
    intro pending hpending
    have hgathering := h.gathering pending hpending
    refine ⟨fun other hother => hgathering.live other ((hlive other).1 hother), ?_, ?_,
      fun other hother => (hsame other).not.2 (hgathering.gathered other hother),
      hgathering.order, hgathering.last⟩
    · intro other found hfound
      rcases hcases other found hfound with rfl | hold
      · exact hstarted
      · exact hgathering.started other found hold
    · intro other found hfound hpoint
      rcases hcases other found hfound with rfl | hold
      · exact hcalm
      · exact hgathering.once other found hold hpoint
  case returned =>
    intro hreturned
    exact absurd (Or.inl ⟨task, htask, hunfinished⟩) ((h.returned hreturned).1 id)

/-- The done callbacks of a task that is waited for include the one of the shutdown. -/
theorem doneCallbacks_cases (h : ∀ pending, loop.shutdown = .gathering pending → id ∈ pending) :
    (loop.doneCallbacks id = [.jobDone id] ∧ ∀ pending, loop.shutdown ≠ .gathering pending) ∨
      (loop.doneCallbacks id = [.jobDone id, .gathered id] ∧
        ∃ pending, loop.shutdown = .gathering pending) := by
  unfold Loop.doneCallbacks
  cases hshutdown : loop.shutdown with
  | idle => exact Or.inl ⟨rfl, nofun⟩
  | returned => exact Or.inl ⟨rfl, nofun⟩
  | gathering pending => exact Or.inr ⟨if_pos (h pending hshutdown), pending, rfl⟩

section Ending

variable {ending : Ending} {task' : JobTask} {callbacks : List Handle} {other : ℕ}
  {pending : List ℕ}

/-- The done callbacks of a task: that of the loop, and that of the shutdown if it waits. -/
def AreDoneCallbacks (id : ℕ) (callbacks : List Handle) : Prop :=
  callbacks = [.jobDone id] ∨ callbacks = [.jobDone id, .gathered id]

theorem AreDoneCallbacks.jobDone_mem (h : AreDoneCallbacks id callbacks) :
    .jobDone id ∈ callbacks := by
  rcases h with rfl | rfl <;> exact List.mem_cons_self

/-- They name the task. -/
theorem AreDoneCallbacks.eq_of_mem (h : AreDoneCallbacks id callbacks)
    (hmem : handle ∈ callbacks) : handle = .jobDone id ∨ handle = .gathered id := by
  rcases h with rfl | rfl
  · exact Or.inl (List.mem_singleton.1 hmem)
  · simpa using hmem

/-- They set no event. -/
theorem AreDoneCallbacks.eventsOf_eq (h : AreDoneCallbacks id callbacks) :
    eventsOf callbacks = [] := by
  refine eventsOf_of_none fun event hevent => ?_
  rcases h.eq_of_mem hevent with heq | heq <;> cases heq

/-- Only that task is newly known to be over. -/
theorem AreDoneCallbacks.jobDone_of_append (h : AreDoneCallbacks id callbacks)
    (hmem : .jobDone other ∈ ready ++ callbacks) : .jobDone other ∈ ready ∨ other = id := by
  refine (List.mem_append.1 hmem).imp_right fun hnew => ?_
  rcases h.eq_of_mem hnew with heq | heq
  · cases heq
    rfl
  · cases heq

/-- Two notices of one task that is newly over are old. -/
theorem AreDoneCallbacks.precedes_of_append (h : AreDoneCallbacks id callbacks)
    (hnone : .jobDone id ∉ ready)
    (hpair : Precedes (.jobDone other) (.jobDone other) (ready ++ callbacks)) :
    Precedes (.jobDone other) (.jobDone other) ready := by
  rcases precedes_append.1 hpair with hold | ⟨hold, hnew⟩ | hnew
  · exact hold
  · -- the old one is of a task that has just ended
    rcases h.eq_of_mem hnew with heq | heq
    · cases heq
      exact absurd hold hnone
    · cases heq
  · rcases h with rfl | rfl
    · exact absurd hnew not_precedes_singleton
    · cases (precedes_pair.1 hnew).2

/-- Where a task has ended, the others that are not over were not. -/
theorem unfinished_of_ended (hdone : task'.point.isDone = true)
    (h : Unfinished (Function.update tasks id (some task')) other) :
    Unfinished tasks other ∧ other ≠ id := by
  have hne : other ≠ id := by
    rintro rfl
    obtain ⟨found, hfound, hpoint⟩ := h
    rw [Function.update_self] at hfound
    cases hfound
    rw [hdone] at hpoint
    cases hpoint
  unfold Unfinished at h
  rw [Function.update_of_ne hne] at h
  exact ⟨h, hne⟩

/-- Nobody becomes live when a task ends. -/
theorem live_of_ended (hare : AreDoneCallbacks id callbacks) (hdone : task'.point.isDone = true)
    (hlive : Live tasks ready id)
    (h : Live (Function.update tasks id (some task')) (ready ++ callbacks) other) :
    Live tasks ready other := by
  rcases h with hopen | hmem
  · exact Or.inl (unfinished_of_ended hdone hopen).1
  · rcases hare.jobDone_of_append hmem with hold | rfl
    · exact Or.inr hold
    · exact hlive

/-- **Before the shutdown** a task ends without being cancelled, and its notice is the last
handle. -/
theorem Quiet.endTask (h : Quiet tasks ready) (hcalm : task'.cancelling = false)
    (hpoint : task'.point = .done ending) (hraised : ending ≠ .raised) :
    Quiet (Function.update tasks id (some task')) (ready ++ [.jobDone id]) where
  calm := by
    intro other found hfound
    by_cases hsame : other = id
    · subst hsame
      rw [Function.update_self] at hfound
      cases hfound
      rw [hpoint]
      exact ⟨hcalm, nofun, fun heq => hraised (Point.done.inj heq)⟩
    · rw [Function.update_of_ne hsame] at hfound
      exact h.calm other found hfound
  announced := by
    intro back hback
    rw [List.suffix_concat_iff] at hback
    rcases hback with rfl | ⟨front, rfl, -⟩
    · exact Or.inr (Or.inl rfl)
    · exact Or.inr (Or.inr ⟨id, List.mem_append_right _ List.mem_cons_self⟩)
  gathered := by
    intro other hmem
    rcases List.mem_append.1 hmem with hold | hnew
    · exact h.gathered other hold
    · cases List.mem_singleton.1 hnew

/-- **While the shutdown waits** a task that ends is waited for, and the shutdown is told after the
loop. -/
theorem Gathering.endTask (h : Gathering tasks ready pending) (hunfinished : Unfinished tasks id)
    (hcalm : task'.cancelling = false) (hpoint : task'.point = .done ending) :
    Gathering (Function.update tasks id (some task')) (ready ++ [.jobDone id, .gathered id])
      pending where
  live := by
    intro other hother
    exact h.live other (live_of_ended (Or.inr rfl) (by rw [hpoint]; rfl) (Or.inl hunfinished)
      hother)
  started := by
    intro other found hfound
    by_cases hsame : other = id
    · subst hsame
      rw [Function.update_self] at hfound
      cases hfound
      rw [hpoint]
      nofun
    · rw [Function.update_of_ne hsame] at hfound
      exact h.started other found hfound
  once := by
    intro other found hfound hstopping
    by_cases hsame : other = id
    · subst hsame
      rw [Function.update_self] at hfound
      cases hfound
      exact hcalm
    · rw [Function.update_of_ne hsame] at hfound
      exact h.once other found hfound hstopping
  gathered := by
    intro other hmem hopen
    obtain ⟨hopen, hne⟩ := unfinished_of_ended (by rw [hpoint]; rfl) hopen
    rcases List.mem_append.1 hmem with hold | hnew
    · exact h.gathered other hold hopen
    · -- of the new handles only that of the task itself tells the shutdown
      simp only [List.mem_cons, reduceCtorEq, Handle.gathered.injEq, false_or,
        List.not_mem_nil, or_false] at hnew
      exact hne hnew
  order := by
    intro other hpair
    rcases precedes_append.1 hpair with hold | ⟨hold, hnew⟩ | hnew
    · exact h.order other hold
    · simp only [List.mem_cons, reduceCtorEq, Handle.jobDone.injEq, List.not_mem_nil,
        or_false] at hnew
      exact h.gathered other hold (hnew ▸ hunfinished)
    · cases (precedes_pair.1 hnew).1
  last := fun hnil => absurd hnil (List.ne_nil_of_mem (h.live id (Or.inl hunfinished)))

/-- A job that was owned still is when a task ends that has settled its own job, or raises. -/
theorem owns_of_ended (hare : AreDoneCallbacks id callbacks) (htask : tasks id = some task)
    (hpoint : task'.point = .done ending) (hname : task'.jobId = task.jobId)
    (hsettled : ending = .raised ∨ jobId ≠ task.jobId)
    (h : ∃ other found, Owns tasks ready other found ∧ found.jobId = jobId) :
    ∃ other found, Owns (Function.update tasks id (some task')) (ready ++ callbacks) other found ∧
      found.jobId = jobId := by
  obtain ⟨other, found, ⟨hfound, hend⟩, rfl⟩ := h
  by_cases hsame : other = id
  · subst hsame
    rw [htask] at hfound
    cases hfound
    rcases hsettled with rfl | hne
    · -- its done callback is to settle the job
      exact ⟨other, task', ⟨Function.update_self .., Or.inr ⟨hpoint,
        List.mem_append_right _ hare.jobDone_mem⟩⟩, hname⟩
    · exact absurd rfl hne
  · exact ⟨other, found, ⟨(Function.update_of_ne hsame _ _).trans hfound,
      hend.imp_right fun hraised => ⟨hraised.1, List.mem_append_left _ hraised.2⟩⟩, rfl⟩

/-- **A task that ends** has settled its job, or leaves that to its done callback. -/
theorem KeptFor.endTask (h : KeptFor none world tasks tracked ready shutdown)
    (htask : tasks id = some task) (hunfinished : task.point.isDone = false)
    (hsettled : ending = .raised ∨ ∀ entry ∈ world.registry.entries,
      entry.job.jobId = task.jobId → entry.finished = true)
    (hquiet : shutdown = .idle → ending ≠ .raised)
    (hcallbacks : (callbacks = [.jobDone id] ∧ ∀ pending, shutdown ≠ .gathering pending) ∨
      (callbacks = [.jobDone id, .gathered id] ∧ ∃ pending, shutdown = .gathering pending)) :
    KeptFor none world (Function.update tasks id
        (some { task with point := .done ending, cancelling := false })) tracked
      (ready ++ callbacks) shutdown := by
  have hopen : Unfinished tasks id := ⟨task, htask, hunfinished⟩
  have hare : AreDoneCallbacks id callbacks := hcallbacks.imp And.left And.left
  have hlives : ∀ other, Live (Function.update tasks id
      (some { task with point := .done ending, cancelling := false })) (ready ++ callbacks) other →
      Live tasks ready other := fun _ => live_of_ended hare rfl (Or.inl hopen)
  -- the last clauses depend on whether the shutdown waits
  constructor
  case awake => exact h.awake
  case scheduled =>
    rw [eventsOf_append, hare.eventsOf_eq, List.append_nil]
    exact h.scheduled
  case owned =>
    intro entry hentry hentryUnfinished hexempt
    refine owns_of_ended hare htask rfl rfl (hsettled.imp_right fun hfinished hname => ?_)
      (h.owned entry hentry hentryUnfinished hexempt)
    rw [hfinished entry hentry hname] at hentryUnfinished
    cases hentryUnfinished
  case tracked => exact fun other hother => h.tracked other (hlives other hother)
  case ended =>
    intro other hmem
    by_cases hsame : other = id
    · subst hsame
      exact ⟨_, Function.update_self .., rfl⟩
    · unfold Ended
      rw [Function.update_of_ne hsame]
      exact h.ended other ((hare.jobDone_of_append hmem).resolve_right hsame)
  case single =>
    exact fun other hpair => h.single other
      (hare.precedes_of_append (fun hin => (h.ended id hin).not_unfinished hopen) hpair)
  case resume =>
    intro hmem
    refine h.resume ((List.mem_append.1 hmem).resolve_right fun hnew => ?_)
    rcases hare.eq_of_mem hnew with heq | heq <;> cases heq
  case quiet =>
    intro hidle
    rcases hcallbacks with ⟨rfl, -⟩ | ⟨-, pending, hpending⟩
    · exact (h.quiet hidle).endTask rfl rfl (hquiet hidle)
    · rw [hidle] at hpending
      cases hpending
  case gathering =>
    intro pending hpending
    rcases hcallbacks with ⟨-, hnot⟩ | ⟨rfl, -⟩
    · exact absurd hpending (hnot pending)
    · exact (h.gathering pending hpending).endTask hopen rfl rfl
  case returned => exact fun hreturned => absurd (Or.inl hopen) ((h.returned hreturned).1 id)

end Ending

/-- A task may end once it has settled its job. -/
theorem Kept.finish {ending : Ending} (h : Kept loop) (htask : loop.tasks id = some task)
    (hunfinished : task.point.isDone = false)
    (hsettled : ending = .raised ∨ ∀ entry ∈ loop.world.registry.entries,
      entry.job.jobId = task.jobId → entry.finished = true)
    (hquiet : loop.shutdown = .idle → ending ≠ .raised) :
    Kept (loop.finish id task ending) := by
  have hpending : ∀ pending, (loop.releaseGate id).shutdown = .gathering pending →
      id ∈ pending := fun pending hgathering =>
    (KeptFor.gathering h pending hgathering).live id (Or.inl ⟨task, htask, hunfinished⟩)
  exact KeptFor.endTask h htask hunfinished hsettled hquiet (doneCallbacks_cases hpending)

/-! ### Reports -/

/-- Every job of the given name is terminal. -/
def HasSettled (loop : Loop π) (jobId : String) : Prop :=
  ∀ entry ∈ loop.world.registry.entries, entry.job.jobId = jobId → entry.finished = true

/-- What a report does: one job is updated and its event asked to be set. -/
theorem report_eq_some (h : loop.report jobId status stamp = some loop') :
    ∃ registry event, loop.world.registry.update jobId status stamp.now (stamp.details status) =
        .ok (registry, event) ∧
      loop' = { loop with
        world := { loop.world with
          registry := registry
          scheduled := event :: loop.world.scheduled }
        ready := loop.ready ++ [.setEvent event] } := by
  unfold Loop.report at h
  split at h
  · cases h
  · next registry event hupdate =>
    cases h
    exact ⟨registry, event, hupdate, rfl⟩

/-- A report leaves the tasks and the shutdown alone. -/
theorem report_frame (h : loop.report jobId status stamp = some loop') :
    loop'.tasks = loop.tasks ∧ loop'.shutdown = loop.shutdown := by
  obtain ⟨registry, event, -, rfl⟩ := report_eq_some h
  exact ⟨rfl, rfl⟩

/-- The jobs after a report: the named one has the status, the others are as before. -/
theorem entries_of_report (h : loop.report jobId status stamp = some loop') :
    ∀ entry ∈ loop'.world.registry.entries,
      (entry.job.jobId = jobId → entry.finished = status.isTerminal) ∧
      (entry.job.jobId ≠ jobId → entry ∈ loop.world.registry.entries) := by
  obtain ⟨registry, event, hupdate, rfl⟩ := report_eq_some h
  obtain ⟨found, -, -, -, -, hentries⟩ := Registry.update_eq_ok hupdate
  intro entry hentry
  change entry ∈ registry.entries at hentry
  rw [hentries] at hentry
  obtain ⟨before, hbefore, rfl⟩ := List.mem_map.1 hentry
  by_cases hname : before.job.jobId = jobId
  · -- the entry that was updated
    rw [if_pos hname]
    exact ⟨fun _ => rfl, fun hne => absurd hname hne⟩
  · rw [if_neg hname]
    exact ⟨fun heq => absurd heq hname, fun _ => hbefore⟩

/-- **A terminal report** needs nobody to settle its job any more. -/
theorem KeptFor.reportTerminal
    (h : KeptFor (some jobId) loop.world loop.tasks loop.tracked loop.ready loop.shutdown)
    (hmay : MayReport loop.tasks loop.shutdown) (hterminal : status.isTerminal = true)
    (hreport : loop.report jobId status stamp = some loop') :
    Kept loop' ∧ HasSettled loop' jobId := by
  have hentries := entries_of_report hreport
  refine ⟨?_, fun entry hentry hname => ((hentries entry hentry).1 hname).trans hterminal⟩
  obtain ⟨registry, event, hupdate, rfl⟩ := report_eq_some hreport
  refine h.announce hmay (h.awake.update hupdate) rfl ?_
  intro entry hentry hunfinished _
  by_cases hname : entry.job.jobId = jobId
  · rw [(hentries entry hentry).1 hname, hterminal] at hunfinished
    cases hunfinished
  · exact h.owned entry ((hentries entry hentry).2 hname) hunfinished
      fun heq => hname (Option.some.inj heq)

/-- A report of a task that is still to settle its job. -/
theorem Kept.report (h : Kept loop) (htask : loop.tasks id = some task)
    (hunfinished : task.point.isDone = false)
    (hreport : loop.report task.jobId status stamp = some loop') : Kept loop' := by
  have hentries := entries_of_report hreport
  have hmay := KeptFor.mayReport h ⟨task, htask, hunfinished⟩
  obtain ⟨registry, event, hupdate, rfl⟩ := report_eq_some hreport
  refine KeptFor.announce h hmay ((KeptFor.awake h).update hupdate) rfl ?_
  intro entry hentry hopen _
  by_cases hname : entry.job.jobId = task.jobId
  · exact ⟨id, task, ⟨htask, Or.inl hunfinished⟩, hname.symm⟩
  · exact KeptFor.owned h entry ((hentries entry hentry).2 hname) hopen nofun

/-- A job that is known can be reported. -/
theorem exists_report {entry : Entry π} (h : loop.world.registry.get jobId = some entry) :
    ∃ loop', loop.report jobId status stamp = some loop' := by
  unfold Loop.report Registry.update
  rw [h]
  exact ⟨_, rfl⟩

/-- **Settling a job** makes it terminal, whoever was to do it. -/
theorem KeptFor.settle (stamp : Stamp π)
    (h : KeptFor (some jobId) loop.world loop.tasks loop.tracked loop.ready loop.shutdown)
    (hmay : MayReport loop.tasks loop.shutdown) :
    Kept (loop.settle jobId stamp) ∧ HasSettled (loop.settle jobId stamp) jobId ∧
      (loop.settle jobId stamp).tasks = loop.tasks ∧
      (loop.settle jobId stamp).shutdown = loop.shutdown := by
  have hkept : HasSettled loop jobId → Kept loop := by
    intro hsettled
    refine { h with owned := fun entry hentry hopen _ => h.owned entry hentry hopen ?_ }
    intro heq
    rw [hsettled entry hentry (Option.some.inj heq)] at hopen
    cases hopen
  unfold Loop.settle
  cases hget : loop.world.registry.get jobId with
  | none =>
    -- a job that was dropped needs no report
    have hsettled : HasSettled loop jobId := fun entry hentry hname =>
      absurd hname (Registry.get_eq_none hget entry hentry)
    exact ⟨hkept hsettled, hsettled, rfl, rfl⟩
  | some entry =>
    obtain ⟨hentry, hname⟩ := Registry.get_eq_some hget
    by_cases hfinished : entry.finished = true
    · -- it is terminal already, and there is one entry of that name
      simp only [if_pos hfinished]
      have hsettled : HasSettled loop jobId := by
        intro other hother hsame
        rw [h.awake.registry.eq_of_jobId_eq hother hentry (hsame.trans hname.symm)]
        exact hfinished
      exact ⟨hkept hsettled, hsettled, trivial, trivial⟩
    · -- it is reported as failed
      simp only [if_neg hfinished]
      obtain ⟨loop', hreport⟩ : ∃ loop', loop.report jobId .failed stamp = some loop' :=
        exists_report hget
      obtain ⟨hdone, hsettled⟩ := h.reportTerminal hmay rfl hreport
      obtain ⟨htasks, hshutdown⟩ := report_frame hreport
      rw [hreport]
      exact ⟨hdone, hsettled, htasks, hshutdown⟩

/-! ### Steps of tasks -/

/-- A task that settles its job and ends. -/
theorem Kept.settleFinish {ending : Ending} (h : Kept loop) (htask : loop.tasks id = some task)
    (hunfinished : task.point.isDone = false) (hending : ending ≠ .raised) :
    Kept ((loop.settle task.jobId stamp).finish id task ending) := by
  obtain ⟨hkept, hsettled, htasks, -⟩ := KeptFor.settle stamp (KeptFor.weaken h)
    (KeptFor.mayReport h ⟨task, htask, hunfinished⟩)
  exact hkept.finish (by rw [htasks]; exact htask) hunfinished (Or.inr hsettled)
    fun _ => hending

/-- A task that goes on. -/
theorem Kept.suspend {point : Point} (h : Kept loop) (htask : loop.tasks id = some task)
    (hunfinished : task.point.isDone = false) (hpoint : point.isDone = false)
    (hstarted : point ≠ .created) (hstopping : point = .stopping → loop.shutdown ≠ .idle) :
    Kept (loop.suspend id task point) :=
  KeptFor.setTask h htask hunfinished rfl rfl hpoint hstarted hstopping

/-- The body past the gate. -/
theorem Kept.enter (h : Kept loop) (htask : loop.tasks id = some task)
    (hunfinished : task.point.isDone = false) : Kept (loop.enter id task reply stamp) := by
  have hgate : Kept { loop with gate := some id } := h
  unfold Loop.enter
  split
  · exact hgate.settleFinish htask hunfinished nofun
  · next loop' hreport =>
    have hkept := hgate.report htask hunfinished hreport
    have htask' : loop'.tasks id = some task := by
      rw [(report_frame hreport).1]
      exact htask
    split
    · exact hkept.settleFinish htask' hunfinished nofun
    · exact hkept.suspend htask' hunfinished rfl nofun nofun

/-- A cancelled task that has started settles its job, or leaves that to its done callback. -/
theorem Kept.cancelled (h : Kept loop) (htask : loop.tasks id = some task)
    (hcancelling : task.cancelling = true) : Kept (loop.cancelled id task reply stamp) := by
  by_cases hdone : task.point.isDone = true
  · unfold Loop.cancelled
    cases hpoint : task.point with
    | done ending => exact h
    | _ =>
      rw [hpoint] at hdone
      cases hdone
  have hunfinished : task.point.isDone = false := Bool.eq_false_of_not_eq_true hdone
  -- nothing is cancelled outside the shutdown
  have hbusy : loop.shutdown ≠ .idle := by
    intro hidle
    have hcalm := ((KeptFor.quiet h hidle).calm id task htask).1
    rw [hcancelling] at hcalm
    cases hcalm
  have hgathering : ∃ pending, loop.shutdown = .gathering pending := by
    cases hshutdown : loop.shutdown with
    | idle => exact absurd hshutdown hbusy
    | gathering pending => exact ⟨pending, rfl⟩
    | returned =>
      exact absurd (Or.inl ⟨task, htask, hunfinished⟩) ((KeptFor.returned h hshutdown).1 id)
  obtain ⟨pending, hpending⟩ := hgathering
  have hduring := KeptFor.gathering h pending hpending
  have hraise : Kept (loop.finish id task .raised) :=
    h.finish htask hunfinished (Or.inl rfl) fun hidle => absurd hidle hbusy
  have hsettle : Kept ((loop.settle task.jobId stamp).finish id task .cancelled) :=
    h.settleFinish htask hunfinished nofun
  unfold Loop.cancelled
  cases hpoint : task.point with
  | created => exact absurd hpoint (hduring.started id task htask)
  | atGate => exact hsettle
  | launching => exact hsettle
  | communicating =>
    cases reply with
    | pending =>
      -- the process still runs, so the task waits for its end
      have hgate : Kept (loop.releaseGate id) := h
      exact hgate.suspend htask hunfinished rfl nofun fun _ => hbusy
    | failed => exact hraise
    | answered success => exact hsettle
  | stopping =>
    -- a task is cancelled once
    rw [hduring.once id task htask hpoint] at hcancelling
    cases hcancelling
  | done ending => exact h

/-- A task that goes on where it is suspended. -/
theorem Kept.resumed (h : Kept loop) (htask : loop.tasks id = some task) :
    Kept (loop.resumed id task reply stamp) := by
  by_cases hdone : task.point.isDone = true
  · unfold Loop.resumed
    cases hpoint : task.point with
    | done ending => exact h
    | _ =>
      rw [hpoint] at hdone
      cases hdone
  have hunfinished : task.point.isDone = false := Bool.eq_false_of_not_eq_true hdone
  have hsettle : ∀ {ending}, ending ≠ .raised →
      Kept ((loop.settle task.jobId stamp).finish id task ending) :=
    fun hending => h.settleFinish htask hunfinished hending
  unfold Loop.resumed
  cases hpoint : task.point with
  | created =>
    -- the first statement looks the job up
    simp only
    split
    · next hget =>
      refine h.finish htask hunfinished (Or.inr fun entry hentry hname => ?_) nofun
      exact absurd hname (Registry.get_eq_none hget entry hentry)
    · split
      · exact h.enter htask hunfinished
      · exact h.suspend htask hunfinished rfl nofun nofun
  | atGate => exact h.enter htask hunfinished
  | launching =>
    simp only
    split
    · exact hsettle nofun
    · exact h.suspend htask hunfinished rfl nofun nofun
  | communicating =>
    cases reply with
    | pending => exact h
    | failed => exact hsettle nofun
    | answered success =>
      -- either answer is reported with a terminal status
      simp only
      split
      · exact hsettle nofun
      · next loop' hreport =>
        have hterminal : (if success = true then JobStateValue.succeeded else .failed).isTerminal =
            true := by
          cases success <;> rfl
        obtain ⟨hkept, hsettled⟩ := KeptFor.reportTerminal (KeptFor.weaken h)
          (KeptFor.mayReport h ⟨task, htask, hunfinished⟩) hterminal hreport
        refine hkept.finish ?_ hunfinished (Or.inr hsettled) nofun
        rw [(report_frame hreport).1]
        exact htask
  | stopping =>
    -- a process is only stopped during the shutdown
    have hbusy : loop.shutdown ≠ .idle := fun hidle =>
      ((KeptFor.quiet h hidle).calm id task htask).2.1 hpoint
    cases reply with
    | pending => exact h
    | failed => exact h.finish htask hunfinished (Or.inl rfl) fun hidle => absurd hidle hbusy
    | answered success => exact hsettle nofun
  | done ending => exact h

/-- **A step of a task keeps the invariant.** -/
theorem Kept.advance (h : Kept loop) : Kept (loop.advance id reply stamp) := by
  unfold Loop.advance
  split
  · exact h
  · next task htask =>
    split
    · next hcancelling => exact h.cancelled htask hcancelling
    · exact h.resumed htask

/-! ### The front of the queue -/

/-- A handle that is no done callback of a task may go. -/
theorem KeptFor.pop (h : KeptFor none world tasks tracked (handle :: rest) shutdown)
    (hawake : Awake world') (hregistry : world'.registry = world.registry)
    (hscheduled : world'.scheduled.Perm (eventsOf rest)) (hother : ∀ id, handle ≠ .jobDone id) :
    KeptFor none world' tasks tracked rest shutdown := by
  have hdone : ∀ id, .jobDone id ∈ handle :: rest → .jobDone id ∈ rest := by
    intro id hin
    exact (List.mem_cons.1 hin).resolve_left fun heq => hother id heq.symm
  have hlive : ∀ id, Live tasks rest id → Live tasks (handle :: rest) id :=
    fun id hin => hin.imp_right (List.mem_cons_of_mem _)
  constructor
  case awake => exact hawake
  case scheduled => exact hscheduled
  case owned =>
    intro entry hentry hunfinished hexempt
    rw [hregistry] at hentry
    obtain ⟨id, task, ⟨htask, hend⟩, hname⟩ := h.owned entry hentry hunfinished hexempt
    exact ⟨id, task, ⟨htask, hend.imp_right fun hraised =>
      ⟨hraised.1, hdone id hraised.2⟩⟩, hname⟩
  case tracked => exact fun id hin => h.tracked id (hlive id hin)
  case ended => exact fun id hin => h.ended id (List.mem_cons_of_mem _ hin)
  case single => exact fun id hin => h.single id hin.of_tail
  case resume => exact fun hin => h.resume (List.mem_cons_of_mem _ hin)
  case quiet =>
    -- what follows a handle in the rest follows it in the queue
    intro hidle
    have hquiet := h.quiet hidle
    exact ⟨hquiet.calm, fun back hback => hquiet.announced back (hback.trans (List.suffix_cons ..)),
      fun id hin => hquiet.gathered id (List.mem_cons_of_mem _ hin)⟩
  case gathering =>
    intro pending hpending
    have hgathering := h.gathering pending hpending
    exact ⟨fun id hin => hgathering.live id (hlive id hin), hgathering.started, hgathering.once,
      fun id hin => hgathering.gathered id (List.mem_cons_of_mem _ hin),
      fun id hin => hgathering.order id hin.of_tail,
      fun hnil back hback => hgathering.last hnil back (hback.trans (List.suffix_cons ..))⟩
  case returned =>
    intro hreturned
    obtain ⟨hnone, hevents⟩ := h.returned hreturned
    refine ⟨fun id hin => hnone id (hlive id hin), ?_⟩
    change eventsOf ([handle] ++ rest) = [] at hevents
    rw [eventsOf_append, List.append_eq_nil_iff] at hevents
    exact hevents.2

/-- An event is set. -/
theorem Kept.setEvent (h : Kept loop) (hidle : loop.world.active = none)
    (hready : loop.ready = .setEvent event :: rest) :
    Kept ({ loop with ready := rest }.handle reply stamp (.setEvent event)) := by
  unfold Kept at h
  rw [hready] at h
  refine h.pop (h.awake.fire hidle) rfl ?_ nofun
  have herase := h.scheduled.erase event
  change (loop.world.scheduled.erase event).Perm ((event :: eventsOf rest).erase event) at herase
  rw [List.erase_cons_head] at herase
  exact herase

/-- A task takes its step. -/
theorem Kept.stepTask (h : Kept loop) (hready : loop.ready = .step id :: rest) :
    Kept ({ loop with ready := rest }.handle reply stamp (.step id)) := by
  unfold Kept at h
  rw [hready] at h
  have hpopped : Kept { loop with ready := rest } := h.pop h.awake rfl h.scheduled nofun
  exact hpopped.advance

/-- What is left of the invariant when the done callback of a task runs: everything, except that
nobody owns the job of a task that raised. -/
theorem KeptFor.popDone (h : KeptFor none world tasks tracked (.jobDone id :: rest) shutdown)
    (htask : ∀ task, tasks id = some task → task.point = .done .raised →
      exempt = some task.jobId) :
    KeptFor exempt world tasks (tracked.filter (· ≠ id)) rest shutdown := by
  -- the task is over, and its done callback was scheduled once
  have hover : ¬Unfinished tasks id := (h.ended id List.mem_cons_self).not_unfinished
  have hgone : .jobDone id ∉ rest := fun hin => h.single id (precedes_of_head hin)
  have hlive : ∀ other, Live tasks rest other → Live tasks (.jobDone id :: rest) other ∧
      other ≠ id := by
    intro other hin
    refine ⟨hin.imp_right (List.mem_cons_of_mem _), ?_⟩
    rintro rfl
    exact hin.elim hover hgone
  constructor
  case awake => exact h.awake
  case scheduled => exact h.scheduled
  case owned =>
    intro entry hentry hunfinished hexempt
    obtain ⟨other, task, ⟨hfound, hend⟩, hname⟩ := h.owned entry hentry hunfinished nofun
    refine ⟨other, task, ⟨hfound, hend.imp_right fun hraised => ⟨hraised.1, ?_⟩⟩, hname⟩
    refine (List.mem_cons.1 hraised.2).resolve_left fun heq => hexempt ?_
    cases heq
    rw [htask task hfound hraised.1, hname]
  case tracked =>
    intro other hin
    obtain ⟨hin, hne⟩ := hlive other hin
    exact List.mem_filter.2 ⟨h.tracked other hin, by simpa using hne⟩
  case ended => exact fun other hin => h.ended other (List.mem_cons_of_mem _ hin)
  case single => exact fun other hin => h.single other hin.of_tail
  case resume => exact fun hin => h.resume (List.mem_cons_of_mem _ hin)
  case quiet =>
    intro hidle
    have hquiet := h.quiet hidle
    exact ⟨hquiet.calm, fun back hback => hquiet.announced back (hback.trans (List.suffix_cons ..)),
      fun other hin => hquiet.gathered other (List.mem_cons_of_mem _ hin)⟩
  case gathering =>
    intro pending hpending
    have hgathering := h.gathering pending hpending
    exact ⟨fun other hin => hgathering.live other (hlive other hin).1, hgathering.started,
      hgathering.once, fun other hin => hgathering.gathered other (List.mem_cons_of_mem _ hin),
      fun other hin => hgathering.order other hin.of_tail,
      fun hnil back hback => hgathering.last hnil back (hback.trans (List.suffix_cons ..))⟩
  case returned =>
    intro hreturned
    exact absurd (Or.inr List.mem_cons_self) ((h.returned hreturned).1 id)

/-- `_job_done` settles the job of a task that raised. -/
theorem Kept.jobDone (h : Kept loop) (hready : loop.ready = .jobDone id :: rest) :
    Kept ({ loop with ready := rest }.handle reply stamp (.jobDone id)) := by
  unfold Kept at h
  rw [hready] at h
  change Kept ({ loop with ready := rest }.jobDone id stamp)
  unfold Loop.jobDone
  -- without a task the callback has nothing to settle
  cases htask : loop.tasks id with
  | none =>
    simp only [htask]
    refine h.popDone fun task hfound => ?_
    rw [htask] at hfound
    cases hfound
  | some task =>
    by_cases hraised : task.point = .done .raised
    · -- the job of a task that raised has no owner until it is settled here
      simp only [htask, hraised, if_true]
      let popped : Loop π :=
        { loop with ready := rest, tracked := loop.tracked.filter (· ≠ id) }
      have hpopped : KeptFor (some task.jobId) popped.world popped.tasks popped.tracked
          popped.ready popped.shutdown := by
        refine h.popDone fun found hfound _ => ?_
        rw [htask] at hfound
        cases hfound
        rfl
      have hmay : MayReport popped.tasks popped.shutdown := by
        refine ⟨?_, ?_, ?_⟩
        · intro hidle
          exact absurd hraised ((h.quiet hidle).calm id task htask).2.2
        · intro pending hpending
          exact List.ne_nil_of_mem
            ((h.gathering pending hpending).live id (Or.inr List.mem_cons_self))
        · exact fun hreturned => (h.returned hreturned).1 id (Or.inr List.mem_cons_self)
      exact (KeptFor.settle stamp hpopped hmay).1
    · simp only [htask, hraised, if_false]
      refine h.popDone fun found hfound hpoint => ?_
      rw [htask] at hfound
      cases hfound
      exact absurd hpoint hraised

section Waiting

variable {pending pending' : List ℕ}

/-- A task whose end the shutdown hears of is not live any more. -/
theorem Gathering.live_of_gathered (h : Gathering tasks (.gathered id :: rest) pending) {other : ℕ}
    (hother : Live tasks rest other) : other ∈ pending.filter (· ≠ id) := by
  have hlive : Live tasks (.gathered id :: rest) other :=
    hother.imp_right (List.mem_cons_of_mem _)
  refine List.mem_filter.2 ⟨h.live other hlive, ?_⟩
  rw [decide_eq_true_eq]
  rintro rfl
  -- it is over, and its own done callback has run
  rcases hother with hopen | hmem
  · exact h.gathered other List.mem_cons_self hopen
  · exact h.order other (precedes_of_head hmem)

/-- The shutdown that nobody holds up is resumed behind everything scheduled. -/
theorem Gathering.wake (h : Gathering tasks rest pending) (hnone : ∀ other, ¬Live tasks rest other)
    (hfirst : .resumeShutdown ∉ rest) : Gathering tasks (rest ++ [.resumeShutdown]) [] where
  live := by
    rintro other (hopen | hmem)
    · exact absurd (Or.inl hopen) (hnone other)
    · exact absurd (Or.inr (by simpa using hmem)) (hnone other)
  started := h.started
  once := h.once
  gathered := fun other hmem => h.gathered other (by simpa using hmem)
  order := by
    intro other hpair
    have hmem := hpair.subset (List.mem_cons_of_mem _ List.mem_cons_self)
    exact hnone other (Or.inr (by simpa using hmem))
  last := by
    intro _ back hback
    rw [List.suffix_concat_iff] at hback
    rcases hback with heq | ⟨front, heq, hfront⟩
    · cases heq
    · -- there is one resumption only, at the end
      cases front with
      | nil =>
        cases heq
        rfl
      | cons first front =>
        cases heq
        exact absurd (hfront.subset List.mem_cons_self) hfirst

/-- **Nobody is waited for any more.** -/
theorem KeptFor.wake (h : KeptFor none world tasks tracked rest (.gathering pending))
    (hnone : ∀ other, ¬Live tasks rest other) (hwaited : pending ≠ []) :
    KeptFor none world tasks tracked (rest ++ [.resumeShutdown]) (.gathering []) := by
  -- it has not been resumed before, as somebody was waited for
  have hfirst : .resumeShutdown ∉ rest := by
    intro hmem
    have hnil := (h.resume hmem).resolve_right nofun
    exact hwaited (Shutdown.gathering.inj hnil)
  have hdone : ∀ other, .jobDone other ∉ rest ++ [.resumeShutdown] := by
    intro other hmem
    exact hnone other (Or.inr (by simpa using hmem))
  have hgathering := (h.gathering pending rfl).wake hnone hfirst
  constructor
  case awake => exact h.awake
  case scheduled =>
    rw [eventsOf_append]
    exact h.scheduled.trans (List.append_nil _ ▸ .refl _)
  case owned =>
    intro entry hentry hunfinished hexempt
    obtain ⟨other, task, ⟨htask, hend⟩, hname⟩ := h.owned entry hentry hunfinished hexempt
    exact ⟨other, task, ⟨htask, hend.imp_right fun hraised =>
      ⟨hraised.1, List.mem_append_left _ hraised.2⟩⟩, hname⟩
  case tracked => exact fun other hother => absurd (hgathering.live other hother) List.not_mem_nil
  case ended => exact fun other hmem => absurd hmem (hdone other)
  case single => exact fun other hpair => hdone other (hpair.subset List.mem_cons_self)
  case resume => exact fun _ => Or.inl rfl
  case quiet => nofun
  case gathering =>
    intro pending' hpending
    cases hpending
    exact hgathering
  case returned => nofun

/-- Others are still waited for. -/
theorem KeptFor.waitFor (h : KeptFor none world tasks tracked rest (.gathering pending))
    (hwaits : ∀ other, Live tasks rest other → other ∈ pending')
    (hnil : pending = [] → pending' = []) (hlast : pending' = [] → pending = []) :
    KeptFor none world tasks tracked rest (.gathering pending') :=
  { h with
    resume := by
      intro hmem
      have hempty := (h.resume hmem).resolve_right nofun
      rw [hnil (Shutdown.gathering.inj hempty)]
      exact Or.inl rfl
    quiet := nofun
    gathering := by
      intro _ hpending
      cases hpending
      have hbefore := h.gathering pending rfl
      exact { hbefore with live := hwaits, last := fun hempty => hbefore.last (hlast hempty) }
    returned := nofun }

end Waiting

/-- The shutdown hears of the end of a task. -/
theorem Kept.gathered (h : Kept loop) (hready : loop.ready = .gathered id :: rest) :
    Kept ({ loop with ready := rest }.handle reply stamp (.gathered id)) := by
  unfold Kept at h
  rw [hready] at h
  have hpopped : KeptFor none loop.world loop.tasks loop.tracked rest loop.shutdown :=
    h.pop h.awake rfl h.scheduled nofun
  change Kept ({ loop with ready := rest }.gathered id)
  unfold Loop.gathered
  cases hshutdown : loop.shutdown with
  | idle => exact absurd List.mem_cons_self ((h.quiet hshutdown).gathered id)
  | returned =>
    rw [hshutdown] at hpopped
    exact hpopped
  | gathering pending =>
    rw [hshutdown] at hpopped
    have hwaits : ∀ other, Live loop.tasks rest other → other ∈ pending.filter (· ≠ id) :=
      fun _ => (h.gathering pending hshutdown).live_of_gathered
    simp only
    -- the last one that was waited for resumes the shutdown
    by_cases hlast : pending ≠ [] ∧ pending.filter (· ≠ id) = []
    · rw [if_pos hlast]
      refine hlast.2 ▸ hpopped.wake (fun other hother => ?_) hlast.1
      have hmem := hwaits other hother
      rw [hlast.2] at hmem
      exact List.not_mem_nil hmem
    · rw [if_neg hlast]
      refine hpopped.waitFor hwaits (fun hnil => ?_) fun hnil => ?_
      · rw [hnil]
        rfl
      · by_contra hne
        exact hlast ⟨hne, hnil⟩

/-- **The shutdown returns** when nobody is left to report. -/
theorem Kept.resumeShutdown (h : Kept loop) (hready : loop.ready = .resumeShutdown :: rest) :
    Kept ({ loop with ready := rest }.handle reply stamp .resumeShutdown) := by
  unfold Kept at h
  rw [hready] at h
  have hpopped : KeptFor none loop.world loop.tasks loop.tracked rest loop.shutdown :=
    h.pop h.awake rfl h.scheduled nofun
  refine { hpopped with
    resume := fun _ => Or.inr rfl, quiet := nofun, gathering := nofun, returned := fun _ => ?_ }
  -- the first resumption returns, a second finds it returned
  rcases h.resume List.mem_cons_self with hshutdown | hreturned
  · refine ⟨fun other hin => ?_,
      (h.gathering [] hshutdown).last rfl rest (List.suffix_refl _)⟩
    exact absurd ((hpopped.gathering [] hshutdown).live other hin) List.not_mem_nil
  · exact hpopped.returned hreturned

/-- **Running the front of the queue keeps the invariant.** -/
theorem Kept.run (h : Kept loop) (hidle : loop.world.active = none)
    (hready : loop.ready = handle :: rest) :
    Kept ({ loop with ready := rest }.handle reply stamp handle) := by
  cases handle with
  | setEvent event => exact h.setEvent hidle hready
  | step id => exact h.stepTask hready
  | jobDone id => exact h.jobDone hready
  | gathered id => exact h.gathered hready
  | resumeShutdown => exact h.resumeShutdown hready

/-! ### Submissions, wake-ups and the shutdown -/

/-- A step is scheduled. -/
theorem KeptFor.scheduleStep (h : KeptFor none world tasks tracked ready shutdown)
    (hunfinished : Unfinished tasks id) :
    KeptFor none world tasks tracked (ready ++ [.step id]) shutdown := by
  refine h.enqueue ⟨nofun, nofun, nofun⟩ (h.mayReport hunfinished) h.awake ?_ h.owned
  rw [eventsOf_append]
  exact h.scheduled.trans (List.append_nil _ ▸ .refl _)

section Submission

variable {task' : JobTask} {other : ℕ}

/-- A task that is there is not the new one. -/
theorem ne_of_fresh (hfresh : tasks id = none) (htask : tasks other = some task) : other ≠ id := by
  rintro rfl
  rw [hfresh] at htask
  cases htask

/-- **A new task** that is not cancelled and has not ended keeps everything but who owns a job. -/
theorem KeptFor.addTask (h : KeptFor none world tasks tracked ready .idle)
    (hfresh : tasks id = none) (hcalm : task'.cancelling = false)
    (hcreated : task'.point = .created)
    (hawake : Awake world') (hscheduled : world'.scheduled = world.scheduled)
    (howned : ∀ entry ∈ world'.registry.entries, entry.finished = false →
      entry ∈ world.registry.entries ∨ entry.job.jobId = task'.jobId) :
    KeptFor none world' (Function.update tasks id (some task')) (id :: tracked) ready .idle := by
  have hself : Function.update tasks id (some task') id = some task' := Function.update_self ..
  have hopen : Unfinished (Function.update tasks id (some task')) id :=
    ⟨task', hself, by rw [hcreated]; rfl⟩
  have hkeeps : ∀ {other}, other ≠ id →
      Function.update tasks id (some task') other = tasks other :=
    fun hne => Function.update_of_ne hne _ _
  have hquiet := h.quiet rfl
  constructor
  case awake => exact hawake
  case scheduled => exact hscheduled ▸ h.scheduled
  case owned =>
    intro entry hentry hunsettled hexempt
    rcases howned entry hentry hunsettled with hold | hnew
    · -- older jobs keep their tasks, whose names are not the new one
      obtain ⟨other, found, ⟨hfound, hend⟩, hname⟩ := h.owned entry hold hunsettled hexempt
      exact ⟨other, found, ⟨(hkeeps (ne_of_fresh hfresh hfound)).trans hfound, hend⟩, hname⟩
    · exact ⟨id, task', ⟨hself, Or.inl (by rw [hcreated]; rfl)⟩, hnew.symm⟩
  case tracked =>
    intro other hlive
    by_cases hsame : other = id
    · rw [hsame]
      exact List.mem_cons_self
    · refine List.mem_cons_of_mem _ (h.tracked other (hlive.imp_left fun hopened => ?_))
      unfold Unfinished at hopened
      rw [hkeeps hsame] at hopened
      exact hopened
  case ended =>
    intro other hmem
    obtain ⟨found, hfound, hdone⟩ := h.ended other hmem
    exact ⟨found, (hkeeps (ne_of_fresh hfresh hfound)).trans hfound, hdone⟩
  case single => exact h.single
  case resume => exact h.resume
  case quiet =>
    refine fun _ => ⟨?_, fun back _ => Or.inl ⟨id, hopen⟩, hquiet.gathered⟩
    intro other found hfound
    by_cases hsame : other = id
    · subst hsame
      rw [hself] at hfound
      cases hfound
      rw [hcreated]
      exact ⟨hcalm, nofun, nofun⟩
    · rw [hkeeps hsame] at hfound
      exact hquiet.calm other found hfound
  case gathering => nofun
  case returned => nofun

end Submission

/-- **A submission** registers a job with a task that is to settle it. -/
theorem Kept.submit {kind : String} {now : ℤ} {details : π} {registry : Registry π} (h : Kept loop)
    (hopen : loop.shutdown = .idle) (hfresh : loop.tasks id = none)
    (hregister : loop.world.registry.register kind jobId now details = .ok registry) :
    Kept { loop.setTask id ⟨jobId, .created, false⟩ with
      world := { loop.world with
        registry := registry
        isSet := Function.update loop.world.isSet loop.world.registry.events false }
      tracked := id :: loop.tracked
      ready := loop.ready ++ [.step id] } := by
  unfold Kept at h ⊢
  obtain ⟨-, -, hentries⟩ := Registry.register_eq_ok hregister
  rw [hopen] at h
  -- first the registration with its task, then the step that runs it
  have hregistered : KeptFor none { loop.world with
      registry := registry
      isSet := Function.update loop.world.isSet loop.world.registry.events false }
      (Function.update loop.tasks id (some ⟨jobId, .created, false⟩)) (id :: loop.tracked)
      loop.ready .idle := by
    refine h.addTask hfresh rfl rfl (h.awake.register hregister) rfl fun entry hentry _ => ?_
    change entry ∈ registry.entries at hentry
    rw [hentries] at hentry
    rcases List.mem_append.1 hentry with hold | hnew
    · exact Or.inl (Registry.mem_dropOldestFinished.1 hold).1
    · rw [List.mem_singleton.1 hnew]
      exact Or.inr rfl
  have hstep := hregistered.scheduleStep ⟨_, Function.update_self .., rfl⟩
  rw [← hopen] at hstep
  exact hstep

/-- The steps that the shutdown schedules, and the ends that have come already. -/
def shutdownHandles (loop : Loop π) : List Handle :=
  loop.tracked.flatMap fun id =>
    match loop.tasks id with
    | none => []
    | some task =>
      if task.point.isDone then [.gathered id]
      else if .step id ∈ loop.ready then [] else [.step id]

theorem mem_shutdownHandles (h : handle ∈ shutdownHandles loop) :
    (∃ id, handle = .step id) ∨ ∃ id, handle = .gathered id ∧ Ended loop.tasks id := by
  obtain ⟨id, -, hin⟩ := List.mem_flatMap.1 h
  cases htask : loop.tasks id with
  | none =>
    rw [htask] at hin
    cases hin
  | some task =>
    rw [htask] at hin
    simp only at hin
    split at hin
    -- a task that is done answers at once, one that runs is stepped
    · next hdone => exact Or.inr ⟨id, List.mem_singleton.1 hin, task, htask, hdone⟩
    · split at hin
      · cases hin
      · exact Or.inl ⟨id, List.mem_singleton.1 hin⟩

/-- They tell the loop of no end, and nobody of a report. -/
theorem jobDone_not_mem_shutdownHandles (id : ℕ) : .jobDone id ∉ shutdownHandles loop := by
  intro h
  rcases mem_shutdownHandles h with ⟨other, heq⟩ | ⟨other, heq, -⟩ <;> cases heq

theorem resumeShutdown_not_mem_shutdownHandles : .resumeShutdown ∉ shutdownHandles loop := by
  intro h
  rcases mem_shutdownHandles h with ⟨other, heq⟩ | ⟨other, heq, -⟩ <;> cases heq

theorem eventsOf_shutdownHandles (loop : Loop π) : eventsOf (shutdownHandles loop) = [] := by
  refine eventsOf_of_none fun event h => ?_
  rcases mem_shutdownHandles h with ⟨other, heq⟩ | ⟨other, heq, -⟩ <;> cases heq

/-- Cancelling does not move a task. -/
theorem cancel_point (task : JobTask) : task.cancel.point = task.point ∧
    task.cancel.jobId = task.jobId := by
  unfold JobTask.cancel
  split <;> exact ⟨rfl, rfl⟩

/-- The tasks once those that are tracked have been cancelled. -/
def cancelledTasks (loop : Loop π) : ℕ → Option JobTask := fun id =>
  (loop.tasks id).map fun task => if id ∈ loop.tracked then task.cancel else task

theorem exists_of_cancelled {task' : JobTask} (h : cancelledTasks loop id = some task') :
    ∃ task, loop.tasks id = some task ∧ task'.point = task.point := by
  obtain ⟨task, htask, rfl⟩ := Option.map_eq_some_iff.1 h
  refine ⟨task, htask, ?_⟩
  split
  · exact (cancel_point task).1
  · rfl

theorem exists_cancelled (h : loop.tasks id = some task) :
    ∃ task', cancelledTasks loop id = some task' ∧ task'.point = task.point ∧
      task'.jobId = task.jobId := by
  refine ⟨_, Option.map_eq_some_iff.2 ⟨task, h, rfl⟩, ?_⟩
  split
  · exact cancel_point task
  · exact ⟨rfl, rfl⟩

/-- So the same tasks are over as before. -/
theorem Unfinished.of_cancelled (h : Unfinished (cancelledTasks loop) id) :
    Unfinished loop.tasks id := by
  obtain ⟨task', htask', hpoint⟩ := h
  obtain ⟨task, htask, heq⟩ := exists_of_cancelled htask'
  exact ⟨task, htask, heq ▸ hpoint⟩

theorem Ended.cancelled (h : Ended loop.tasks id) : Ended (cancelledTasks loop) id := by
  obtain ⟨task, htask, hpoint⟩ := h
  obtain ⟨task', htask', heq, -⟩ := exists_cancelled htask
  exact ⟨task', htask', heq.symm ▸ hpoint⟩

/-- The queue gets no notice for the loop, and nobody becomes live. -/
theorem jobDone_of_beginShutdown (h : .jobDone id ∈ loop.ready ++ shutdownHandles loop) :
    .jobDone id ∈ loop.ready :=
  (List.mem_append.1 h).resolve_right (jobDone_not_mem_shutdownHandles id)

theorem live_of_beginShutdown
    (h : Live (cancelledTasks loop) (loop.ready ++ shutdownHandles loop) id) :
    Live loop.tasks loop.ready id :=
  h.imp Unfinished.of_cancelled jobDone_of_beginShutdown

/-- No task is before its first statement. -/
def AllStarted (loop : Loop π) : Prop :=
  ∀ id task, loop.tasks id = some task → task.point ≠ .created

/-- **Everybody who is live is waited for**, and has started. -/
theorem gathering_of_quiet (hquiet : Quiet loop.tasks loop.ready) (hstarted : AllStarted loop)
    (htracked : ∀ id, Live loop.tasks loop.ready id → id ∈ loop.tracked)
    (hsome : loop.tracked ≠ []) :
    Gathering (cancelledTasks loop) (loop.ready ++ shutdownHandles loop) loop.tracked where
  live := fun id hlive => htracked id (live_of_beginShutdown hlive)
  started := by
    intro id task' htask'
    obtain ⟨task, htask, hpoint⟩ := exists_of_cancelled htask'
    rw [hpoint]
    exact hstarted id task htask
  once := by
    intro id task' htask' hstopping
    obtain ⟨task, htask, hpoint⟩ := exists_of_cancelled htask'
    rw [hpoint] at hstopping
    exact absurd hstopping (hquiet.calm id task htask).2.1
  gathered := by
    intro id hmem hopen
    rcases List.mem_append.1 hmem with hold | hnew
    · exact hquiet.gathered id hold
    · -- the new handles tell of ends that have come already
      rcases mem_shutdownHandles hnew with ⟨other, heq⟩ | ⟨other, heq, hended⟩
      · cases heq
      · cases heq
        exact hended.not_unfinished hopen.of_cancelled
  order := by
    intro id hpair
    rcases precedes_append.1 hpair with hold | ⟨hold, -⟩ | hnew
    · exact hquiet.gathered id (hold.subset List.mem_cons_self)
    · exact hquiet.gathered id hold
    · exact jobDone_not_mem_shutdownHandles id
        (hnew.subset (List.mem_cons_of_mem _ List.mem_cons_self))
  last := fun hnil => absurd hnil hsome

/-- Without tasks the shutdown returns at once. -/
theorem Kept.return (h : Kept loop) (hidle : loop.shutdown = .idle) (htracked : loop.tracked = []) :
    Kept { loop with shutdown := .returned } := by
  unfold Kept at h
  have hnone : ∀ id, ¬Live loop.tasks loop.ready id := by
    intro id hlive
    have hmem := h.tracked id hlive
    rw [htracked] at hmem
    cases hmem
  refine { h with
    resume := fun _ => Or.inr rfl, quiet := nofun, gathering := nofun
    returned := fun _ => ⟨hnone, ?_⟩ }
  -- what was reported is told, as nobody is left who could report
  rcases (h.quiet hidle).announced loop.ready (List.suffix_refl _) with
    ⟨id, hopen⟩ | hevents | ⟨id, hmem⟩
  · exact absurd (Or.inl hopen) (hnone id)
  · exact hevents
  · exact absurd (Or.inr hmem) (hnone id)

/-- **The shutdown starts.** Whoever is live is waited for. -/
theorem Kept.beginShutdown (h : Kept loop) (hidle : loop.shutdown = .idle)
    (hstarted : AllStarted loop) : Kept loop.beginShutdown := by
  unfold Loop.beginShutdown
  by_cases htracked : loop.tracked = []
  · rw [if_pos htracked]
    exact h.return hidle htracked
  rw [if_neg htracked]
  unfold Kept at h
  change KeptFor none loop.world (cancelledTasks loop) loop.tracked
    (loop.ready ++ shutdownHandles loop) (.gathering loop.tracked)
  -- what is scheduled is neither a report nor a done callback of the loop
  constructor
  case awake => exact h.awake
  case scheduled =>
    rw [eventsOf_append, eventsOf_shutdownHandles, List.append_nil]
    exact h.scheduled
  case owned =>
    intro entry hentry hunsettled hexempt
    obtain ⟨id, task, ⟨htask, howns⟩, hname⟩ := h.owned entry hentry hunsettled hexempt
    obtain ⟨task', htask', hpoint, hid⟩ := exists_cancelled htask
    refine ⟨id, task', ⟨htask', ?_⟩, hid.trans hname⟩
    rw [hpoint]
    exact howns.imp_right fun hraised => ⟨hraised.1, List.mem_append_left _ hraised.2⟩
  case tracked => exact fun id hlive => h.tracked id (live_of_beginShutdown hlive)
  case ended => exact fun id hmem => (h.ended id (jobDone_of_beginShutdown hmem)).cancelled
  case single =>
    intro id hpair
    rcases precedes_append.1 hpair with hold | ⟨-, hnew⟩ | hnew
    · exact h.single id hold
    · exact jobDone_not_mem_shutdownHandles id hnew
    · exact jobDone_not_mem_shutdownHandles id (hnew.subset List.mem_cons_self)
  case resume =>
    intro hmem
    have hold := (List.mem_append.1 hmem).resolve_right resumeShutdown_not_mem_shutdownHandles
    have hshutdown := h.resume hold
    rw [hidle] at hshutdown
    rcases hshutdown with heq | heq <;> cases heq
  case quiet => nofun
  case gathering =>
    intro pending hpending
    cases hpending
    exact gathering_of_quiet (h.quiet hidle) hstarted h.tracked htracked
  case returned => nofun

/-! ### Runs -/

/-- A turn that starts the shutdown finds every task started. -/
def Prepared (loop loop' : Loop π) : Prop :=
  loop.shutdown = .idle → loop'.shutdown ≠ .idle → AllStarted loop

/-- The runs whose shutdown is prepared. -/
def preparedJobs (π : Type) : TransitionSystem (Loop π) where
  init := (dataJobs π).init
  step loop loop' := (dataJobs π).step loop loop' ∧ Prepared loop loop'

/-- A begun shutdown is not idle. -/
theorem beginShutdown_shutdown : loop.beginShutdown.shutdown ≠ .idle := by
  unfold Loop.beginShutdown
  split <;> nofun

/-- **A prepared turn keeps the invariant.** -/
theorem Kept.turn (h : Kept loop) (hturn : Turn loop loop') (hprepared : Prepared loop loop') :
    Kept loop' := by
  cases hturn with
  | submit idle isOpen fresh hregister => exact h.submit isOpen fresh hregister
  | wake htask hwaits quiet free => exact KeptFor.scheduleStep h ⟨_, htask, hwaits⟩
  | run reply stamp idle hready => exact h.run idle hready
  | shutdown idle hidle =>
    exact h.beginShutdown hidle (hprepared hidle beginShutdown_shutdown)
  | subscribe hstep hregistry hscheduled =>
    unfold Kept at h
    refine { h with awake := h.awake.step hstep, scheduled := ?_, owned := ?_ }
    · rw [hscheduled]
      exact h.scheduled
    · rw [hregistry]
      exact h.owned

theorem kept_of_reachable (h : (preparedJobs π).Reachable loop) : Kept loop := by
  refine h.invariant ?_ ?_
  · rintro loop rfl
    exact kept_start
  · rintro loop loop' hkept ⟨hturn, hprepared⟩
    exact hkept.turn hturn hprepared

/-- **What a returned shutdown owes**: every registered job is terminal, and no subscriber waits
for less than its job has. -/
structure Settled (loop : Loop π) : Prop where
  terminal : ∀ entry ∈ loop.world.registry.entries, entry.job.status.isTerminal = true
  notified : ∀ call subscriber event, loop.world.subscribers call = some subscriber →
    subscriber.phase = .waiting event → ∀ entry ∈ loop.world.registry.entries,
      entry.event = event → entry.job.revision ≤ subscriber.revision

/-- **If every task has started** when the shutdown starts, every job is settled once it has
returned, in every run. -/
theorem settled_of_returned (h : (preparedJobs π).Reachable loop)
    (hreturned : loop.shutdown = .returned) : Settled loop := by
  have hkept := kept_of_reachable h
  unfold Kept at hkept
  obtain ⟨hnone, hevents⟩ := hkept.returned hreturned
  constructor
  · intro entry hentry
    by_contra hopen
    obtain ⟨id, task, ⟨htask, howns⟩, -⟩ := hkept.owned entry hentry
      (Bool.eq_false_of_not_eq_true hopen) nofun
    exact hnone id (howns.imp (fun hpoint => ⟨task, htask, hpoint⟩) And.right)
  · intro call subscriber event hsubscriber hwaiting entry hentry hevent
    by_contra hbehind
    -- a waiter that is behind has an event scheduled, and none is left
    have hscheduled := hkept.awake.wakes call subscriber event hsubscriber (Or.inl hwaiting) entry
      hentry hevent (not_le.1 hbehind)
    have hempty := hkept.scheduled
    rw [hevents] at hempty
    rw [hempty.eq_nil] at hscheduled
    cases hscheduled

/-! ### A submission and a shutdown -/

/-- A stamp that leaves the details of a job alone. -/
def plainStamp : Stamp Unit := ⟨0, fun _ _ => ()⟩

/-- The loop once a job has been submitted. -/
def submitted : Loop Unit :=
  { (Loop.start : Loop Unit).setTask 0 ⟨"job", .created, false⟩ with
    world := { (World.start : World Unit) with
      registry := ⟨[⟨⟨"job", .queued, 0, 0, 0, ()⟩, 0⟩], 1⟩
      isSet := Function.update (World.start : World Unit).isSet 0 false }
    tracked := [0]
    ready := [.step 0] }

theorem submitted_turn : Turn Loop.start submitted := by
  have hregister : (World.start : World Unit).registry.register "data job" "job" 0 () =
      .ok submitted.world.registry := rfl
  exact .submit rfl rfl rfl hregister

/-- The front of the queue during the shutdown, run for a number of turns; whatever is waited for
succeeds. -/
def drain : ℕ → Loop Unit → Loop Unit
  | 0, loop => loop
  | turns + 1, loop =>
    if loop.world.active = none ∧ loop.shutdown ≠ .idle then
      match loop.ready with
      | [] => loop
      | handle :: rest =>
        drain turns ({ loop with ready := rest }.handle (.answered true) plainStamp handle)
    else loop

/-- Draining is a run of every system that has the prepared turns. -/
theorem reachable_drain {system : TransitionSystem (Loop Unit)}
    (hsystem : ∀ loop loop', Turn loop loop' → Prepared loop loop' → system.step loop loop')
    (turns : ℕ) {loop : Loop Unit} (h : system.Reachable loop) :
    system.Reachable (drain turns loop) := by
  induction turns generalizing loop with
  | zero => exact h
  | succ turns ih =>
    unfold drain
    split
    · next hduring =>
      split
      · exact h
      · next handle rest hready =>
        exact ih (h.step (hsystem _ _ (Turn.run (.answered true) plainStamp hduring.1 hready)
          fun hidle => absurd hidle hduring.2))
    · exact h

/-- The process has been launched. -/
def launched : Loop Unit :=
  { submitted with ready := [] }.handle (.answered true) plainStamp (.step 0)

theorem launched_turn : Turn submitted launched :=
  Turn.run (.answered true) plainStamp rfl rfl

/-- A shutdown while the process of the job is being launched. -/
theorem settled_of_launched : Settled (drain 6 launched.beginShutdown) := by
  have hsubmitted : (preparedJobs Unit).Reachable submitted :=
    .step (.init rfl) ⟨submitted_turn, fun _ hne => absurd rfl hne⟩
  have hlaunched : (preparedJobs Unit).Reachable launched :=
    hsubmitted.step ⟨launched_turn, fun _ hne => absurd rfl hne⟩
  -- the only task is in `create_subprocess_exec`
  have hstarted : AllStarted launched := by
    intro id task htask
    by_cases hid : id = 0
    · subst hid
      cases htask
      nofun
    · have htasks : launched.tasks = Function.update (Function.update (fun _ => none) 0
          (some ⟨"job", .created, false⟩)) 0 (some ⟨"job", .launching, false⟩) := rfl
      rw [htasks] at htask
      rw [Function.update_of_ne hid, Function.update_of_ne hid] at htask
      cases htask
  have hshutdown : (preparedJobs Unit).Reachable launched.beginShutdown :=
    hlaunched.step ⟨Turn.shutdown rfl rfl, fun _ _ => hstarted⟩
  have hdrained : (preparedJobs Unit).Reachable (drain 6 launched.beginShutdown) :=
    reachable_drain (fun _ _ => And.intro) 6 hshutdown
  exact settled_of_returned hdrained (by decide +kernel)

/-- **A shutdown right after a submission**: the task is cancelled before its first statement,
and the job is queued for ever. -/
theorem not_settled_of_created : ∃ loop : Loop Unit, (dataJobs Unit).Reachable loop ∧
    loop.shutdown = .returned ∧ ¬Settled loop := by
  refine ⟨drain 4 submitted.beginShutdown, ?_, by decide +kernel, ?_⟩
  · have hshutdown : (dataJobs Unit).Reachable submitted.beginShutdown :=
      .step (.step (.init rfl) submitted_turn) (Turn.shutdown rfl rfl)
    exact reachable_drain (fun _ _ hturn _ => hturn) 4 hshutdown
  · intro hsettled
    have hterminal := hsettled.terminal ⟨⟨"job", .queued, 0, 0, 0, ()⟩, 0⟩
      (show _ ∈ [_] from List.mem_cons_self)
    cases hterminal

end WebApi
end TradingSystem
