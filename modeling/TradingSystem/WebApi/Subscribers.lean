import TradingSystem.Logic.Transition
import TradingSystem.WebApi.Registry

/-!
# Waiting for a job

Worker threads update jobs under the lock of a registry and ask the event loop to set the
job's event; the loop runs one callback at a time, and a call of `wait_for_change` gives the
loop back only while it waits. So worker updates may come between any two steps, and what the
loop does otherwise only while no call is `active`.

* `Step` — updates, `event.set` callbacks, registrations, and the statements of a call.
* `Awake` — the invariant: a call that waits for less than its job has is about to be woken.
* `delivers_of_reachable` — no wake-up is lost, a call returns what it should, and only
  finished jobs disappear.
* `not_alwaysDelivered_of_pruned` — a call for a job that was dropped returns nothing.
-/

namespace TradingSystem
namespace WebApi

open Logic

variable {π : Type}

/-! ### Calls of `wait_for_change` -/

/-- Where a call is: about to look its event up, at the head of its loop, past `event.clear`,
past the check of the revision, suspended in `event.wait`, released from it, or over. -/
inductive Phase (π : Type)
  | called
  | looping (event : ℕ)
  | cleared (event : ℕ)
  | checked (event : ℕ)
  | waiting (event : ℕ)
  | woken (event : ℕ)
  | returned (result : Option (Job π))
  | timedOut

/-- The event a call holds. -/
def Phase.event : Phase π → Option ℕ
  | .looping event => some event
  | .cleared event => some event
  | .checked event => some event
  | .waiting event => some event
  | .woken event => some event
  | _ => none

/-- Whether the event loop is inside the call. -/
def Phase.isActive : Phase π → Bool
  | .called => true
  | .looping _ => true
  | .cleared _ => true
  | .checked _ => true
  | _ => false

/-- A call: the job it asks for and the revision it knows. -/
structure Subscriber (π : Type) where
  jobId : String
  revision : ℤ
  phase : Phase π

/-- The registry, which events are set, the `event.set` callbacks that workers have asked for,
the calls, and the call the event loop is in. -/
structure World (π : Type) where
  registry : Registry π
  isSet : ℕ → Bool
  scheduled : List ℕ
  subscribers : ℕ → Option (Subscriber π)
  active : Option ℕ

namespace World

/-- Before anything happened. -/
def start : World π := ⟨Registry.empty, fun _ => false, [], fun _ => none, none⟩

/-- A call is in another phase. -/
def move (world : World π) (task : ℕ) (subscriber : Subscriber π) (phase : Phase π) : World π :=
  { world with
    subscribers := Function.update world.subscribers task (some { subscriber with phase := phase })
    active := if phase.isActive then some task else none }

/-- `event.set()`: the event is set and everything that waits for it is released. -/
def fire (world : World π) (event : ℕ) : World π :=
  { world with
    isSet := Function.update world.isSet event true
    scheduled := world.scheduled.erase event
    subscribers := fun task => (world.subscribers task).map fun subscriber =>
      match subscriber.phase with
      | .waiting held =>
        if held = event then { subscriber with phase := .woken held } else subscriber
      | _ => subscriber }

/-- The next statement of a call. -/
def execute (world : World π) (task : ℕ) (subscriber : Subscriber π) : World π :=
  match subscriber.phase with
  | .called =>
    match world.registry.get subscriber.jobId with
    | none => world.move task subscriber (.returned none)
    | some entry => world.move task subscriber (.looping entry.event)
  | .looping event =>
    { world.move task subscriber (.cleared event) with
      isSet := Function.update world.isSet event false }
  | .cleared event =>
    match world.registry.get subscriber.jobId with
    | none => world.move task subscriber (.returned none)
    | some entry =>
      if subscriber.revision < entry.job.revision then
        world.move task subscriber (.returned (some entry.job))
      else world.move task subscriber (.checked event)
  | .checked event =>
    if world.isSet event then world.move task subscriber (.looping event)
    else world.move task subscriber (.waiting event)
  | _ => world

end World

/-- One step. Updates come from worker threads at any time; everything else runs on the event
loop. -/
inductive Step : World π → World π → Prop
  | update {world : World π} {jobId : String} {status : JobStateValue} {now : ℤ}
      {details : Job π → π} {registry : Registry π} {event : ℕ}
      (h : world.registry.update jobId status now details = .ok (registry, event)) :
      Step world { world with registry := registry, scheduled := event :: world.scheduled }
  | register {world : World π} {kind jobId : String} {now : ℤ} {details : π}
      {registry : Registry π} (idle : world.active = none)
      (h : world.registry.register kind jobId now details = .ok registry) :
      Step world { world with
        registry := registry
        isSet := Function.update world.isSet world.registry.events false }
  | fire {world : World π} {event : ℕ} (idle : world.active = none)
      (h : event ∈ world.scheduled) : Step world (world.fire event)
  | call {world : World π} {task : ℕ} {jobId : String} {revision : ℤ}
      (idle : world.active = none) (h : world.subscribers task = none) :
      Step world (world.move task ⟨jobId, revision, .called⟩ .called)
  | execute {world : World π} {task : ℕ} {subscriber : Subscriber π}
      (active : world.active = some task) (h : world.subscribers task = some subscriber) :
      Step world (world.execute task subscriber)
  | resume {world : World π} {task event : ℕ} {subscriber : Subscriber π}
      (idle : world.active = none) (h : world.subscribers task = some subscriber)
      (woken : subscriber.phase = .woken event) :
      Step world (world.move task subscriber (.looping event))
  | timeout {world : World π} {task event : ℕ} {subscriber : Subscriber π}
      (idle : world.active = none) (h : world.subscribers task = some subscriber)
      (waits : subscriber.phase = .waiting event ∨ subscriber.phase = .woken event) :
      Step world (world.move task subscriber .timedOut)

/-- A registry with its workers and subscribers. -/
def jobs (π : Type) : TransitionSystem (World π) where
  init world := world = World.start
  step := Step

/-! ### The invariant -/

/-- **Awake**: whoever waits, or is about to, for less than the job of its event has, will find
the event set. -/
structure Awake (world : World π) : Prop where
  registry : world.registry.WellFormed
  active : ∀ task subscriber, world.subscribers task = some subscriber →
    subscriber.phase.isActive = true → world.active = some task
  event_lt : ∀ task subscriber event, world.subscribers task = some subscriber →
    subscriber.phase.event = some event → event < world.registry.events
  jobId_eq : ∀ task subscriber event, world.subscribers task = some subscriber →
    subscriber.phase.event = some event → ∀ entry ∈ world.registry.entries,
      entry.event = event → entry.job.jobId = subscriber.jobId
  wakes : ∀ task subscriber event, world.subscribers task = some subscriber →
    subscriber.phase = .waiting event ∨ subscriber.phase = .checked event →
    ∀ entry ∈ world.registry.entries, entry.event = event →
      subscriber.revision < entry.job.revision → event ∈ world.scheduled

variable {world world' : World π} {task event : ℕ} {subscriber : Subscriber π}
  {phase : Phase π}

theorem awake_start : Awake (World.start : World π) :=
  ⟨Registry.wellFormed_empty, nofun, nofun, nofun, nofun⟩

theorem move_subscribers_self : (world.move task subscriber phase).subscribers task =
    some { subscriber with phase := phase } := Function.update_self ..

/-- A call that moves keeps the invariant if its new phase satisfies it. -/
theorem Awake.move (h : Awake world)
    (hothers : ∀ other subscriber', other ≠ task → world.subscribers other = some subscriber' →
      subscriber'.phase.isActive = false)
    (hevent : ∀ event, phase.event = some event → event < world.registry.events ∧
      ∀ entry ∈ world.registry.entries, entry.event = event →
        entry.job.jobId = subscriber.jobId)
    (hwakes : ∀ event, phase = .waiting event ∨ phase = .checked event →
      ∀ entry ∈ world.registry.entries, entry.event = event →
        subscriber.revision < entry.job.revision → event ∈ world.scheduled) :
    Awake (world.move task subscriber phase) := by
  have hcases : ∀ other subscriber',
      (world.move task subscriber phase).subscribers other = some subscriber' →
      (other = task ∧ subscriber' = { subscriber with phase := phase }) ∨
        (other ≠ task ∧ world.subscribers other = some subscriber') := by
    intro other subscriber' hsub
    by_cases hother : other = task
    · subst hother
      rw [move_subscribers_self] at hsub
      exact Or.inl ⟨rfl, (Option.some.inj hsub).symm⟩
    · exact Or.inr ⟨hother, (Function.update_of_ne hother _ _).symm.trans hsub⟩
  -- one case for each clause: the call that moves, and the others as before
  constructor
  case registry => exact h.registry
  case active =>
    intro other subscriber' hsub hactive
    rcases hcases other subscriber' hsub with ⟨rfl, rfl⟩ | ⟨hne, hold⟩
    · exact if_pos hactive
    · rw [hothers other subscriber' hne hold] at hactive
      cases hactive
  case event_lt =>
    intro other subscriber' event hsub hphase
    rcases hcases other subscriber' hsub with ⟨rfl, rfl⟩ | ⟨-, hold⟩
    · exact (hevent event hphase).1
    · exact h.event_lt other subscriber' event hold hphase
  case jobId_eq =>
    intro other subscriber' event hsub hphase
    rcases hcases other subscriber' hsub with ⟨rfl, rfl⟩ | ⟨-, hold⟩
    · exact (hevent event hphase).2
    · exact h.jobId_eq other subscriber' event hold hphase
  case wakes =>
    intro other subscriber' event hsub hphase
    rcases hcases other subscriber' hsub with ⟨rfl, rfl⟩ | ⟨-, hold⟩
    · exact hwakes event hphase
    · exact h.wakes other subscriber' event hold hphase

/-- While one call is active, the others are not. -/
theorem Awake.others (h : Awake world) (hactive : world.active = some task) :
    ∀ other subscriber', other ≠ task → world.subscribers other = some subscriber' →
      subscriber'.phase.isActive = false := by
  intro other subscriber' hne hsub
  by_contra hnot
  have hother := h.active other subscriber' hsub (by simpa using hnot)
  rw [hactive] at hother
  exact hne (Option.some.inj hother).symm

/-- While the loop is idle, no call is active. -/
theorem Awake.idle (h : Awake world) (hidle : world.active = none) :
    ∀ other subscriber', world.subscribers other = some subscriber' →
      subscriber'.phase.isActive = false := by
  intro other subscriber' hsub
  by_contra hnot
  have hother := h.active other subscriber' hsub (by simpa using hnot)
  rw [hidle] at hother
  cases hother

/-- **A statement of a call keeps the invariant.** The check finds the job of the held event,
and what the job has then is known to the call. -/
theorem Awake.execute (h : Awake world) (hactive : world.active = some task)
    (hsub : world.subscribers task = some subscriber) : Awake (world.execute task subscriber) := by
  have hothers := h.others hactive
  have hover : ∀ result, Awake (world.move task subscriber (.returned result)) := fun result =>
    h.move hothers nofun (by rintro _ (heq | heq) <;> cases heq)
  unfold World.execute
  cases hphase : subscriber.phase with
  | called =>
    simp only
    cases hget : world.registry.get subscriber.jobId with
    | none => exact hover none
    | some entry =>
      obtain ⟨hentry, hid⟩ := Registry.get_eq_some hget
      refine h.move hothers ?_ (by rintro _ (heq | heq) <;> cases heq)
      intro held hheld
      cases hheld
      refine ⟨h.registry.events_lt entry hentry, ?_⟩
      intro other hother heq
      rw [h.registry.eq_of_event_eq hother hentry heq]
      exact hid
  | looping event =>
    have hmoved : Awake (world.move task subscriber (.cleared event)) := by
      refine h.move hothers ?_ (by rintro _ (heq | heq) <;> cases heq)
      intro held hheld
      cases hheld
      exact ⟨h.event_lt task subscriber event hsub (by rw [hphase]; rfl),
        h.jobId_eq task subscriber event hsub (by rw [hphase]; rfl)⟩
    exact ⟨hmoved.registry, hmoved.active, hmoved.event_lt, hmoved.jobId_eq, hmoved.wakes⟩
  | cleared event =>
    simp only
    have hholds : subscriber.phase.event = some event := by rw [hphase]; rfl
    cases hget : world.registry.get subscriber.jobId with
    | none => exact hover none
    | some entry =>
      simp only
      obtain ⟨hentry, hid⟩ := Registry.get_eq_some hget
      by_cases habove : subscriber.revision < entry.job.revision
      · rw [if_pos habove]
        exact hover (some entry.job)
      · rw [if_neg habove]
        refine h.move hothers ?_ ?_
        · intro held hheld
          cases hheld
          exact ⟨h.event_lt task subscriber event hsub hholds,
            h.jobId_eq task subscriber event hsub hholds⟩
        · intro held hheld other hother heq hrevision
          have hsame : held = event := by
            rcases hheld with heq | heq <;> cases heq
            rfl
          subst hsame
          -- the job of the held event is the one just checked
          have hname := h.jobId_eq task subscriber held hsub hholds other hother heq
          rw [h.registry.eq_of_jobId_eq hother hentry (hname.trans hid.symm)] at hrevision
          exact absurd hrevision habove
  | checked event =>
    simp only
    have hholds : subscriber.phase.event = some event := by rw [hphase]; rfl
    have hheldEvent : ∀ held, some event = some held → held < world.registry.events ∧
        ∀ entry ∈ world.registry.entries, entry.event = held →
          entry.job.jobId = subscriber.jobId := by
      intro held hheld
      cases hheld
      exact ⟨h.event_lt task subscriber event hsub hholds,
        h.jobId_eq task subscriber event hsub hholds⟩
    split
    · exact h.move hothers hheldEvent (by rintro _ (heq | heq) <;> cases heq)
    · refine h.move hothers hheldEvent ?_
      intro held hheld
      have hsame : held = event := by
        rcases hheld with heq | heq <;> cases heq
        rfl
      subst hsame
      exact h.wakes task subscriber held hsub (Or.inr hphase)
  | waiting event => exact h
  | woken event => exact h
  | returned result => exact h
  | timedOut => exact h

/-- A call that ends keeps the invariant. -/
theorem Awake.over (h : Awake world) (hidle : world.active = none) (hover : phase.event = none) :
    Awake (world.move task subscriber phase) := by
  refine h.move (fun other subscriber' _ => h.idle hidle other subscriber') ?_ ?_
  · intro event hevent
    rw [hover] at hevent
    cases hevent
  · rintro event (rfl | rfl) <;> cases hover

/-- A released call holds the event it was waiting for. -/
theorem Awake.resume (h : Awake world) (hidle : world.active = none)
    (hsub : world.subscribers task = some subscriber) (hwoken : subscriber.phase = .woken event) :
    Awake (world.move task subscriber (.looping event)) := by
  have hholds : subscriber.phase.event = some event := by rw [hwoken]; rfl
  refine h.move (fun other subscriber' _ => h.idle hidle other subscriber') ?_
    (by rintro _ (heq | heq) <;> cases heq)
  intro held hheld
  cases hheld
  exact ⟨h.event_lt task subscriber event hsub hholds,
    h.jobId_eq task subscriber event hsub hholds⟩

/-- What `event.set` does to a call. -/
theorem fire_cases {subscriber' : Subscriber π}
    (h : (world.fire event).subscribers task = some subscriber') :
    ∃ subscriber, world.subscribers task = some subscriber ∧
      ((subscriber' = subscriber ∧ subscriber.phase ≠ .waiting event) ∨
        (subscriber' = { subscriber with phase := .woken event } ∧
          subscriber.phase = .waiting event)) := by
  obtain ⟨subscriber, hsub, heq⟩ := Option.map_eq_some_iff.1 h
  refine ⟨subscriber, hsub, ?_⟩
  by_cases hwaiting : subscriber.phase = .waiting event
  · rw [hwaiting] at heq
    simp only [if_true] at heq
    exact Or.inr ⟨heq.symm, hwaiting⟩
  · -- any other call is left as it is
    refine Or.inl ⟨?_, hwaiting⟩
    rw [← heq]
    split
    · next held hphase =>
      rw [if_neg fun hheld : held = event => hwaiting (hheld ▸ hphase)]
    · rfl

/-- **Setting an event** releases all that wait for it, so its callback may go. -/
theorem Awake.fire (h : Awake world) (hidle : world.active = none) : Awake (world.fire event) := by
  -- a call that waited for the event is woken, the others stay
  constructor
  case registry => exact h.registry
  case active =>
    intro other subscriber' hsub hactive
    obtain ⟨subscriber, hold, ⟨rfl, -⟩ | ⟨rfl, -⟩⟩ := fire_cases hsub
    · exact h.active other subscriber' hold hactive
    · cases hactive
  case event_lt =>
    intro other subscriber' held hsub hphase
    obtain ⟨subscriber, hold, ⟨rfl, -⟩ | ⟨rfl, hwaiting⟩⟩ := fire_cases hsub
    · exact h.event_lt other subscriber' held hold hphase
    · cases hphase
      exact h.event_lt other subscriber event hold (by rw [hwaiting]; rfl)
  case jobId_eq =>
    intro other subscriber' held hsub hphase
    obtain ⟨subscriber, hold, ⟨rfl, -⟩ | ⟨rfl, hwaiting⟩⟩ := fire_cases hsub
    · exact h.jobId_eq other subscriber' held hold hphase
    · cases hphase
      exact h.jobId_eq other subscriber event hold (by rw [hwaiting]; rfl)
  case wakes =>
    intro other subscriber' held hsub hphase entry hentry heq hrevision
    obtain ⟨subscriber, hold, ⟨rfl, hne⟩ | ⟨rfl, -⟩⟩ := fire_cases hsub
    · have hscheduled := h.wakes other subscriber' held hold hphase entry hentry heq hrevision
      have hother : held ≠ event := by
        rintro rfl
        rcases hphase with hwaiting | hchecked
        · exact hne hwaiting
        · have hinactive := h.idle hidle other subscriber' hold
          rw [hchecked] at hinactive
          cases hinactive
      exact (List.mem_erase_of_ne hother).2 hscheduled
    · rcases hphase with hwaiting | hchecked
      · cases hwaiting
      · cases hchecked

/-- **An update** asks for the event of the one job it changes. -/
theorem Awake.update {jobId : String} {status : JobStateValue} {now : ℤ} {details : Job π → π}
    {registry : Registry π} (h : Awake world)
    (hupdate : world.registry.update jobId status now details = .ok (registry, event)) :
    Awake { world with registry := registry, scheduled := event :: world.scheduled } := by
  obtain ⟨found, hfound, hid, hevent, hevents, hentries⟩ := Registry.update_eq_ok hupdate
  -- an entry of the new registry is an old one, or the one whose job changed
  have hback : ∀ entry ∈ registry.entries, ∃ before ∈ world.registry.entries,
      entry.event = before.event ∧ entry.job.jobId = before.job.jobId ∧
        (before = found ∨ entry = before) := by
    intro entry hentry
    rw [hentries] at hentry
    obtain ⟨before, hbefore, rfl⟩ := List.mem_map.1 hentry
    refine ⟨before, hbefore, ?_⟩
    by_cases hname : before.job.jobId = jobId
    · rw [if_pos hname]
      exact ⟨rfl, rfl, Or.inl (h.registry.eq_of_jobId_eq hbefore hfound (hname.trans hid.symm))⟩
    · rw [if_neg hname]
      exact ⟨rfl, rfl, Or.inr rfl⟩
  constructor
  case registry => exact h.registry.update hupdate
  case active => exact h.active
  case event_lt =>
    intro other subscriber' held hsub hphase
    change held < registry.events
    rw [hevents]
    exact h.event_lt other subscriber' held hsub hphase
  case jobId_eq =>
    intro other subscriber' held hsub hphase entry hentry heq
    obtain ⟨before, hbefore, hsame, hname, -⟩ := hback entry hentry
    rw [hname]
    exact h.jobId_eq other subscriber' held hsub hphase before hbefore (hsame.symm.trans heq)
  case wakes =>
    intro other subscriber' held hsub hphase entry hentry heq hrevision
    change held ∈ event :: world.scheduled
    obtain ⟨before, hbefore, hsame, -, rfl | rfl⟩ := hback entry hentry
    · rw [← heq, hsame, hevent]
      exact List.mem_cons_self
    · exact List.mem_cons_of_mem _
        (h.wakes other subscriber' held hsub hphase entry hbefore heq hrevision)

/-- **A registration** makes an event nobody holds. -/
theorem Awake.register {kind jobId : String} {now : ℤ} {details : π} {registry : Registry π}
    (h : Awake world) (hregister : world.registry.register kind jobId now details = .ok registry) :
    Awake { world with
      registry := registry
      isSet := Function.update world.isSet world.registry.events false } := by
  obtain ⟨-, hevents, hentries⟩ := Registry.register_eq_ok hregister
  -- an entry with an older event was there before
  have hold : ∀ entry ∈ registry.entries, entry.event < world.registry.events →
      entry ∈ world.registry.entries := by
    intro entry hentry hlt
    rw [hentries] at hentry
    rcases List.mem_append.1 hentry with hkept | hnew
    · exact (Registry.mem_dropOldestFinished.1 hkept).1
    · rw [List.mem_singleton.1 hnew] at hlt
      exact absurd hlt (lt_irrefl _)
  constructor
  case registry => exact h.registry.register hregister
  case active => exact h.active
  -- nobody waits for the new event yet
  case event_lt =>
    intro other subscriber' held hsub hphase
    change held < registry.events
    rw [hevents]
    exact (h.event_lt other subscriber' held hsub hphase).trans (Nat.lt_succ_self _)
  case jobId_eq =>
    intro other subscriber' held hsub hphase entry hentry heq
    have hlt := h.event_lt other subscriber' held hsub hphase
    exact h.jobId_eq other subscriber' held hsub hphase entry (hold entry hentry (heq ▸ hlt)) heq
  case wakes =>
    intro other subscriber' held hsub hphase entry hentry heq
    have hholds : subscriber'.phase.event = some held := by
      rcases hphase with hphase | hphase <;> rw [hphase] <;> rfl
    have hlt := h.event_lt other subscriber' held hsub hholds
    exact h.wakes other subscriber' held hsub hphase entry (hold entry hentry (heq ▸ hlt)) heq

/-- **Every step keeps the invariant.** -/
theorem Awake.step (h : Awake world) (hstep : Step world world') : Awake world' := by
  cases hstep with
  | update hupdate => exact h.update hupdate
  | register idle hregister => exact h.register hregister
  | fire idle _ => exact h.fire idle
  | call idle _ =>
    exact h.move (fun other subscriber' _ => h.idle idle other subscriber') nofun
      (by rintro _ (heq | heq) <;> cases heq)
  | execute active hsub => exact h.execute active hsub
  | resume idle hsub woken => exact h.resume idle hsub woken
  | timeout idle _ _ => exact h.over idle rfl

theorem awake_of_reachable (h : (jobs π).Reachable world) : Awake world := by
  refine h.invariant ?_ ?_
  · rintro world rfl
    exact awake_start
  · exact fun _ _ hawake hstep => hawake.step hstep

/-! ### Returning -/

/-- Steps in a row. -/
abbrev Steps : World π → World π → Prop := Relation.ReflTransGen Step

theorem execute_looping (hphase : subscriber.phase = .looping event) :
    world.execute task subscriber = { world.move task subscriber (.cleared event) with
      isSet := Function.update world.isSet event false } := by
  unfold World.execute
  rw [hphase]

theorem execute_called {entry : Entry π} (hphase : subscriber.phase = .called)
    (hget : world.registry.get subscriber.jobId = some entry) :
    world.execute task subscriber = world.move task subscriber (.looping entry.event) := by
  unfold World.execute
  rw [hphase]
  simp only [hget]

/-- A call for a job that is not registered returns nothing. -/
theorem execute_missing (hphase : subscriber.phase = .called)
    (hget : world.registry.get subscriber.jobId = none) :
    world.execute task subscriber = world.move task subscriber (.returned none) := by
  unfold World.execute
  rw [hphase]
  simp only [hget]

/-- The check returns the job of a revision above the call's. -/
theorem execute_cleared {entry : Entry π} (hphase : subscriber.phase = .cleared event)
    (hget : world.registry.get subscriber.jobId = some entry)
    (habove : subscriber.revision < entry.job.revision) :
    world.execute task subscriber = world.move task subscriber (.returned (some entry.job)) := by
  unfold World.execute
  rw [hphase]
  simp only [hget, if_pos habove]

/-- From the head of its loop a call returns the job of a revision above its own. -/
theorem returns_of_looping {entry : Entry π} (hactive : world.active = some task)
    (hsub : world.subscribers task = some subscriber) (hphase : subscriber.phase = .looping event)
    (hget : world.registry.get subscriber.jobId = some entry)
    (habove : subscriber.revision < entry.job.revision) :
    ∃ world', Steps world world' ∧ world'.subscribers task =
      some { subscriber with phase := .returned (some entry.job) } := by
  have hfirst := Step.execute hactive hsub
  rw [execute_looping hphase] at hfirst
  set cleared : World π := { world.move task subscriber (.cleared event) with
    isSet := Function.update world.isSet event false } with hcleared
  have hnext : cleared.subscribers task = some { subscriber with phase := .cleared event } :=
    move_subscribers_self
  have hsecond : Step cleared (cleared.execute task { subscriber with phase := .cleared event }) :=
    Step.execute rfl hnext
  have hcheck := @execute_cleared π cleared task event { subscriber with phase := .cleared event }
    entry rfl hget habove
  rw [hcheck] at hsecond
  exact ⟨_, (Relation.ReflTransGen.single hfirst).tail hsecond, move_subscribers_self⟩

/-- A call that waits for less than its job has is woken and returns the job. -/
theorem Awake.returns_of_waiting (h : Awake world) (hidle : world.active = none)
    (hsub : world.subscribers task = some subscriber) (hphase : subscriber.phase = .waiting event)
    {entry : Entry π} (hentry : entry ∈ world.registry.entries) (hevent : entry.event = event)
    (habove : subscriber.revision < entry.job.revision) :
    ∃ world', Steps world world' ∧ world'.subscribers task =
      some { subscriber with phase := .returned (some entry.job) } := by
  have hscheduled := h.wakes task subscriber event hsub (Or.inl hphase) entry hentry hevent habove
  have hname := h.jobId_eq task subscriber event hsub (by rw [hphase]; rfl) entry hentry hevent
  have hget : world.registry.get subscriber.jobId = some entry :=
    hname ▸ h.registry.get_eq hentry
  -- the event of the job is scheduled: it fires, the task resumes and looks again
  have hfire := Step.fire hidle hscheduled
  have hwoken : (world.fire event).subscribers task =
      some { subscriber with phase := .woken event } := by
    change (world.subscribers task).map _ = _
    rw [hsub, Option.map_some]
    simp only [hphase, if_true]
  have hresume : Step (world.fire event) ((world.fire event).move task
      { subscriber with phase := .woken event } (.looping event)) := Step.resume hidle hwoken rfl
  obtain ⟨world', hsteps, hreturned⟩ := @returns_of_looping π
    ((world.fire event).move task { subscriber with phase := .woken event } (.looping event)) task
    event { subscriber with phase := .looping event } entry rfl move_subscribers_self rfl hget
      habove
  exact ⟨world', (((Relation.ReflTransGen.single hfire).tail hresume).trans hsteps), hreturned⟩

/-- A new call for a revision its job has passed returns the job without waiting. -/
theorem returns_of_called {entry : Entry π} (hactive : world.active = some task)
    (hsub : world.subscribers task = some subscriber) (hphase : subscriber.phase = .called)
    (hget : world.registry.get subscriber.jobId = some entry)
    (habove : subscriber.revision < entry.job.revision) :
    ∃ world', Steps world world' ∧ world'.subscribers task =
      some { subscriber with phase := .returned (some entry.job) } := by
  have hfirst := Step.execute hactive hsub
  rw [execute_called hphase hget] at hfirst
  obtain ⟨world', hsteps, hreturned⟩ := @returns_of_looping π
    (world.move task subscriber (.looping entry.event)) task entry.event
    { subscriber with phase := .looping entry.event } entry rfl move_subscribers_self rfl hget
      habove
  exact ⟨world', (Relation.ReflTransGen.single hfirst).trans hsteps, hreturned⟩

/-! ### What a step may do -/

/-- **The laws of a step.** -/
structure StepLaws (world world' : World π) : Prop where
  /-- every visible change of a job raises its revision -/
  revision_lt : ∀ entry ∈ world.registry.entries, ∀ entry' ∈ world'.registry.entries,
    entry'.event = entry.event → entry'.job = entry.job ∨ entry.job.revision < entry'.job.revision
  /-- a call returns a registered job of its name with a revision above its own -/
  returned_some : ∀ task subscriber job, world'.subscribers task = some subscriber →
    subscriber.phase = .returned (some job) → world.subscribers task = some subscriber ∨
      subscriber.revision < job.revision ∧ job.jobId = subscriber.jobId ∧
        ∃ entry ∈ world.registry.entries, entry.job = job
  /-- or nothing, when no job of its name is registered -/
  returned_none : ∀ task subscriber, world'.subscribers task = some subscriber →
    subscriber.phase = .returned none → world.subscribers task = some subscriber ∨
      ∀ entry ∈ world.registry.entries, entry.job.jobId ≠ subscriber.jobId
  /-- or its wait times out -/
  timedOut : ∀ task subscriber, world'.subscribers task = some subscriber →
    subscriber.phase = .timedOut → world.subscribers task = some subscriber ∨
      ∃ before event, world.subscribers task = some before ∧
        (before.phase = .waiting event ∨ before.phase = .woken event)
  /-- only a finished job disappears, at a registration, and none that is older stays -/
  dropped : ∀ entry ∈ world.registry.entries,
    (∀ entry' ∈ world'.registry.entries, entry'.event ≠ entry.event) →
      world'.registry.events = world.registry.events + 1 ∧ entry.finished = true ∧
        ∀ kept ∈ world'.registry.entries, kept.finished = true → entry.age ≤ kept.age
  /-- a registration leaves at most the limit of finished jobs -/
  retained : world'.registry.events ≠ world.registry.events →
    (world'.registry.entries.filter Entry.finished).length ≤ maxRetainedFinishedJobs

/-- A step that leaves the registry alone. -/
theorem StepLaws.of_calls (h : world.registry.WellFormed)
    (hregistry : world'.registry = world.registry)
    (hreturned : ∀ task subscriber result, world'.subscribers task = some subscriber →
      subscriber.phase = .returned result → world.subscribers task = some subscriber ∨
        (∀ job, result = some job → subscriber.revision < job.revision ∧
          job.jobId = subscriber.jobId ∧ ∃ entry ∈ world.registry.entries, entry.job = job) ∧
        (result = none → ∀ entry ∈ world.registry.entries, entry.job.jobId ≠ subscriber.jobId))
    (htimedOut : ∀ task subscriber, world'.subscribers task = some subscriber →
      subscriber.phase = .timedOut → world.subscribers task = some subscriber ∨
        ∃ before event, world.subscribers task = some before ∧
          (before.phase = .waiting event ∨ before.phase = .woken event)) :
    StepLaws world world' := by
  refine ⟨?_, ?_, ?_, htimedOut, ?_, ?_⟩
  · rw [hregistry]
    intro entry hentry entry' hentry' heq
    exact Or.inl (congrArg Entry.job (h.eq_of_event_eq hentry' hentry heq))
  · intro task subscriber job hsub hphase
    exact (hreturned task subscriber _ hsub hphase).imp_right fun hcase => hcase.1 job rfl
  · intro task subscriber hsub hphase
    exact (hreturned task subscriber _ hsub hphase).imp_right fun hcase => hcase.2 rfl
  · rw [hregistry]
    intro entry hentry hgone
    exact absurd rfl (hgone entry hentry)
  · rw [hregistry]
    exact fun hne => absurd rfl hne

/-- After a move, the call that moved is new and the others are as before. -/
theorem move_cases {other : ℕ} {subscriber' : Subscriber π}
    (h : (world.move task subscriber phase).subscribers other = some subscriber') :
    subscriber' = { subscriber with phase := phase } ∨
      world.subscribers other = some subscriber' := by
  by_cases hother : other = task
  · subst hother
    rw [move_subscribers_self] at h
    exact Or.inl (Option.some.inj h).symm
  · exact Or.inr ((Function.update_of_ne hother _ _).symm.trans h)

/-- A call that neither returns nor times out. -/
theorem StepLaws.of_move (h : world.registry.WellFormed)
    (hregistry : world'.registry = world.registry)
    (hsubscribers : world'.subscribers = (world.move task subscriber phase).subscribers)
    (hreturned : ∀ result, phase ≠ .returned result) (htimedOut : phase ≠ .timedOut) :
    StepLaws world world' := by
  refine .of_calls h hregistry ?_ ?_
  · intro other subscriber' result hsub hphase
    rw [hsubscribers] at hsub
    rcases move_cases hsub with rfl | hold
    · exact absurd hphase (hreturned result)
    · exact Or.inl hold
  · intro other subscriber' hsub hphase
    rw [hsubscribers] at hsub
    rcases move_cases hsub with rfl | hold
    · exact absurd hphase htimedOut
    · exact Or.inl hold

/-- A call that returns what the registry shows. -/
theorem StepLaws.of_return {result : Option (Job π)} (h : world.registry.WellFormed)
    (hsome : ∀ job, result = some job → subscriber.revision < job.revision ∧
      job.jobId = subscriber.jobId ∧ ∃ entry ∈ world.registry.entries, entry.job = job)
    (hnone : result = none → ∀ entry ∈ world.registry.entries,
      entry.job.jobId ≠ subscriber.jobId) :
    StepLaws world (world.move task subscriber (.returned result)) := by
  refine .of_calls h rfl ?_ ?_
  · intro other subscriber' result' hsub hphase
    rcases move_cases hsub with rfl | hold
    · cases hphase
      exact Or.inr ⟨hsome, hnone⟩
    · exact Or.inl hold
  · intro other subscriber' hsub hphase
    rcases move_cases hsub with rfl | hold
    · cases hphase
    · exact Or.inl hold

/-- The statements of a call. -/
theorem stepLaws_execute (h : world.registry.WellFormed) :
    StepLaws world (world.execute task subscriber) := by
  have hstays : StepLaws world world :=
    .of_calls h rfl (fun _ _ _ hsub _ => Or.inl hsub) fun _ _ hsub _ => Or.inl hsub
  have hmissing : world.registry.get subscriber.jobId = none →
      StepLaws world (world.move task subscriber (.returned none)) := fun hget =>
    .of_return h nofun fun _ => Registry.get_eq_none hget
  unfold World.execute
  -- one case for each statement of the loop of the call
  cases hphase : subscriber.phase with
  | called =>
    simp only
    cases hget : world.registry.get subscriber.jobId with
    | none => exact hmissing hget
    | some entry => exact .of_move h rfl rfl nofun nofun
  | looping event => exact .of_move h rfl rfl nofun nofun
  | cleared event =>
    simp only
    cases hget : world.registry.get subscriber.jobId with
    | none => exact hmissing hget
    | some entry =>
      simp only
      obtain ⟨hentry, hid⟩ := Registry.get_eq_some hget
      by_cases habove : subscriber.revision < entry.job.revision
      · rw [if_pos habove]
        refine .of_return h ?_ nofun
        intro job hjob
        cases hjob
        exact ⟨habove, hid, entry, hentry, rfl⟩
      · rw [if_neg habove]
        exact .of_move h rfl rfl nofun nofun
  | checked event =>
    simp only
    split
    · exact .of_move h rfl rfl nofun nofun
    · exact .of_move h rfl rfl nofun nofun
  | waiting event => exact hstays
  | woken event => exact hstays
  | returned result => exact hstays
  | timedOut => exact hstays

/-- An update raises the revision of its job. -/
theorem stepLaws_update {jobId : String} {status : JobStateValue} {now : ℤ}
    {details : Job π → π} {registry : Registry π} (h : world.registry.WellFormed)
    (hupdate : world.registry.update jobId status now details = .ok (registry, event)) :
    StepLaws world { world with registry := registry, scheduled := event :: world.scheduled } := by
  obtain ⟨found, hfound, hid, -, hevents, hentries⟩ := Registry.update_eq_ok hupdate
  refine ⟨?_, fun _ _ _ hsub _ => Or.inl hsub, fun _ _ hsub _ => Or.inl hsub,
    fun _ _ hsub _ => Or.inl hsub, ?_, fun hne => absurd hevents hne⟩
  · intro entry hentry entry' hentry' heq
    change entry' ∈ registry.entries at hentry'
    rw [hentries] at hentry'
    obtain ⟨before, hbefore, rfl⟩ := List.mem_map.1 hentry'
    by_cases hname : before.job.jobId = jobId
    · rw [if_pos hname] at heq ⊢
      rw [← h.eq_of_event_eq hbefore hentry heq]
      exact Or.inr (Nat.lt_succ_self _)
    · rw [if_neg hname] at heq ⊢
      exact Or.inl (congrArg Entry.job (h.eq_of_event_eq hbefore hentry heq))
  · intro entry hentry hgone
    exfalso
    -- an update drops no entry
    refine hgone (if entry.job.jobId = jobId then
      { entry with job := Registry.updated status now details entry.job } else entry) ?_ ?_
    · change _ ∈ registry.entries
      rw [hentries]
      exact List.mem_map_of_mem hentry
    · split
      · rfl
      · rfl

/-- A registration drops the oldest finished jobs. -/
theorem stepLaws_register {kind jobId : String} {now : ℤ} {details : π} {registry : Registry π}
    (h : world.registry.WellFormed)
    (hregister : world.registry.register kind jobId now details = .ok registry) :
    StepLaws world { world with
      registry := registry
      isSet := Function.update world.isSet world.registry.events false } := by
  obtain ⟨-, hevents, hentries⟩ := Registry.register_eq_ok hregister
  -- an entry of the new registry was kept or is the new one
  have hcases : ∀ entry' ∈ registry.entries,
      entry' ∈ Registry.dropOldestFinished world.registry.entries ∨
        (entry'.event = world.registry.events ∧ entry'.finished = false) := by
    intro entry' hentry'
    rw [hentries] at hentry'
    rcases List.mem_append.1 hentry' with hkept | hnew
    · exact Or.inl hkept
    · rw [List.mem_singleton.1 hnew]
      exact Or.inr ⟨rfl, rfl⟩
  refine ⟨?_, fun _ _ _ hsub _ => Or.inl hsub, fun _ _ hsub _ => Or.inl hsub,
    fun _ _ hsub _ => Or.inl hsub, ?_, ?_⟩
  · intro entry hentry entry' hentry' heq
    rcases hcases entry' hentry' with hkept | ⟨hnew, -⟩
    · have hold := (Registry.mem_dropOldestFinished.1 hkept).1
      exact Or.inl (congrArg Entry.job (h.eq_of_event_eq hold hentry heq))
    · have hlt := h.events_lt entry hentry
      rw [← heq, hnew] at hlt
      exact absurd hlt (lt_irrefl _)
  · intro entry hentry hgone
    -- what is gone was among the oldest finished jobs
    have hdropped : entry ∈ Registry.excess world.registry.entries := by
      by_contra hnot
      refine hgone entry ?_ rfl
      change entry ∈ registry.entries
      rw [hentries]
      refine List.mem_append_left _ (Registry.mem_dropOldestFinished.2 ⟨hentry, ?_⟩)
      intro dropped hdropped heq
      have hmem := (Registry.finished_of_mem_excess hdropped).1
      exact hnot (h.eq_of_jobId_eq hmem hentry heq ▸ hdropped)
    refine ⟨hevents, (Registry.finished_of_mem_excess hdropped).2, ?_⟩
    intro kept hkept hfinished
    rcases hcases kept hkept with hold | ⟨-, hqueued⟩
    · exact Registry.age_le_of_dropped hdropped hold hfinished
    · rw [hqueued] at hfinished
      cases hfinished
  · intro _
    change (registry.entries.filter Entry.finished).length ≤ _
    have hqueued : List.filter Entry.finished
        [(⟨⟨jobId, .queued, now, now, 0, details⟩, world.registry.events⟩ : Entry π)] = [] := rfl
    rw [hentries, List.filter_append, hqueued, List.append_nil]
    exact Registry.length_finished_le

theorem Awake.stepLaws (h : Awake world) (hstep : Step world world') : StepLaws world world' := by
  have hwell := h.registry
  cases hstep with
  | update hupdate => exact stepLaws_update hwell hupdate
  | register idle hregister => exact stepLaws_register hwell hregister
  | fire idle _ =>
    -- a set event wakes its waiters and answers nobody
    refine .of_calls hwell rfl ?_ ?_
    · intro other subscriber' result hsub hphase
      obtain ⟨subscriber, hold, ⟨rfl, -⟩ | ⟨rfl, -⟩⟩ := fire_cases hsub
      · exact Or.inl hold
      · cases hphase
    · intro other subscriber' hsub hphase
      obtain ⟨subscriber, hold, ⟨rfl, -⟩ | ⟨rfl, -⟩⟩ := fire_cases hsub
      · exact Or.inl hold
      · cases hphase
  | call idle _ => exact .of_move hwell rfl rfl nofun nofun
  | execute _ _ => exact stepLaws_execute hwell
  | resume idle hsub woken => exact .of_move hwell rfl rfl nofun nofun
  | @timeout task event subscriber idle hsub waits =>
    refine .of_calls hwell rfl ?_ ?_
    · intro other subscriber' result hsub' hphase
      rcases move_cases hsub' with rfl | hold
      · cases hphase
      · exact Or.inl hold
    · intro other subscriber' hsub' hphase
      by_cases hother : other = task
      · exact Or.inr ⟨subscriber, event, hother ▸ hsub, waits⟩
      · exact Or.inl ((Function.update_of_ne hother _ _).symm.trans hsub')

/-- **No wake-up is lost.** In every reachable state a call that waits for less than its job
has finds the callback that sets its event under way, and once the loop is free it returns
the job; every step obeys the laws. -/
theorem delivers_of_reachable (h : (jobs π).Reachable world) :
    (∀ task subscriber event, world.subscribers task = some subscriber →
      subscriber.phase = .waiting event → ∀ entry ∈ world.registry.entries, entry.event = event →
        subscriber.revision < entry.job.revision → event ∈ world.scheduled ∧
          (world.active = none → ∃ world', Steps world world' ∧ world'.subscribers task =
            some { subscriber with phase := .returned (some entry.job) })) ∧
    (∀ task subscriber, world.active = some task → world.subscribers task = some subscriber →
      subscriber.phase = .called → ∀ entry ∈ world.registry.entries,
        entry.job.jobId = subscriber.jobId → subscriber.revision < entry.job.revision →
          ∃ world', Steps world world' ∧ world'.subscribers task =
            some { subscriber with phase := .returned (some entry.job) }) ∧
    ∀ world', Step world world' → StepLaws world world' := by
  have hawake := awake_of_reachable h
  refine ⟨?_, ?_, fun _ => hawake.stepLaws⟩
  · intro task subscriber event hsub hphase entry hentry hevent habove
    exact ⟨hawake.wakes task subscriber event hsub (Or.inl hphase) entry hentry hevent habove,
      fun hidle => hawake.returns_of_waiting hidle hsub hphase hentry hevent habove⟩
  · intro task subscriber hactive hsub hphase entry hentry hname habove
    exact returns_of_called hactive hsub hphase (hname ▸ hawake.registry.get_eq hentry) habove

/-! ### A dropped job -/

/-- A name for every job. -/
def jobName (n : ℕ) : String := String.ofList (List.replicate n 'x')

theorem jobName_injective {n n' : ℕ} (h : jobName n = jobName n') : n = n' := by
  have hlength := congrArg List.length (String.ofList_injective h)
  rwa [List.length_replicate, List.length_replicate] at hlength

/-- A job that succeeded in the instant it was registered. -/
def finishedEntry (n : ℕ) : Entry Unit := ⟨⟨jobName n, .succeeded, n, n, 1, ()⟩, n⟩

/-- The registry of some finished jobs. -/
def finishedJobs (n : ℕ) : Registry Unit := ⟨(List.range n).map finishedEntry, n⟩

theorem get_finishedJobs (n : ℕ) : (finishedJobs n).get (jobName n) = none := by
  refine List.find?_eq_none.2 ?_
  intro entry hentry
  obtain ⟨k, hk, rfl⟩ := List.mem_map.1 hentry
  rw [decide_eq_true_eq]
  intro heq
  have hlt := List.mem_range.1 hk
  rw [jobName_injective heq] at hlt
  exact absurd hlt (lt_irrefl n)

theorem register_of_free {registry : Registry π} {kind jobId : String} {now : ℤ} {details : π}
    (h : registry.get jobId = none) : registry.register kind jobId now details = .ok {
      entries := Registry.dropOldestFinished registry.entries ++
        [⟨⟨jobId, .queued, now, now, 0, details⟩, registry.events⟩]
      events := registry.events + 1 } := by
  have hrequire : require (registry.get jobId = none)
      (.valueError (kind ++ " already exists: " ++ jobId)) = .ok () := require_eq_ok.2 h
  unfold Registry.register
  rw [hrequire]
  rfl

theorem filter_finishedJobs (n : ℕ) :
    (finishedJobs n).entries.filter Entry.finished = (finishedJobs n).entries := by
  rw [List.filter_eq_self]
  intro entry hentry
  obtain ⟨k, -, rfl⟩ := List.mem_map.1 hentry
  rfl

theorem length_finishedJobs (n : ℕ) : (finishedJobs n).entries.length = n := by
  unfold finishedJobs
  rw [List.length_map, List.length_range]

/-- Up to the limit nothing is dropped. -/
theorem dropOldestFinished_finishedJobs {n : ℕ} (h : n ≤ maxRetainedFinishedJobs) :
    Registry.dropOldestFinished (finishedJobs n).entries = (finishedJobs n).entries := by
  have hnone : Registry.excess (finishedJobs n).entries = [] := by
    rw [Registry.excess_eq_take, filter_finishedJobs, length_finishedJobs,
      Nat.sub_eq_zero_of_le h, List.take_zero]
  refine List.filter_eq_self.2 ?_
  intro entry _
  rw [hnone]
  rfl

/-- Registering one more job and finishing it. -/
theorem exists_finishedJobs {n : ℕ} (h : n ≤ maxRetainedFinishedJobs + 1) :
    ∃ world : World Unit, (jobs Unit).Reachable world ∧ world.registry = finishedJobs n ∧
      world.active = none ∧ world.subscribers 0 = none := by
  -- on the number of jobs: one more is registered and finished
  induction n with
  | zero => exact ⟨World.start, .init rfl, rfl, rfl, rfl⟩
  | succ n ih =>
    obtain ⟨world, hreachable, hregistry, hidle, hfree⟩ := ih (by omega)
    set queued : Entry Unit := ⟨⟨jobName n, .queued, n, n, 0, ()⟩, n⟩ with hqueued
    have hregister : world.registry.register "job" (jobName n) n () =
        .ok ⟨(finishedJobs n).entries ++ [queued], n + 1⟩ := by
      -- below the bound nothing is dropped
      have hfreeName :=
        @register_of_free Unit (finishedJobs n) "job" (jobName n) n () (get_finishedJobs n)
      rw [dropOldestFinished_finishedJobs (by omega)] at hfreeName
      rw [hregistry]
      exact hfreeName
    have hstep := hreachable.step (Step.register hidle hregister)
    have hget : (⟨(finishedJobs n).entries ++ [queued], n + 1⟩ : Registry Unit).get (jobName n) =
        some queued := by
      change List.find? _ ((finishedJobs n).entries ++ [queued]) = _
      rw [List.find?_append]
      have hnone : (finishedJobs n).entries.find? (fun entry => entry.job.jobId = jobName n) =
        none := get_finishedJobs n
      rw [hnone]
      simp [hqueued]
    have hupdate : (⟨(finishedJobs n).entries ++ [queued], n + 1⟩ : Registry Unit).update
        (jobName n) .succeeded n (fun job => job.details) = .ok (finishedJobs (n + 1), n) := by
      unfold Registry.update
      rw [hget]
      have hentries : ((finishedJobs n).entries ++ [queued]).map (fun entry =>
          if entry.job.jobId = jobName n then
            { entry with job := Registry.updated .succeeded n (fun job => job.details) entry.job }
          else entry) = (finishedJobs (n + 1)).entries := by
        unfold finishedJobs
        rw [List.range_succ, List.map_append, List.map_append, List.map_map]
        congr 1
        · refine List.map_congr_left ?_
          intro k hk
          have hlt := List.mem_range.1 hk
          refine if_neg fun heq => ?_
          rw [jobName_injective heq] at hlt
          exact absurd hlt (lt_irrefl n)
        · simp [hqueued, finishedEntry, Registry.updated]
      simp only [hentries]
      rfl
    exact ⟨_, hstep.step (Step.update hupdate), rfl, hidle, hfree⟩

/-- A call behind the revision of a finished job returns the job. -/
theorem delivers_of_finished_job : ∃ world world' : World Unit, Steps world world' ∧
    world.subscribers 0 = some ⟨jobName 0, 0, .called⟩ ∧
    world'.subscribers 0 = some ⟨jobName 0, 0, .returned (some (finishedEntry 0).job)⟩ := by
  obtain ⟨world, hreachable, hregistry, hidle, hfree⟩ :=
    @exists_finishedJobs 1 (by unfold maxRetainedFinishedJobs; omega)
  set caller : Subscriber Unit := ⟨jobName 0, 0, .called⟩
  have hcall : Step world (world.move 0 caller .called) := Step.call hidle hfree
  have hentry : finishedEntry 0 ∈ (world.move 0 caller .called).registry.entries := by
    change finishedEntry 0 ∈ world.registry.entries
    rw [hregistry]
    exact List.mem_map_of_mem (List.mem_range.2 Nat.one_pos)
  obtain ⟨world', hsteps, hreturned⟩ := (delivers_of_reachable (hreachable.step hcall)).2.1 0 caller
    rfl move_subscribers_self rfl (finishedEntry 0) hentry rfl Int.one_pos
  exact ⟨_, world', hsteps, move_subscribers_self, hreturned⟩

/-- The oldest of one job too many is dropped. -/
theorem get_dropped {registry : Registry Unit} {kind jobId : String} {now : ℤ}
    (h : (finishedJobs (maxRetainedFinishedJobs + 1)).register kind jobId now () = .ok registry)
    (hne : jobId ≠ jobName 0) : registry.get (jobName 0) = none := by
  obtain ⟨-, -, hentries⟩ := Registry.register_eq_ok h
  have hsorted : (finishedJobs (maxRetainedFinishedJobs + 1)).entries.Pairwise
      fun entry entry' => entry.age ≤ entry'.age := by
    refine List.pairwise_map.2 (List.pairwise_lt_range.imp ?_)
    intro k k' hlt
    refine Prod.Lex.toLex_le_toLex.2 (Or.inl ?_)
    change (k : ℤ) < (k' : ℤ)
    exact_mod_cast hlt
  -- one job too many, and the first is the oldest
  have hexcess : Registry.excess (finishedJobs (maxRetainedFinishedJobs + 1)).entries =
      [finishedEntry 0] := by
    rw [Registry.excess_eq_take, Registry.byAge, filter_finishedJobs, length_finishedJobs,
      hsorted.insertionSort_eq, Nat.add_sub_cancel_left]
    rfl
  refine List.find?_eq_none.2 ?_
  intro entry hentry
  rw [decide_eq_true_eq]
  rw [hentries] at hentry
  rcases List.mem_append.1 hentry with hkept | hnew
  · have hids := (Registry.mem_dropOldestFinished.1 hkept).2
    rw [hexcess] at hids
    exact (hids (finishedEntry 0) (List.mem_singleton.2 rfl)).symm
  · rw [List.mem_singleton.1 hnew]
    exact hne

/-- **A dropped job.** When a job is registered behind two hundred and one finished ones, the
oldest is gone, and a call for what follows its registration returns nothing at once. -/
theorem not_alwaysDelivered_of_pruned : ¬∀ world : World Unit, (jobs Unit).Reachable world →
    ∀ task subscriber result, world.subscribers task = some subscriber →
      subscriber.phase = .returned result →
        ∃ job, result = some job ∧ subscriber.revision < job.revision := by
  intro h
  obtain ⟨full, hreachable, hregistry, hidle, hfree⟩ := exists_finishedJobs le_rfl
  have hregister := @register_of_free Unit full.registry "job"
    (jobName (maxRetainedFinishedJobs + 1)) 0 () (hregistry ▸ get_finishedJobs _)
  have hpruned := hreachable.step (Step.register hidle hregister)
  rw [hregistry] at hregister
  have hget := get_dropped hregister fun heq => by cases jobName_injective heq
  rw [← hregistry] at hget
  -- one more registration drops the oldest finished job
  set pruned : World Unit := { full with
    registry := {
      entries := Registry.dropOldestFinished full.registry.entries ++
        [⟨⟨jobName (maxRetainedFinishedJobs + 1), .queued, 0, 0, 0, ()⟩, full.registry.events⟩]
      events := full.registry.events + 1 }
    isSet := Function.update full.isSet full.registry.events false }
  -- its subscriber comes too late
  set caller : Subscriber Unit := ⟨jobName 0, 0, .called⟩
  have hcall : Step pruned (pruned.move 0 caller .called) := Step.call hidle hfree
  have hlook : Step (pruned.move 0 caller .called)
      ((pruned.move 0 caller .called).execute 0 caller) :=
    Step.execute rfl move_subscribers_self
  have hreturn := @execute_missing Unit (pruned.move 0 caller .called) 0 caller rfl hget
  rw [hreturn] at hlook
  obtain ⟨job, hjob, -⟩ := h _ ((hpruned.step hcall).step hlook) 0
    { caller with phase := .returned none } none move_subscribers_self rfl
  cases hjob

end WebApi
end TradingSystem
