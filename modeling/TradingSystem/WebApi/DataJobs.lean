import TradingSystem.WebApi.Subscribers

/-!
# The tasks of the data jobs

Every data job has an `asyncio` task, and one shutdown cancels the tasks and waits for them. The
event loop runs the handles of its ready queue in order: steps of tasks, `event.set` callbacks of
the registry, the done callback `_job_done` of a task, and the one of `asyncio.gather`.

* `Point` — where a task is suspended, or how it ended.
* `Loop.advance` — a step of a task: `_run_data_job` up to where it waits next.
* `Loop.handle`, `Loop.beginShutdown` — what a handle does; `shutdown_data_jobs`.
* `Turn` — one turn of the event loop.
-/

namespace TradingSystem
namespace WebApi

open Logic

variable {π : Type}

/-- How a task ended: it returned, raised, or was cancelled. -/
inductive Ending
  | returned | raised | cancelled
deriving DecidableEq

/-- Where a task is: before its first statement, in `acquire` of the execution gate, in
`create_subprocess_exec`, in `communicate`, in `_stop_process`, or done. -/
inductive Point
  | created | atGate | launching | communicating | stopping
  | done (ending : Ending)
deriving DecidableEq

def Point.isDone : Point → Bool
  | .done _ => true
  | _ => false

/-- A task: its job, its point, and whether its next step raises `CancelledError`. -/
structure JobTask where
  jobId : String
  point : Point
  cancelling : Bool

/-- A task that is told to cancel itself. -/
def JobTask.cancel (task : JobTask) : JobTask :=
  if task.point.isDone then task else { task with cancelling := true }

/-- What the event loop has been asked to call. -/
inductive Handle
  | setEvent (event : ℕ)
  | step (task : ℕ)
  | jobDone (task : ℕ)
  | gathered (task : ℕ)
  | resumeShutdown
deriving DecidableEq

/-- `shutdown_data_jobs`: not called, in `asyncio.gather` with the tasks it still waits for, or
over. -/
inductive Shutdown
  | idle
  | gathering (pending : List ℕ)
  | returned
deriving DecidableEq

/-- The registry with its subscribers, the tasks, those in `_tasks`, the ready queue, the task
that holds the execution gate, and the shutdown. -/
structure Loop (π : Type) where
  world : World π
  tasks : ℕ → Option JobTask
  tracked : List ℕ
  ready : List Handle
  gate : Option ℕ
  shutdown : Shutdown

/-- How what a task waits for answers: not yet, with an exception, or with success or not. -/
inductive Reply
  | pending
  | failed
  | answered (success : Bool)
deriving DecidableEq

/-- The clock and the other fields of the updates of a step. -/
structure Stamp (π : Type) where
  now : ℤ
  details : JobStateValue → Job π → π

namespace Loop

/-- Before anything happened. -/
def start : Loop π := ⟨World.start, fun _ => none, [], [], none, .idle⟩

/-- A task in another state. -/
def setTask (loop : Loop π) (id : ℕ) (task : JobTask) : Loop π :=
  { loop with tasks := Function.update loop.tasks id (some task) }

/-- A task suspended at a point. -/
def suspend (loop : Loop π) (id : ℕ) (task : JobTask) (point : Point) : Loop π :=
  loop.setTask id { task with point := point, cancelling := false }

/-- Leave the execution gate. -/
def releaseGate (loop : Loop π) (id : ℕ) : Loop π :=
  { loop with gate := if loop.gate = some id then none else loop.gate }

/-- What waits for the end of a task. -/
def doneCallbacks (loop : Loop π) (id : ℕ) : List Handle :=
  match loop.shutdown with
  | .gathering pending => if id ∈ pending then [.jobDone id, .gathered id] else [.jobDone id]
  | _ => [.jobDone id]

/-- A task that ends: it has left the gate, and its done callbacks are scheduled. -/
def finish (loop : Loop π) (id : ℕ) (task : JobTask) (ending : Ending) : Loop π :=
  let loop := loop.releaseGate id
  { loop.setTask id { task with point := .done ending, cancelling := false } with
    ready := loop.ready ++ loop.doneCallbacks id }

/-- `registry.update`: the event of the job is asked to be set. An unknown job raises. -/
def report (loop : Loop π) (jobId : String) (status : JobStateValue) (stamp : Stamp π) :
    Option (Loop π) :=
  match loop.world.registry.update jobId status stamp.now (stamp.details status) with
  | .error _ => none
  | .ok (registry, event) => some { loop with
      world := { loop.world with registry := registry, scheduled := event :: loop.world.scheduled }
      ready := loop.ready ++ [.setEvent event] }

/-- The handlers of `_run_data_job` and `_job_done`: a job that is known and not terminal has
failed. -/
def settle (loop : Loop π) (jobId : String) (stamp : Stamp π) : Loop π :=
  match loop.world.registry.get jobId with
  | none => loop
  | some entry =>
    if entry.finished then loop else (loop.report jobId .failed stamp).getD loop

/-- The body once the gate has been acquired: the job is running, and the process is launched. -/
def enter (loop : Loop π) (id : ℕ) (task : JobTask) (reply : Reply) (stamp : Stamp π) : Loop π :=
  match ({ loop with gate := some id }).report task.jobId .running stamp with
  | none => ({ loop with gate := some id }.settle task.jobId stamp).finish id task .returned
  | some loop =>
    if reply = .failed then (loop.settle task.jobId stamp).finish id task .returned
    else loop.suspend id task .launching

/-- A step that raises `CancelledError` where the task is suspended. Before the first statement
no handler is active. -/
def cancelled (loop : Loop π) (id : ℕ) (task : JobTask) (reply : Reply) (stamp : Stamp π) :
    Loop π :=
  match task.point with
  | .created => loop.finish id task .cancelled
  | .atGate => (loop.settle task.jobId stamp).finish id task .cancelled
  | .launching => (loop.settle task.jobId stamp).finish id task .cancelled
  | .communicating =>
    match reply with
    | .pending => (loop.releaseGate id).suspend id task .stopping
    | .failed => loop.finish id task .raised
    | .answered _ => (loop.settle task.jobId stamp).finish id task .cancelled
  | .stopping => loop.finish id task .cancelled
  | .done _ => loop

/-- A step that goes on where the task is suspended. -/
def resumed (loop : Loop π) (id : ℕ) (task : JobTask) (reply : Reply) (stamp : Stamp π) :
    Loop π :=
  match task.point with
  | .created =>
    match loop.world.registry.get task.jobId with
    | none => loop.finish id task .returned
    | some _ =>
      if loop.gate = none then loop.enter id task reply stamp else loop.suspend id task .atGate
  | .atGate => loop.enter id task reply stamp
  | .launching =>
    if reply = .failed then (loop.settle task.jobId stamp).finish id task .returned
    else loop.suspend id task .communicating
  | .communicating =>
    match reply with
    | .pending => loop
    | .failed => (loop.settle task.jobId stamp).finish id task .returned
    | .answered success =>
      match loop.report task.jobId (if success then .succeeded else .failed) stamp with
      | none => (loop.settle task.jobId stamp).finish id task .returned
      | some loop => loop.finish id task .returned
  | .stopping =>
    match reply with
    | .pending => loop
    | .failed => loop.finish id task .raised
    | .answered _ => (loop.settle task.jobId stamp).finish id task .cancelled
  | .done _ => loop

/-- A step of a task. -/
def advance (loop : Loop π) (id : ℕ) (reply : Reply) (stamp : Stamp π) : Loop π :=
  match loop.tasks id with
  | none => loop
  | some task =>
    if task.cancelling then loop.cancelled id task reply stamp
    else loop.resumed id task reply stamp

def jobDone (loop : Loop π) (id : ℕ) (stamp : Stamp π) : Loop π :=
  let loop := { loop with tracked := loop.tracked.filter (· ≠ id) }
  match loop.tasks id with
  | none => loop
  | some task =>
    if task.point = .done .raised then loop.settle task.jobId stamp else loop

/-- The done callback of `asyncio.gather`. -/
def gathered (loop : Loop π) (id : ℕ) : Loop π :=
  match loop.shutdown with
  | .gathering pending =>
    let rest := pending.filter (· ≠ id)
    { loop with
      shutdown := .gathering rest
      ready := if pending ≠ [] ∧ rest = [] then loop.ready ++ [.resumeShutdown] else loop.ready }
  | _ => loop

/-- What a handle does. -/
def handle (loop : Loop π) (reply : Reply) (stamp : Stamp π) : Handle → Loop π
  | .setEvent event => { loop with world := loop.world.fire event }
  | .step id => loop.advance id reply stamp
  | .jobDone id => loop.jobDone id stamp
  | .gathered id => loop.gathered id
  | .resumeShutdown => { loop with shutdown := .returned }

/-- `shutdown_data_jobs`, up to `asyncio.gather`: a task that waits is woken with the
cancellation, and the end of one that is over has already come. -/
def beginShutdown (loop : Loop π) : Loop π :=
  if loop.tracked = [] then { loop with shutdown := .returned }
  else { loop with
    tasks := fun id => (loop.tasks id).map fun task =>
      if id ∈ loop.tracked then task.cancel else task
    shutdown := .gathering loop.tracked
    ready := loop.ready ++ loop.tracked.flatMap fun id =>
      match loop.tasks id with
      | none => []
      | some task =>
        if task.point.isDone then [.gathered id]
        else if .step id ∈ loop.ready then [] else [.step id] }

end Loop

/-- One turn. -/
inductive Turn : Loop π → Loop π → Prop
  /-- `submit_data_job` -/
  | submit {loop : Loop π} {id : ℕ} {jobId : String} {now : ℤ} {details : π}
      {registry : Registry π} (idle : loop.world.active = none) (open_ : loop.shutdown = .idle)
      (fresh : loop.tasks id = none)
      (h : loop.world.registry.register "data job" jobId now details = .ok registry) :
      Turn loop { loop.setTask id ⟨jobId, .created, false⟩ with
        world := { loop.world with
          registry := registry
          isSet := Function.update loop.world.isSet loop.world.registry.events false }
        tracked := id :: loop.tracked
        ready := loop.ready ++ [.step id] }
  /-- what a task waits for has answered -/
  | wake {loop : Loop π} {id : ℕ} {task : JobTask} (h : loop.tasks id = some task)
      (waits : task.point.isDone = false) (quiet : .step id ∉ loop.ready)
      (free : task.point = .atGate → loop.gate = none) :
      Turn loop { loop with
        gate := if task.point = .atGate then some id else loop.gate
        ready := loop.ready ++ [.step id] }
  /-- the front of the queue -/
  | run {loop : Loop π} {handle : Handle} {rest : List Handle} (reply : Reply) (stamp : Stamp π)
      (idle : loop.world.active = none) (h : loop.ready = handle :: rest) :
      Turn loop ({ loop with ready := rest }.handle reply stamp handle)
  /-- `shutdown_data_jobs` is called -/
  | shutdown {loop : Loop π} (idle : loop.world.active = none) (h : loop.shutdown = .idle) :
      Turn loop loop.beginShutdown
  /-- a call of `wait_for_change` goes on -/
  | subscribe {loop : Loop π} {world : World π} (h : Step loop.world world)
      (registry_eq : world.registry = loop.world.registry)
      (scheduled_eq : world.scheduled = loop.world.scheduled) :
      Turn loop { loop with world := world }

/-- The data jobs of a web process. -/
def dataJobs (π : Type) : TransitionSystem (Loop π) where
  init loop := loop = Loop.start
  step := Turn

end WebApi
end TradingSystem
