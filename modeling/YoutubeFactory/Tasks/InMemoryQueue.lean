import YoutubeFactory.Lib.Except
import YoutubeFactory.Lib.Run
import Mathlib.Order.Basic

/-!
# The task queue in memory

`InMemoryTaskQueue` of `app/core/tasks/queue.py`.  Records are never removed, so a task's position
is its id, and `_records` and `_running` are one table.

`_run` is a coroutine, and the others run while it waits.  What the handler does is up to the
handler: a turn of the coroutine is given the reaction.  A turn ends where the handler is called
and where it answers, so what comes between two turns may come from other coroutines, while the
handler waits, and from the handler itself.  A timeout of `wait_for` is the reaction `raisesTimeout`.
-/

namespace YoutubeFactory.Tasks

abbrev Id := Nat

/-- Seconds since the epoch, UTC. -/
abbrev DateTime := Int

/-! ## Records -/

inductive TaskStatus where
  | pending | scheduled | running | succeeded | failed | retrying | cancelled | timedOut
deriving DecidableEq, Repr

structure TaskSpec (Payload : Type) where
  name : String
  payload : Payload
  delaySeconds : Rat
  maxRetries : Int

structure TaskRecord (Result : Type) where
  name : String
  status : TaskStatus
  progress : Rat
  result : Option Result
  error : Option String
  attempts : Nat
  updatedAt : DateTime

/-- Where `_run` stands. -/
inductive Stage where
  | created | sleeping | inHandler | done
deriving DecidableEq, Repr

/-- A record with its coroutine, and what its handler has been called with. -/
structure Task (Payload Result : Type) where
  spec : TaskSpec Payload
  record : TaskRecord Result
  stage : Stage
  /-- A cancellation that the coroutine has not seen yet. -/
  cancelling : Bool
  invocations : List Payload

structure InMemoryTaskQueue (Payload Result : Type) where
  handlers : List String
  tasks : List (Task Payload Result)

/-- What a handler does when it has its turn. -/
inductive Reaction (Result : Type) where
  /-- It waits, and has reported its progress. -/
  | waits (progress : Rat)
  | returns (result : Result)
  | raisesCancelled
  | raisesTimeout
  | raises (message : String)
  /-- An exception that is none of `Exception`. -/
  | exits

inductive QueueError where
  | queue (message : String)
  | notFound (message : String)
deriving DecidableEq, Repr

section

variable {Payload Result : Type}

namespace Task

/-! ## The coroutine -/

/-- The head of the loop: an attempt is counted, and the handler is called. -/
def start (now : DateTime) (task : Task Payload Result) : Task Payload Result :=
  { task with
    record :=
      { task.record with
        attempts := task.record.attempts + 1, status := .running, updatedAt := now }
    stage := .inHandler
    invocations := task.invocations ++ [task.spec.payload] }

/-- `_run` returns. -/
def finish (task : Task Payload Result) (record : TaskRecord Result) : Task Payload Result :=
  { task with record, stage := .done }

/-- The rest of the loop, once the handler has reacted. -/
def react (now : DateTime) (task : Task Payload Result) :
    Reaction Result → Task Payload Result
  | .waits progress => { task with record := { task.record with progress } }
  | .returns result =>
      task.finish
        { task.record with
          result := some result, status := .succeeded, progress := 1, updatedAt := now }
  | .raisesCancelled => task.finish { task.record with status := .cancelled, updatedAt := now }
  | .raisesTimeout =>
      task.finish
        { task.record with
          status := .timedOut, error := some "Task timed out.", updatedAt := now }
  | .raises message =>
      if (task.record.attempts : Int) > task.spec.maxRetries then
        task.finish
          { task.record with error := some message, status := .failed, updatedAt := now }
      else
        start now
          { task with
            record :=
              { task.record with error := some message, status := .retrying, updatedAt := now } }
  | .exits => { task with stage := .done }

/-- A turn of the coroutine.  A cancellation that comes before the loop ends it: the first line of
`_run` and the sleep are outside the `try`. -/
def turn (reaction : Reaction Result) (now : DateTime) (task : Task Payload Result) :
    Task Payload Result :=
  match task.stage with
  | .created =>
      if task.cancelling then { task with stage := .done }
      else if task.spec.delaySeconds ≠ 0 then { task with stage := .sleeping }
      else task.start now
  | .sleeping => if task.cancelling then { task with stage := .done } else task.start now
  | .inHandler => task.react now reaction
  | .done => task

/-- `asyncio.Task.cancel` -/
def interrupt (task : Task Payload Result) : Task Payload Result :=
  { task with cancelling := true }

/-- What `cancel` writes. -/
def cancel (now : DateTime) (task : Task Payload Result) : Task Payload Result :=
  { task.interrupt with
    record := { task.record with status := .cancelled, updatedAt := now } }

/-- What `submit` makes of a specification. -/
def submitted (spec : TaskSpec Payload) (now : DateTime) : Task Payload Result where
  spec := spec
  record :=
    { name := spec.name
      status := if spec.delaySeconds ≠ 0 then .scheduled else .pending
      progress := 0, result := none, error := none, attempts := 0, updatedAt := now }
  stage := .created
  cancelling := false
  invocations := []

end Task

/-! ## The queue -/

namespace InMemoryTaskQueue

variable (queue : InMemoryTaskQueue Payload Result)

def register (name : String) : InMemoryTaskQueue Payload Result :=
  { queue with handlers := name :: queue.handlers }

def submit (spec : TaskSpec Payload) (now : DateTime) :
    Except QueueError (Id × InMemoryTaskQueue Payload Result) :=
  if spec.name ∉ queue.handlers then
    .error (.queue ("No handler registered for task '" ++ spec.name ++ "'."))
  else
    .ok (queue.tasks.length, { queue with tasks := queue.tasks ++ [.submitted spec now] })

/-- What the calls that name a task have in common. -/
def change (id : Id) (f : Task Payload Result → Task Payload Result) :
    Except QueueError (Id × InMemoryTaskQueue Payload Result) :=
  match queue.tasks[id]? with
  | none => .error (.notFound "Task not found.")
  | some task => .ok (id, { queue with tasks := queue.tasks.set id (f task) })

def cancel (id : Id) (now : DateTime) :
    Except QueueError (Id × InMemoryTaskQueue Payload Result) :=
  queue.change id (·.cancel now)

/-- `wait`, whose caller is cancelled before the task is done: `gather` hands that on to the
task. -/
def abandonWait (id : Id) : Except QueueError (Id × InMemoryTaskQueue Payload Result) :=
  queue.change id (·.interrupt)

/-- The event loop gives the task its turn. -/
def takeTurn (id : Id) (reaction : Reaction Result) (now : DateTime) :
    Except QueueError (Id × InMemoryTaskQueue Payload Result) :=
  queue.change id (·.turn reaction now)

end InMemoryTaskQueue

/-! ## Calls -/

inductive QueueCall (Payload Result : Type) where
  | register (name : String)
  | submit (spec : TaskSpec Payload) (now : DateTime)
  | cancel (id : Id) (now : DateTime)
  | abandonWait (id : Id)
  | turn (id : Id) (reaction : Reaction Result) (now : DateTime)

namespace QueueCall

def attempt (queue : InMemoryTaskQueue Payload Result) :
    QueueCall Payload Result → Except QueueError (Id × InMemoryTaskQueue Payload Result)
  | .register name => .ok (queue.tasks.length, queue.register name)
  | .submit spec now => queue.submit spec now
  | .cancel id now => queue.cancel id now
  | .abandonWait id => queue.abandonWait id
  | .turn id reaction now => queue.takeTurn id reaction now

def step (queue : InMemoryTaskQueue Payload Result) (call : QueueCall Payload Result) :
    InMemoryTaskQueue Payload Result :=
  Run.commit queue (call.attempt queue)

/-- The task of an id after a call. -/
def effect (id : Id) (task : Task Payload Result) :
    QueueCall Payload Result → Task Payload Result
  | .register _ => task
  | .submit .. => task
  | .cancel id' now => if id' = id then task.cancel now else task
  | .abandonWait id' => if id' = id then task.interrupt else task
  | .turn id' reaction now => if id' = id then task.turn reaction now else task

/-! ## What a call does to a task -/

variable {queue : InMemoryTaskQueue Payload Result} {id : Id} {task : Task Payload Result}

theorem change_getElem? {id' : Id} {f : Task Payload Result → Task Payload Result}
    (htask : queue.tasks[id]? = some task) :
    (Run.commit queue (queue.change id' f)).tasks[id]? =
      some (if id' = id then f task else task) := by
  have hlt : id < queue.tasks.length := (List.getElem?_eq_some_iff.mp htask).1
  unfold InMemoryTaskQueue.change
  by_cases hid : id' = id
  · subst hid
    rw [htask, if_pos rfl]
    exact List.getElem?_set_self hlt
  · rw [if_neg hid]
    cases queue.tasks[id']? with
    | none => exact htask
    | some other => exact (List.getElem?_set_ne hid).trans htask

/-- A task that is there stays there, changed as the call says. -/
theorem step_getElem? (call : QueueCall Payload Result)
    (htask : queue.tasks[id]? = some task) :
    (call.step queue).tasks[id]? = some (call.effect id task) := by
  have hlt : id < queue.tasks.length := (List.getElem?_eq_some_iff.mp htask).1
  cases call with
  | register name => exact htask
  | submit spec now =>
      unfold step attempt InMemoryTaskQueue.submit
      dsimp only
      split
      · exact htask
      · exact (List.getElem?_append_left hlt).trans htask
  | cancel id' now => exact change_getElem? htask
  | abandonWait id' => exact change_getElem? htask
  | turn id' reaction now => exact change_getElem? htask

theorem length_change {id' : Id} {f : Task Payload Result → Task Payload Result} :
    (Run.commit queue (queue.change id' f)).tasks.length = queue.tasks.length := by
  unfold InMemoryTaskQueue.change
  cases queue.tasks[id']? with
  | none => rfl
  | some other => exact List.length_set

/-- A task that a call has added is one that was submitted, under a name that has a handler. -/
theorem step_added (call : QueueCall Payload Result) (hnone : queue.tasks[id]? = none)
    (htask : (call.step queue).tasks[id]? = some task) :
    ∃ spec now, call = .submit spec now ∧ spec.name ∈ queue.handlers ∧
      task = .submitted spec now := by
  have hlength := List.getElem?_eq_none_iff.mp hnone
  have habsent : (call.step queue).tasks.length = queue.tasks.length → False := fun hsame => by
    have hlt := (List.getElem?_eq_some_iff.mp htask).1
    omega
  cases call with
  | register name => exact (habsent rfl).elim
  | submit spec now =>
      unfold step attempt InMemoryTaskQueue.submit at htask
      dsimp only at htask
      split at htask
      · rw [Run.commit_error, hnone] at htask
        cases htask
      · next hname =>
          rw [Run.commit_ok, List.getElem?_append_right hlength] at htask
          have hmem := List.mem_of_getElem? htask
          exact ⟨spec, now, rfl, not_not.mp hname, List.mem_singleton.mp hmem⟩
  | cancel => exact (habsent length_change).elim
  | abandonWait => exact (habsent length_change).elim
  | turn => exact (habsent length_change).elim

end QueueCall

end

end YoutubeFactory.Tasks
