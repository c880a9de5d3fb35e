import YoutubeFactory.Tasks.InMemoryQueue

/-!
# A task is settled once

The law of the queue: a status that says how a task ended stays, the handler is called at most
`max_retries + 1` times, and not again once the task is cancelled.

`cancel` writes its status whatever the record says, and asks the coroutine to stop.  The handler
has the first say on that: it may return all the same, or raise something else, and `_run` then
writes what it makes of the answer, and may call the handler again.
-/

namespace YoutubeFactory.Tasks

open QueueCall

section

variable {Payload Result : Type}

/-! ## The law -/

/-- The statuses that say how a task ended. -/
def TaskStatus.settled : List TaskStatus := [.succeeded, .failed, .timedOut, .cancelled]

/-- The statuses that say how a task ended stay. -/
def KeepsSettled (queue queue' : InMemoryTaskQueue Payload Result) : Prop :=
  ∀ (id : Id) task, queue.tasks[id]? = some task → task.record.status ∈ TaskStatus.settled →
    ∃ task', queue'.tasks[id]? = some task' ∧ task'.record.status = task.record.status

def WithinRetries (queue : InMemoryTaskQueue Payload Result) : Prop :=
  ∀ (id : Id) task, queue.tasks[id]? = some task →
    (task.invocations.length : Int) ≤ task.spec.maxRetries + 1

/-- After a `cancel` of a task its handler is not called any more. -/
def NotStartedAgain (queue : InMemoryTaskQueue Payload Result)
    (calls : List (QueueCall Payload Result)) : Prop :=
  ∀ earlier between later id now,
    calls = earlier ++ .cancel id now :: between ++ later →
    ∀ task, (Run.run QueueCall.step queue earlier).tasks[id]? = some task →
      ∀ task', (Run.run QueueCall.step queue
        (earlier ++ .cancel id now :: between)).tasks[id]? = some task' →
        task'.invocations = task.invocations

structure SettledOnce (queue : InMemoryTaskQueue Payload Result)
    (calls : List (QueueCall Payload Result)) : Prop where
  settled : Run.Evolves QueueCall.step KeepsSettled queue calls
  within : Run.Always QueueCall.step WithinRetries queue calls
  cancelled : NotStartedAgain queue calls

/-! ## The calls that keep it -/

/-- The handler goes on waiting, or is left by an exception that says that it was cancelled, or by
one that `_run` does not handle. -/
def Reaction.yields : Reaction Result → Bool
  | .waits _ | .raisesCancelled | .exits => true
  | .returns _ | .raisesTimeout | .raises _ => false

/-- No `cancel` reaches a task that ended in another way, and a handler that has its turn after a
`cancel` yields. -/
def SparesSettled (queue : InMemoryTaskQueue Payload Result) :
    QueueCall Payload Result → Prop
  | .cancel id _ => ∀ task ∈ queue.tasks[id]?,
      task.record.status ∈ TaskStatus.settled → task.record.status = .cancelled
  | .turn id reaction _ => ∀ task ∈ queue.tasks[id]?,
      task.stage = .inHandler → task.record.status = .cancelled → reaction.yields = true
  | _ => True

/-- The next turn is the one with the first attempt. -/
def Task.beforeFirst (task : Task Payload Result) : Prop :=
  task.cancelling = false ∧
    (task.stage = .created ∧ task.spec.delaySeconds = 0 ∨ task.stage = .sleeping)

/-- `max_retries` leaves room for the first attempt where there is one. -/
def StartsWithin (queue : InMemoryTaskQueue Payload Result) : QueueCall Payload Result → Prop
  | .submit spec _ => spec.name ∈ queue.handlers → -1 ≤ spec.maxRetries
  | .turn id _ _ => ∀ task ∈ queue.tasks[id]?, task.beforeFirst → 0 ≤ task.spec.maxRetries
  | _ => True

/-! ## What every call keeps -/

/-- The attempts are the calls of the handler, and before the last turn a status that says how the
task ended is the one that `cancel` wrote. -/
structure Task.Sound (task : Task Payload Result) : Prop where
  counted : task.record.attempts = task.invocations.length
  unstarted : task.stage = .created ∨ task.stage = .sleeping → task.invocations = [] ∧
    (task.record.status ∈ TaskStatus.settled → task.cancelling = true)
  undone : task.stage ≠ .done → task.record.status ∈ TaskStatus.settled →
    task.record.status = .cancelled

def SoundQueue (queue : InMemoryTaskQueue Payload Result) : Prop :=
  ∀ (id : Id) task, queue.tasks[id]? = some task → task.Sound

variable {queue : InMemoryTaskQueue Payload Result} {id : Id} {task : Task Payload Result}

namespace Task

theorem sound_submitted (spec : TaskSpec Payload) (now : DateTime) :
    (submitted spec now : Task Payload Result).Sound := by
  have hopen : (submitted spec now : Task Payload Result).record.status ∉
      TaskStatus.settled := by
    unfold submitted TaskStatus.settled
    dsimp only
    split <;> decide
  exact ⟨rfl, fun _ => ⟨rfl, fun h => absurd h hopen⟩, fun _ h => absurd h hopen⟩

/-- A task that is done has nothing to keep but the count. -/
theorem sound_of_done (hdone : task.stage = .done)
    (hcounted : task.record.attempts = task.invocations.length) : task.Sound where
  counted := hcounted
  unstarted := by
    rw [hdone]
    rintro (h | h) <;> cases h
  undone := fun h => absurd hdone h

theorem sound_start (now : DateTime) (h : task.record.attempts = task.invocations.length) :
    (task.start now).Sound where
  counted := by
    unfold start
    dsimp only
    rw [List.length_append, h]
    rfl
  unstarted := by
    rintro (h | h) <;> cases h
  undone := fun _ hsettled => absurd hsettled (by decide : TaskStatus.running ∉ _)

theorem Sound.interrupt (h : task.Sound) : task.interrupt.Sound where
  counted := h.counted
  unstarted := fun hstage => ⟨(h.unstarted hstage).1, fun _ => rfl⟩
  undone := h.undone

theorem Sound.cancel (h : task.Sound) (now : DateTime) : (task.cancel now).Sound where
  counted := h.counted
  unstarted := fun hstage => ⟨(h.unstarted hstage).1, fun _ => rfl⟩
  undone := fun _ _ => rfl

theorem Sound.react (h : task.Sound) (now : DateTime) (reaction : Reaction Result) :
    (task.react now reaction).Sound := by
  cases reaction with
  | waits progress => exact ⟨h.counted, h.unstarted, h.undone⟩
  | returns result => exact sound_of_done rfl h.counted
  | raisesCancelled => exact sound_of_done rfl h.counted
  | raisesTimeout => exact sound_of_done rfl h.counted
  | raises message =>
      rw [Task.react]
      split
      · exact sound_of_done rfl h.counted
      · exact sound_start now h.counted
  | exits => exact sound_of_done rfl h.counted

/-- The turns of a task, one for each place where `_run` may stand. -/
theorem turn_cases (reaction : Reaction Result) (now : DateTime) (task : Task Payload Result) :
    (task.beforeFirst ∧ task.turn reaction now = task.start now) ∨
    (task.stage = .inHandler ∧ task.turn reaction now = task.react now reaction) ∨
    (task.stage = .created ∧ task.cancelling = false ∧
      task.turn reaction now = { task with stage := .sleeping }) ∨
    (task.stage ≠ .inHandler ∧ task.turn reaction now = { task with stage := .done }) := by
  unfold turn beforeFirst
  cases hstage : task.stage with
  | created =>
      cases hcancelling : task.cancelling with
      | true => exact .inr (.inr (.inr ⟨nofun, rfl⟩))
      | false =>
          by_cases hdelay : task.spec.delaySeconds = 0
          · refine .inl ⟨⟨rfl, .inl ⟨rfl, hdelay⟩⟩, ?_⟩
            simp [hdelay]
          · refine .inr (.inr (.inl ⟨rfl, rfl, ?_⟩))
            simp [hdelay]
  | sleeping =>
      cases hcancelling : task.cancelling with
      | true => exact .inr (.inr (.inr ⟨nofun, rfl⟩))
      | false => exact .inl ⟨⟨rfl, .inr rfl⟩, rfl⟩
  | inHandler => exact .inr (.inl ⟨rfl, rfl⟩)
  | done =>
      refine .inr (.inr (.inr ⟨nofun, ?_⟩))
      cases task
      cases hstage
      rfl

theorem turn_of_beforeFirst (h : task.beforeFirst) (reaction : Reaction Result)
    (now : DateTime) : task.turn reaction now = task.start now := by
  obtain ⟨hcancelling, ⟨hstage, hdelay⟩ | hstage⟩ := h
  · rw [turn, hstage, hcancelling, hdelay]
    rfl
  · rw [turn, hstage, hcancelling]
    rfl

theorem Sound.turn (h : task.Sound) (reaction : Reaction Result) (now : DateTime) :
    (task.turn reaction now).Sound := by
  rcases turn_cases reaction now task with
    ⟨-, hturn⟩ | ⟨-, hturn⟩ | ⟨hstage, -, hturn⟩ | ⟨-, hturn⟩
  · rw [hturn]
    exact sound_start now h.counted
  · rw [hturn]
    exact h.react now reaction
  · rw [hturn]
    refine ⟨h.counted, fun _ => h.unstarted (.inl hstage), fun _ => h.undone ?_⟩
    rw [hstage]
    exact nofun
  · rw [hturn]
    exact sound_of_done rfl h.counted

end Task

theorem SoundQueue.step (h : SoundQueue queue) (call : QueueCall Payload Result) :
    SoundQueue (call.step queue) := by
  intro id task' htask'
  cases htask : queue.tasks[id]? with
  | none =>
      obtain ⟨spec, now, -, -, rfl⟩ := step_added call htask htask'
      exact Task.sound_submitted spec now
  | some task =>
      rw [step_getElem? call htask, Option.some.injEq] at htask'
      subst htask'
      have hsound := h id task htask
      cases call with
      | register => exact hsound
      | submit => exact hsound
      | cancel id' now =>
          rw [effect]
          split
          · exact hsound.cancel now
          · exact hsound
      | abandonWait id' =>
          rw [effect]
          split
          · exact hsound.interrupt
          · exact hsound
      | turn id' reaction now =>
          rw [effect]
          split
          · exact hsound.turn reaction now
          · exact hsound

theorem soundQueue_empty (handlers : List String) :
    SoundQueue (⟨handlers, []⟩ : InMemoryTaskQueue Payload Result) :=
  fun _ _ htask => by cases htask

/-! ## What the calls do to a settled task -/

theorem KeepsSettled.refl (queue : InMemoryTaskQueue Payload Result) : KeepsSettled queue queue :=
  fun _ task htask _ => ⟨task, htask, rfl⟩

theorem KeepsSettled.trans {queue queue' queue'' : InMemoryTaskQueue Payload Result}
    (h : KeepsSettled queue queue') (h' : KeepsSettled queue' queue'') :
    KeepsSettled queue queue'' := by
  intro id task htask hsettled
  obtain ⟨task', htask', hsame⟩ := h id task htask hsettled
  obtain ⟨task'', htask'', hsame'⟩ := h' id task' htask' (hsame ▸ hsettled)
  exact ⟨task'', htask'', hsame'.trans hsame⟩

/-- One call keeps the statuses if the tasks it finds keep theirs. -/
theorem keepsSettled_step_iff (call : QueueCall Payload Result) :
    KeepsSettled queue (call.step queue) ↔ ∀ (id : Id) task, queue.tasks[id]? = some task →
      task.record.status ∈ TaskStatus.settled →
      (call.effect id task).record.status = task.record.status := by
  constructor
  · intro h id task htask hsettled
    obtain ⟨task', htask', hsame⟩ := h id task htask hsettled
    rw [step_getElem? call htask] at htask'
    cases htask'
    exact hsame
  · intro h id task htask hsettled
    exact ⟨_, step_getElem? call htask, h id task htask hsettled⟩

namespace Task

theorem react_status_iff (now : DateTime) (reaction : Reaction Result)
    (h : task.record.status = .cancelled) :
    (task.react now reaction).record.status = .cancelled ↔ reaction.yields = true := by
  cases reaction with
  | waits progress => exact iff_of_true h rfl
  | returns result => exact iff_of_false nofun nofun
  | raisesCancelled => exact iff_of_true rfl rfl
  | raisesTimeout => exact iff_of_false nofun nofun
  | raises message =>
      rw [react]
      split
      · exact iff_of_false nofun nofun
      · exact iff_of_false nofun nofun
  | exits => exact iff_of_true h rfl

/-- The handler is called again after an exception that leaves a retry, and else not. -/
theorem react_invocations (now : DateTime) (reaction : Reaction Result) :
    (task.react now reaction).invocations = task.invocations ∨
    reaction.yields = false ∧ (task.record.attempts : Int) ≤ task.spec.maxRetries ∧
      (task.react now reaction).invocations = task.invocations ++ [task.spec.payload] := by
  cases reaction with
  | raises message =>
      rw [react]
      split
      · exact .inl rfl
      · next hleft => exact .inr ⟨rfl, Int.not_lt.mp hleft, rfl⟩
  | waits | returns | raisesCancelled | raisesTimeout | exits => exact .inl rfl

theorem turn_spec (reaction : Reaction Result) (now : DateTime) :
    (task.turn reaction now).spec = task.spec := by
  rcases turn_cases reaction now task with
    ⟨-, hturn⟩ | ⟨-, hturn⟩ | ⟨-, -, hturn⟩ | ⟨-, hturn⟩
  · rw [hturn]
    rfl
  · rw [hturn]
    cases reaction with
    | raises message =>
        rw [react]
        split <;> rfl
    | waits | returns | raisesCancelled | raisesTimeout | exits => rfl
  · rw [hturn]
  · rw [hturn]

/-- A turn of a task that is settled, if its handler yields where it has the turn: the status
stays, and the handler is not called. -/
theorem turn_of_settled (h : task.Sound) (hsettled : task.record.status ∈ TaskStatus.settled)
    {reaction : Reaction Result} (now : DateTime)
    (hyields : task.stage = .inHandler → task.record.status = .cancelled →
      reaction.yields = true) :
    (task.turn reaction now).record.status = task.record.status ∧
      (task.turn reaction now).invocations = task.invocations := by
  rcases turn_cases reaction now task with
    ⟨⟨hcancelling, hstage⟩, -⟩ | ⟨hstage, hturn⟩ | ⟨-, -, hturn⟩ | ⟨-, hturn⟩
  · have hasked := (h.unstarted (hstage.imp_left And.left)).2 hsettled
    rw [hasked] at hcancelling
    cases hcancelling
  · have hcancelled : task.record.status = .cancelled := by
      refine h.undone ?_ hsettled
      rw [hstage]
      exact nofun
    have hyield := hyields hstage hcancelled
    rw [hturn, hcancelled]
    refine ⟨(react_status_iff now reaction hcancelled).mpr hyield, ?_⟩
    rcases @react_invocations _ _ task now reaction with hsame | ⟨hnot, -⟩
    · exact hsame
    · rw [hyield] at hnot
      cases hnot
  · rw [hturn]
    exact ⟨rfl, rfl⟩
  · rw [hturn]
    exact ⟨rfl, rfl⟩

end Task

theorem keepsSettled_iff_spares (hsound : SoundQueue queue) (call : QueueCall Payload Result) :
    KeepsSettled queue (call.step queue) ↔ SparesSettled queue call := by
  rw [keepsSettled_step_iff]
  cases call with
  | register => exact iff_of_true (fun _ _ _ _ => rfl) trivial
  | submit => exact iff_of_true (fun _ _ _ _ => rfl) trivial
  | cancel id now =>
      constructor
      · intro h task htask hsettled
        have hstatus := h id task htask hsettled
        rw [effect, if_pos rfl] at hstatus
        exact hstatus.symm
      · intro h id' task htask hsettled
        rw [effect]
        split
        · next hid =>
            subst hid
            exact (h task htask hsettled).symm
        · rfl
  | abandonWait id =>
      refine iff_of_true (fun id' task _ _ => ?_) trivial
      rw [effect]
      split <;> rfl
  | turn id reaction now =>
      constructor
      · intro h task htask hstage hcancelled
        have hstatus := h id task htask (by rw [hcancelled]; decide)
        rw [effect, if_pos rfl, Task.turn, hstage, hcancelled] at hstatus
        exact (Task.react_status_iff now reaction hcancelled).mp hstatus
      · intro h id' task htask hsettled
        rw [effect]
        split
        · next hid =>
            subst hid
            exact (Task.turn_of_settled (hsound _ task htask) hsettled now (h task htask)).1
        · rfl

/-! ## What the calls do to the count -/

theorem effect_spec (call : QueueCall Payload Result) (id : Id) (task : Task Payload Result) :
    (call.effect id task).spec = task.spec := by
  cases call with
  | register | submit => rfl
  | cancel | abandonWait =>
      rw [effect]
      split <;> rfl
  | turn id' reaction now =>
      rw [effect]
      split
      · exact Task.turn_spec reaction now
      · rfl

/-- A call that counts is a turn: the first attempt, or one that the retries allow. -/
theorem effect_invocations (call : QueueCall Payload Result) (id : Id)
    (task : Task Payload Result) :
    (call.effect id task).invocations = task.invocations ∨
    (call.effect id task).invocations = task.invocations ++ [task.spec.payload] ∧
      ((∃ reaction now, call = .turn id reaction now ∧ task.beforeFirst) ∨
        (task.record.attempts : Int) ≤ task.spec.maxRetries) := by
  cases call with
  | register | submit => exact .inl rfl
  | cancel | abandonWait =>
      rw [effect]
      split <;> exact .inl rfl
  | turn id' reaction now =>
      rw [effect]
      split
      · next hid =>
          subst hid
          rcases Task.turn_cases reaction now task with
            ⟨hfirst, hturn⟩ | ⟨-, hturn⟩ | ⟨-, -, hturn⟩ | ⟨-, hturn⟩
          · rw [hturn]
            exact .inr ⟨rfl, .inl ⟨reaction, now, rfl, hfirst⟩⟩
          · rw [hturn]
            rcases @Task.react_invocations _ _ task now reaction with hsame | ⟨-, hleft, hmore⟩
            · exact .inl hsame
            · exact .inr ⟨hmore, .inr hleft⟩
          · rw [hturn]
            exact .inl rfl
          · rw [hturn]
            exact .inl rfl
      · exact .inl rfl

theorem withinRetries_step_iff (hsound : SoundQueue queue) (call : QueueCall Payload Result)
    (h : WithinRetries queue) : WithinRetries (call.step queue) ↔ StartsWithin queue call := by
  constructor
  · intro hstep
    cases call with
    | submit spec now =>
        intro hname
        have hadded : (QueueCall.step queue (.submit spec now)).tasks[queue.tasks.length]? =
            some (.submitted spec now) := by
          unfold QueueCall.step attempt InMemoryTaskQueue.submit
          dsimp only
          rw [if_neg (not_not.mpr hname)]
          exact List.getElem?_concat_length
        have hwithin : (0 : Int) ≤ spec.maxRetries + 1 := hstep _ _ hadded
        omega
    | turn id reaction now =>
        intro task htask hfirst
        have hnone := ((hsound id task htask).unstarted (hfirst.2.imp_left And.left)).1
        have hwithin := hstep id _ (step_getElem? (.turn id reaction now) htask)
        rw [effect_spec, effect, if_pos rfl, Task.turn_of_beforeFirst hfirst, Task.start,
          hnone] at hwithin
        exact Int.le_of_add_le_add_right hwithin
    | register | cancel | abandonWait => exact trivial
  · intro hstarts id task' htask'
    cases htask : queue.tasks[id]? with
    | none =>
        obtain ⟨spec, now, rfl, hname, rfl⟩ := step_added call htask htask'
        have hroom : -1 ≤ spec.maxRetries := hstarts hname
        exact Int.le_add_of_sub_right_le hroom
    | some task =>
        rw [step_getElem? call htask, Option.some.injEq] at htask'
        subst htask'
        rw [effect_spec]
        rcases effect_invocations call id task with
          hsame | ⟨hmore, ⟨reaction, now, rfl, hfirst⟩ | hleft⟩
        · rw [hsame]
          exact h id task htask
        · have hnone := ((hsound id task htask).unstarted (hfirst.2.imp_left And.left)).1
          have hroom : 0 ≤ task.spec.maxRetries := hstarts task htask hfirst
          rw [hmore, hnone]
          exact Int.add_le_add_right hroom 1
        · rw [(hsound id task htask).counted] at hleft
          rw [hmore, List.length_append]
          exact Int.add_le_add_right hleft 1

/-! ## A cancelled task -/

/-- The task is cancelled, and these are the calls of its handler. -/
def Stopped (id : Id) (invocations : List Payload)
    (queue : InMemoryTaskQueue Payload Result) : Prop :=
  ∃ task, queue.tasks[id]? = some task ∧ task.record.status = .cancelled ∧
    task.invocations = invocations

theorem Stopped.step {invocations : List Payload} (hsound : SoundQueue queue)
    {call : QueueCall Payload Result} (hspares : SparesSettled queue call)
    (h : Stopped id invocations queue) : Stopped id invocations (call.step queue) := by
  obtain ⟨task, htask, hcancelled, rfl⟩ := h
  have hsettled : task.record.status ∈ TaskStatus.settled := by
    rw [hcancelled]
    decide
  refine ⟨_, step_getElem? call htask, ?_, ?_⟩
  · rw [← hcancelled]
    exact (keepsSettled_step_iff call).mp ((keepsSettled_iff_spares hsound call).mpr hspares) id
      task htask hsettled
  · cases call with
    | register | submit => rfl
    | cancel | abandonWait =>
        rw [effect]
        split <;> rfl
    | turn id' reaction now =>
        rw [effect]
        split
        · next hid =>
            subst hid
            exact (Task.turn_of_settled (hsound _ task htask) hsettled now
              (hspares task htask)).2
        · rfl

theorem notStartedAgain_of_spares {calls : List (QueueCall Payload Result)}
    (hsound : SoundQueue queue) (h : Run.EveryStep QueueCall.step SparesSettled queue calls) :
    NotStartedAgain queue calls := by
  rintro earlier between later id now rfl task htask task' htask'
  obtain ⟨-, hafter⟩ := Run.everyStep_append.mp (Run.everyStep_append.mp h).1
  have hearlier : SoundQueue (Run.run QueueCall.step queue earlier) :=
    Run.run_invariant (fun _ call h => h.step call) earlier hsound
  have hstopped : Stopped id task.invocations
      (QueueCall.step (Run.run QueueCall.step queue earlier) (.cancel id now)) := by
    refine ⟨_, step_getElem? _ htask, ?_, ?_⟩
    · rw [effect, if_pos rfl]
      rfl
    · rw [effect, if_pos rfl]
      rfl
  have hrun := @Run.run_invariant_of_everyStep _ _ _ _
    (fun queue => SoundQueue queue ∧ Stopped id task.invocations queue)
    (fun _ call hspares h => ⟨h.1.step call, h.2.step h.1 hspares⟩) between _ hafter.2
    ⟨hearlier.step _, hstopped⟩
  obtain ⟨last, hget, -, hsame⟩ := hrun.2
  rw [Run.run_append, Run.run_cons, hget] at htask'
  cases htask'
  exact hsame

/-! ## The whole law -/

theorem settled_iff (calls : List (QueueCall Payload Result)) (hsound : SoundQueue queue) :
    Run.Evolves QueueCall.step KeepsSettled queue calls ↔
      Run.EveryStep QueueCall.step SparesSettled queue calls :=
  (Run.evolves_iff_everyStep KeepsSettled.refl fun _ _ _ => KeepsSettled.trans).trans
    (Run.everyStep_congr_of_invariant (fun _ call h => h.step call)
      (fun _ call h => keepsSettled_iff_spares h call) hsound)

/-- The tasks that were submitted are settled once in the runs in which no `cancel` reaches a task
that ended in another way, the handlers of cancelled tasks yield, and `max_retries` leaves room for
the first attempt, and in no others. -/
theorem settled_once_iff (handlers : List String) (calls : List (QueueCall Payload Result)) :
    SettledOnce ⟨handlers, []⟩ calls ↔
      Run.EveryStep QueueCall.step (fun queue call => SparesSettled queue call ∧
        StartsWithin queue call) ⟨handlers, []⟩ calls := by
  have hsound := @soundQueue_empty Payload Result handlers
  have hsettled := settled_iff calls hsound
  have hwithin : Run.Always QueueCall.step WithinRetries ⟨handlers, []⟩ calls ↔
      Run.EveryStep QueueCall.step StartsWithin ⟨handlers, []⟩ calls :=
    @Run.always_iff_everyStep _ _ _ SoundQueue _ (fun _ _ => True) _
      (fun _ call _ h => h.step call) (fun _ call _ h hp => withinRetries_step_iff h call hp)
      calls _ (Run.everyStep_of_forall fun _ _ => trivial) hsound
      (fun _ _ htask => by cases htask)
  rw [Run.everyStep_and]
  constructor
  · exact fun h => ⟨hsettled.mp h.settled, hwithin.mp h.within⟩
  · exact fun h => ⟨hsettled.mpr h.1, hwithin.mpr h.2, notStartedAgain_of_spares hsound h.1⟩

end

/-! ## A cancelled task that goes on -/

/-- The handler is cancelled in its first attempt and raises something else: it is started
again. -/
theorem cancelled_task_started_again :
    ¬ SettledOnce (⟨["render"], []⟩ : InMemoryTaskQueue String String)
      [.submit ⟨"render", "{}", 0, 3⟩ 0, .turn 0 (.waits 0) 1, .turn 0 (.waits 0) 2, .cancel 0 3,
        .turn 0 (.raises "Connection lost.") 4] := by
  intro h
  have hsame := h.cancelled
    [.submit ⟨"render", "{}", 0, 3⟩ 0, .turn 0 (.waits 0) 1, .turn 0 (.waits 0) 2]
    [.turn 0 (.raises "Connection lost.") 4] [] 0 3 rfl _ rfl _ rfl
  revert hsame
  decide

end YoutubeFactory.Tasks
