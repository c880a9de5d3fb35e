import YoutubeFactory.Workflow.Triggers

/-!
# One trigger and the others

`fire_due` looks at every schedule trigger before it fires one, and fires the due ones in a single
loop, as `dispatch_event` fires the subscribed ones.  One cron expression that cannot be matched,
or one workflow that is not there, ends the call for all of them.
-/

namespace YoutubeFactory.Workflow

open Python

section

variable {V : Type}

/-- A cron expression that can be matched with every minute. -/
def Digits.WellFormed (digits : Digits) (cron : String) : Prop :=
  ∀ minute, ∃ found, digits.cronMatches cron minute = .ok found

namespace TriggerDb

/-- The call returns, with an execution of the trigger. -/
def Fires (result : Except TriggerError (List (Id × Execution V) × TriggerDb V)) (id : Id) :
    Prop :=
  ∃ fired db, result = .ok (fired, db) ∧ id ∈ fired.map Prod.fst

/-- A schedule trigger that is due, with nothing wrong in it. -/
structure DueAndSound (digits : Digits) (db : TriggerDb V) (now : Moment) (id : Id)
    (trigger : WorkflowTrigger V) : Prop where
  due : (id, trigger) ∈ db.dueNow digits now
  wellFormed : ∀ cron, trigger.cron = some cron → digits.WellFormed cron
  runs : db.Runs trigger.workflowId

/-- A trigger of the event whose workflow is there. -/
structure SubscribedAndSound (db : TriggerDb V) (eventType : String) (id : Id)
    (trigger : WorkflowTrigger V) : Prop where
  subscribed : (id, trigger) ∈ db.listForEvent eventType
  runs : db.Runs trigger.workflowId

theorem not_fires_error {e : TriggerError} {id : Id} :
    ¬ Fires (.error e : Except TriggerError (List (Id × Execution V) × TriggerDb V)) id := by
  rintro ⟨_, _, heq, -⟩
  cases heq

theorem fires_ok_iff {fired : List (Id × Execution V)} {db : TriggerDb V} {id : Id} :
    Fires (.ok (fired, db)) id ↔ id ∈ fired.map Prod.fst := by
  constructor
  · rintro ⟨_, _, heq, hmem⟩
    cases heq
    exact hmem
  · intro hmem
    exact ⟨fired, db, rfl, hmem⟩

variable [PyObject V] {env : TriggerEnv V} {db : TriggerDb V}

theorem fireDue_fires_iff (now : Moment) (clock : Id → Moment) :
    (∀ id trigger, db.DueAndSound env.digits now id trigger →
        Fires (db.fireDue env now clock) id) ↔
      (∀ id trigger, ¬ db.DueAndSound env.digits now id trigger) ∨ db.Polls env.digits now := by
  rcases db.fireDue_spec env now clock with ⟨hpolls, fired, db', heq, hids, -⟩ | ⟨hpolls, e, heq⟩
  · refine iff_of_true (fun id trigger howed => ?_) (.inr hpolls)
    rw [heq, fires_ok_iff, hids]
    exact List.mem_map_of_mem howed.due
  · rw [heq, or_iff_left hpolls]
    exact forall₂_congr fun id trigger => imp_iff_not not_fires_error

theorem dispatchEvent_fires_iff (eventType : String) (payload : Context V)
    (clock : Id → Moment) :
    (∀ id trigger, db.SubscribedAndSound eventType id trigger →
        Fires (db.dispatchEvent env eventType payload clock) id) ↔
      (∀ id trigger, ¬ db.SubscribedAndSound eventType id trigger) ∨
        ∀ t ∈ db.listForEvent eventType, db.Runs t.2.workflowId := by
  rcases db.dispatchEvent_spec env eventType payload clock with
    ⟨hruns, fired, db', heq, hids⟩ | ⟨⟨t, hmem, hnot⟩, e, heq⟩
  · refine iff_of_true (fun id trigger howed => ?_) (.inr hruns)
    rw [heq, fires_ok_iff, hids]
    exact List.mem_map_of_mem howed.subscribed
  · rw [heq, or_iff_left fun hruns => hnot (hruns t hmem)]
    exact forall₂_congr fun id trigger => imp_iff_not not_fires_error

/-- A poll fires every sound trigger that is due if no such trigger is there, or all cron
expressions it reads can be matched and all due workflows are there.  An event runs every
subscribed workflow that is there if none or all are. -/
theorem fires_sound_iff (env : TriggerEnv V) (db : TriggerDb V) (now : Moment)
    (eventType : String) (payload : Context V) (clock : Id → Moment) :
    ((∀ id trigger, db.DueAndSound env.digits now id trigger →
          Fires (db.fireDue env now clock) id) ↔
        (∀ id trigger, ¬ db.DueAndSound env.digits now id trigger) ∨ db.Polls env.digits now) ∧
      ((∀ id trigger, db.SubscribedAndSound eventType id trigger →
          Fires (db.dispatchEvent env eventType payload clock) id) ↔
        (∀ id trigger, ¬ db.SubscribedAndSound eventType id trigger) ∨
          ∀ t ∈ db.listForEvent eventType, db.Runs t.2.workflowId) :=
  ⟨fireDue_fires_iff now clock, dispatchEvent_fires_iff eventType payload clock⟩

end TriggerDb

end

/-! ## Triggers that silence others -/

/-- Two workflows of one task. -/
def twoWorkflows : TriggerDb (Value Empty) where
  workflows := [⟨none, tasks ["render"], []⟩, ⟨none, tasks ["publish"], []⟩]
  triggers := []
  executions := []

def plainTriggerEnv : TriggerEnv (Value Empty) where
  digits := asciiDigits
  engine := failingEngine fun _ _ => false
  jsonable := id

/-- The cron expression of the first has four fields. -/
def schedules : Except TriggerError (TriggerDb (Value Empty)) := do
  let (_, db) ← twoWorkflows.create 0 "schedule" (some "* * * *") none ∅
  let (_, db) ← db.create 1 "schedule" (some "* * * * *") none ∅
  pure db

/-- The workflow of the first is deleted. -/
def subscriptions : Except TriggerError (TriggerDb (Value Empty)) := do
  let (_, db) ← twoWorkflows.create 0 "event" none (some "video.ready") ∅
  let (_, db) ← db.create 1 "event" none (some "video.ready") ∅
  pure { db with workflows := db.workflows.modify 0 fun w =>
    { w with deletedAt := some ⟨⟨2025, 3, 3, 9, 45⟩, 0, 0⟩ } }

theorem everyMinute_matches (minute : Minute) :
    asciiDigits.cronMatches "* * * * *" minute = .ok true := rfl

theorem neighbours_silenced :
    (∃ db id trigger now, ∃ clock : Id → Moment, schedules = .ok db ∧
      db.DueAndSound asciiDigits now id trigger ∧
        ¬ TriggerDb.Fires (db.fireDue plainTriggerEnv now clock) id) ∧
    ∃ db id trigger, ∃ clock : Id → Moment, subscriptions = .ok db ∧
      db.SubscribedAndSound "video.ready" id trigger ∧
        ¬ TriggerDb.Fires (db.dispatchEvent plainTriggerEnv "video.ready" ∅ clock) id := by
  refine ⟨⟨_, 1, _, ⟨⟨2025, 3, 3, 9, 45⟩, 0, 0⟩, fun _ => ⟨⟨2025, 3, 3, 9, 45⟩, 0, 0⟩, rfl,
    ⟨List.mem_cons_self, ?_, _, rfl, rfl⟩, TriggerDb.not_fires_error⟩,
    ⟨_, 1, _, fun _ => ⟨⟨2025, 3, 3, 9, 45⟩, 0, 0⟩, rfl,
      ⟨List.mem_cons_of_mem _ List.mem_cons_self, _, rfl, rfl⟩, TriggerDb.not_fires_error⟩⟩
  intro cron hcron minute
  cases hcron
  exact ⟨true, everyMinute_matches minute⟩

end YoutubeFactory.Workflow
