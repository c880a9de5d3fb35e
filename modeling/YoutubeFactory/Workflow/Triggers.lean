import YoutubeFactory.Workflow.Cron
import YoutubeFactory.Workflow.History

/-!
# Workflow triggers

`WorkflowTriggerService` of `app/services/workflow_triggers.py`, with `WorkflowService.execute`.
`fire_due` first finds all triggers that are due and then fires them one after the other; what
raises on the way ends the call, and `session_scope` then keeps nothing of it.

Rows are never removed, so a row's position is its id.
-/

namespace YoutubeFactory.Workflow

open Python

abbrev Id := Nat

inductive TriggerKind where
  | manual | schedule | event
deriving DecidableEq, Repr

def TriggerKind.value : TriggerKind → String
  | manual => "manual"
  | schedule => "schedule"
  | event => "event"

section

variable {V : Type}

/-! ## Tables -/

/-- A row of `Workflow`, with its nodes and edges. -/
structure WorkflowRow (V : Type) where
  deletedAt : Option Moment
  nodes : List (GraphNode V)
  edges : List GraphEdge

def WorkflowRow.Live (workflow : WorkflowRow V) : Prop := workflow.deletedAt = none

structure WorkflowTrigger (V : Type) where
  workflowId : Id
  kind : String
  isActive : Bool
  cron : Option String
  eventType : Option String
  lastFiredAt : Option Moment
  config : Context V
  deletedAt : Option Moment

/-- The executions with the ids of their workflows. -/
structure TriggerDb (V : Type) where
  workflows : List (WorkflowRow V)
  triggers : List (WorkflowTrigger V)
  executions : List (Id × Execution V)

inductive TriggerError where
  | validation (message : String)
  | notFound (message : String)
  | value (e : ValueError)
  /-- A foreign key. -/
  | integrity
deriving DecidableEq, Repr

/-- The Unicode database, the engine with the handlers of the service, and `_jsonable`. -/
structure TriggerEnv (V : Type) where
  digits : Digits
  engine : Engine V
  jsonable : V → V

namespace TriggerDb

variable (env : TriggerEnv V) (db : TriggerDb V)

/-- The triggers that pass, in the order of the table. -/
def select (passes : WorkflowTrigger V → Bool) : List (Id × WorkflowTrigger V) :=
  (db.triggers.zipIdx.filter fun t => passes t.1).map fun t => (t.2, t.1)

/-- `WorkflowTriggerRepository.list_active` -/
def listActive (kind : TriggerKind) : List (Id × WorkflowTrigger V) :=
  db.select fun t => t.deletedAt = none ∧ t.kind = kind.value ∧ t.isActive = true

/-- `WorkflowTriggerRepository.list_for_event` -/
def listForEvent (eventType : String) : List (Id × WorkflowTrigger V) :=
  db.select fun t => t.kind = TriggerKind.event.value ∧ t.isActive = true ∧
    t.eventType = some eventType ∧ t.deletedAt = none

/-- `create` -/
def create (workflowId : Id) (kind : String) (cron eventType : Option String)
    (config : Context V) : Except TriggerError (Id × TriggerDb V) :=
  if kind ∉ [TriggerKind.manual, .schedule, .event].map TriggerKind.value then
    .error (.validation ("Unknown trigger kind: " ++ kind))
  else if kind = TriggerKind.schedule.value ∧ cron.getD "" = "" then
    .error (.validation "A schedule trigger needs a cron expression.")
  else if kind = TriggerKind.event.value ∧ eventType.getD "" = "" then
    .error (.validation "An event trigger needs an event type.")
  else if workflowId < db.workflows.length then
    .ok (db.triggers.length,
      { db with triggers := db.triggers ++
          [{ workflowId, kind, isActive := true, cron, eventType, lastFiredAt := none, config
             deletedAt := none }] })
  else .error .integrity

/-- The trigger was fired in this minute. -/
def firedIn (trigger : WorkflowTrigger V) (minute : Minute) : Bool :=
  trigger.lastFiredAt.any fun last => last.minute = minute

/-- The loop of `due`. -/
def dueAmong (now : Moment) :
    List (Id × WorkflowTrigger V) → Except TriggerError (List (Id × WorkflowTrigger V))
  | [] => .ok []
  | (id, trigger) :: triggers =>
      match trigger.cron.filter (· ≠ "") with
      | none => dueAmong now triggers
      | some cron =>
          match env.digits.cronMatches cron now.minute with
          | .error e => .error (.value e)
          | .ok found =>
              if found = true ∧ firedIn trigger now.minute = false then
                (dueAmong now triggers).map fun due => (id, trigger) :: due
              else dueAmong now triggers

/-- `due` -/
def due (now : Moment) : Except TriggerError (List (Id × WorkflowTrigger V)) :=
  dueAmong env now (db.listActive .schedule)

/-- `trigger.last_fired_at = finished` -/
def stamp (id : Id) (finished : Moment) : TriggerDb V :=
  { db with triggers := db.triggers.modify id fun t => { t with lastFiredAt := some finished } }

section

variable [PyObject V]

/-- `WorkflowService.execute`, with the rows it adds. -/
def execute (workflowId : Id) (inputs : Context V) :
    Except TriggerError (Execution V × TriggerDb V) :=
  match db.workflows[workflowId]? with
  | none => .error (.notFound "Workflow not found.")
  | some workflow =>
      if workflow.deletedAt = none then
        let execution :=
          Workflow.execute env.engine env.jsonable workflow.nodes workflow.edges inputs
        .ok (execution, { db with executions := db.executions ++ [(workflowId, execution)] })
      else .error (.notFound "Workflow not found.")

/-- `fire`.  The inputs override the trigger's own. -/
def fire (id : Id) (trigger : WorkflowTrigger V) (inputs : Context V) (finished : Moment) :
    Except TriggerError (Execution V × TriggerDb V) := do
  let (execution, db) ← db.execute env trigger.workflowId (inputs ∪ trigger.config)
  pure (execution, db.stamp id finished)

/-- The loop of `fire_due` and `dispatch_event`, with the ids of the triggers it has fired.  The
clock says when each has finished. -/
def fireEach (inputs : Context V) (clock : Id → Moment) :
    List (Id × WorkflowTrigger V) → TriggerDb V →
      Except TriggerError (List (Id × Execution V) × TriggerDb V)
  | [], db => .ok ([], db)
  | (id, trigger) :: triggers, db => do
      let (execution, db) ← db.fire env id trigger inputs (clock id)
      let (fired, db) ← fireEach inputs clock triggers db
      pure ((id, execution) :: fired, db)

/-- `fire_due` -/
def fireDue (now : Moment) (clock : Id → Moment) :
    Except TriggerError (List (Id × Execution V) × TriggerDb V) := do
  let due ← db.due env now
  fireEach env ∅ clock due db

/-- `dispatch_event` -/
def dispatchEvent (eventType : String) (payload : Context V) (clock : Id → Moment) :
    Except TriggerError (List (Id × Execution V) × TriggerDb V) :=
  fireEach env payload clock (db.listForEvent eventType) db

end

end TriggerDb

/-! ## What the calls do -/

namespace WorkflowTrigger

/-- Its cron expression, if it has one, matches the minute. -/
def matchesAt (digits : Digits) (minute : Minute) (trigger : WorkflowTrigger V) :
    Except ValueError Bool :=
  match trigger.cron.filter (· ≠ "") with
  | none => .ok false
  | some cron => digits.cronMatches cron minute

/-- It is to be fired in the minute. -/
def isDue (digits : Digits) (minute : Minute) (trigger : WorkflowTrigger V) : Bool :=
  trigger.matchesAt digits minute = .ok true ∧ TriggerDb.firedIn trigger minute = false

/-- The trigger after it was fired. -/
def stamped (finished : Moment) (trigger : WorkflowTrigger V) : WorkflowTrigger V :=
  { trigger with lastFiredAt := some finished }

end WorkflowTrigger

/-- The workflow is there, and not deleted. -/
def TriggerDb.Runs (db : TriggerDb V) (workflowId : Id) : Prop :=
  ∃ workflow, db.workflows[workflowId]? = some workflow ∧ workflow.Live

namespace TriggerDb

variable {db db' : TriggerDb V} {id : Id} {trigger : WorkflowTrigger V}

theorem mem_select {passes : WorkflowTrigger V → Bool} :
    (id, trigger) ∈ db.select passes ↔ db.triggers[id]? = some trigger ∧ passes trigger = true := by
  unfold select
  rw [List.mem_map]
  constructor
  · rintro ⟨⟨t, i⟩, hmem, heq⟩
    cases heq
    rwa [List.mem_filter, List.mem_zipIdx_iff_getElem?] at hmem
  · rintro ⟨hget, hpasses⟩
    exact ⟨(trigger, id), List.mem_filter.mpr ⟨List.mem_zipIdx_iff_getElem?.mpr hget, hpasses⟩, rfl⟩

/-- A trigger is selected once. -/
theorem nodup_select (passes : WorkflowTrigger V → Bool) :
    ((db.select passes).map Prod.fst).Nodup := by
  have hids : (db.triggers.zipIdx.map Prod.snd).Nodup := by
    rw [List.zipIdx_map_snd]
    exact List.nodup_range'
  have hsub : ((db.select passes).map Prod.fst).Sublist (db.triggers.zipIdx.map Prod.snd) := by
    unfold select
    rw [List.map_map]
    exact List.filter_sublist.map _
  exact hids.sublist hsub

variable {env : TriggerEnv V} {inputs : Context V} {clock : Id → Moment} {now : Moment}
  {triggers : List (Id × WorkflowTrigger V)} {fired : List (Id × Execution V)}

theorem dueAmong_cons : dueAmong env now ((id, trigger) :: triggers) =
    match trigger.matchesAt env.digits now.minute with
    | .error e => .error (.value e)
    | .ok _ =>
        if trigger.isDue env.digits now.minute = true then
          (dueAmong env now triggers).map fun due => (id, trigger) :: due
        else dueAmong env now triggers := by
  rw [dueAmong]
  unfold WorkflowTrigger.isDue WorkflowTrigger.matchesAt
  cases trigger.cron.filter (· ≠ "") with
  | none => simp
  | some cron =>
      cases hfound : env.digits.cronMatches cron now.minute with
      | error e => simp [hfound]
      | ok found => simp [hfound]

/-- Looking for the due triggers raises if a cron expression does, and finds all of them
otherwise. -/
theorem dueAmong_eq_ok {due : List (Id × WorkflowTrigger V)} :
    dueAmong env now triggers = .ok due ↔
      (∀ t ∈ triggers, ∃ found, t.2.matchesAt env.digits now.minute = .ok found) ∧
        due = triggers.filter fun t => t.2.isDue env.digits now.minute := by
  induction triggers generalizing due with
  | nil =>
      rw [List.filter_nil]
      exact ⟨fun h => ⟨fun t ht => absurd ht List.not_mem_nil, (Except.ok.inj h).symm⟩,
        fun h => congrArg Except.ok h.2.symm⟩
  | cons t triggers ih =>
      obtain ⟨id, trigger⟩ := t
      rw [List.forall_mem_cons, List.filter_cons, dueAmong_cons]
      cases hmatch : trigger.matchesAt env.digits now.minute with
      | error e => simp
      | ok found =>
          by_cases hdue : trigger.isDue env.digits now.minute = true
          · simp only [hdue, if_true, Except.map_eq_ok, ih]
            simp [eq_comm]
          · simp [hdue, ih]

/-- The triggers after one was fired. -/
theorem getElem?_stamp (id i : Id) (finished : Moment) :
    (db.stamp id finished).triggers[i]? =
      db.triggers[i]?.map fun t => if id = i then t.stamped finished else t :=
  List.getElem?_modify _ _ _ _

section

variable [PyObject V]

/-- A workflow is executed if it is there, and the execution leaves the workflows and the
triggers. -/
theorem execute_spec (workflowId : Id) (inputs : Context V) :
    (db.Runs workflowId ∧ ∃ execution executions, db.execute env workflowId inputs =
        .ok (execution, { db with executions })) ∨
      (¬ db.Runs workflowId ∧ ∃ e, db.execute env workflowId inputs = .error e) := by
  unfold execute
  cases hget : db.workflows[workflowId]? with
  | none =>
      exact .inr ⟨fun ⟨w, hw, _⟩ => Option.some_ne_none w (hw.symm.trans hget), _, rfl⟩
  | some workflow =>
      by_cases hlive : workflow.deletedAt = none
      · exact .inl ⟨⟨workflow, hget, hlive⟩, _, _, if_pos hlive⟩
      · refine .inr ⟨fun ⟨w, hw, hwlive⟩ => hlive ?_, _, if_neg hlive⟩
        rw [hget, Option.some.injEq] at hw
        rw [hw]
        exact hwlive

/-- Firing one trigger. -/
theorem fire_spec (id : Id) (trigger : WorkflowTrigger V) (inputs : Context V)
    (finished : Moment) :
    (db.Runs trigger.workflowId ∧ ∃ execution executions,
        db.fire env id trigger inputs finished =
          .ok (execution, { db with executions }.stamp id finished)) ∨
      (¬ db.Runs trigger.workflowId ∧ ∃ e, db.fire env id trigger inputs finished = .error e) := by
  unfold fire
  rcases db.execute_spec trigger.workflowId (inputs ∪ trigger.config) with
    ⟨hruns, execution, executions, heq⟩ | ⟨hruns, e, heq⟩
  · exact .inl ⟨hruns, execution, executions, by rw [heq]; rfl⟩
  · exact .inr ⟨hruns, e, by rw [heq]; rfl⟩

/-- What firing a list of triggers leaves. -/
structure Fired (db : TriggerDb V) (clock : Id → Moment) (ids : List Id) (db' : TriggerDb V) :
    Prop where
  workflows : db'.workflows = db.workflows
  triggers : ∀ i : Id, db'.triggers[i]? =
    db.triggers[i]?.map fun t => if i ∈ ids then t.stamped (clock i) else t

/-- Firing a list of triggers raises if one of their workflows is not there, and fires all of
them otherwise. -/
theorem fireEach_spec (inputs : Context V) (clock : Id → Moment) :
    ∀ (triggers : List (Id × WorkflowTrigger V)) (db : TriggerDb V),
      ((∀ t ∈ triggers, db.Runs t.2.workflowId) ∧
        ∃ fired db', fireEach env inputs clock triggers db = .ok (fired, db') ∧
          fired.map Prod.fst = triggers.map Prod.fst ∧
          Fired db clock (triggers.map Prod.fst) db') ∨
      ((∃ t ∈ triggers, ¬ db.Runs t.2.workflowId) ∧
        ∃ e, fireEach env inputs clock triggers db = .error e)
  | [], db => by
      refine .inl ⟨fun t ht => absurd ht List.not_mem_nil, [], db, rfl, rfl, rfl, fun i => ?_⟩
      simp
  | (id, trigger) :: triggers, db => by
      rw [fireEach]
      rcases db.fire_spec id trigger inputs (clock id) with
        ⟨hruns, execution, executions, heq⟩ | ⟨hruns, e, heq⟩
      · rw [heq, Except.ok_bind]
        dsimp only
        -- the workflows are those the loop began with
        rcases fireEach_spec inputs clock triggers ({ db with executions }.stamp id (clock id)) with
          ⟨hall, fired, db', hfired, hids, hleft⟩ | ⟨⟨t, hmem, hnot⟩, e, hfired⟩
        · refine .inl ⟨List.forall_mem_cons.mpr ⟨hruns, hall⟩, (id, execution) :: fired, db', ?_,
            congrArg (id :: ·) hids, hleft.workflows, fun i => ?_⟩
          · rw [hfired]
            rfl
          · rw [hleft.triggers, getElem?_stamp, Option.map_map]
            congr 1
            funext t
            by_cases hi : id = i
            · subst hi
              by_cases hmem : id ∈ triggers.map Prod.fst
              · simp [hmem, WorkflowTrigger.stamped]
              · simp [hmem]
            · have hother : i ≠ id := Ne.symm hi
              simp only [Function.comp_apply, if_neg hi, List.map_cons, List.mem_cons, hother,
                false_or]
        · refine .inr ⟨⟨t, List.mem_cons_of_mem _ hmem, hnot⟩, e, ?_⟩
          rw [hfired]
          rfl
      · refine .inr ⟨⟨_, List.mem_cons_self, hruns⟩, e, ?_⟩
        rw [heq]
        rfl

/-- `dispatch_event` fires all triggers of the event, or raises. -/
theorem dispatchEvent_spec (env : TriggerEnv V) (db : TriggerDb V) (eventType : String)
    (payload : Context V) (clock : Id → Moment) :
    ((∀ t ∈ db.listForEvent eventType, db.Runs t.2.workflowId) ∧
        ∃ fired db', db.dispatchEvent env eventType payload clock = .ok (fired, db') ∧
          fired.map Prod.fst = (db.listForEvent eventType).map Prod.fst) ∨
      ((∃ t ∈ db.listForEvent eventType, ¬ db.Runs t.2.workflowId) ∧
        ∃ e, db.dispatchEvent env eventType payload clock = .error e) := by
  rcases fireEach_spec payload clock (db.listForEvent eventType) db with
    ⟨hall, fired, db', hfired, hids, -⟩ | hraises
  · exact .inl ⟨hall, fired, db', hfired, hids⟩
  · exact .inr hraises

/-- The triggers that are due. -/
def dueNow (digits : Digits) (db : TriggerDb V) (now : Moment) : List (Id × WorkflowTrigger V) :=
  (db.listActive .schedule).filter fun t => t.2.isDue digits now.minute

/-- Nothing that `fire_due` needs is broken: the cron expressions that it reads can be matched,
and the workflows that are due are there. -/
structure Polls (digits : Digits) (db : TriggerDb V) (now : Moment) : Prop where
  matched : ∀ t ∈ db.listActive .schedule, ∃ found, t.2.matchesAt digits now.minute = .ok found
  runs : ∀ t ∈ db.dueNow digits now, db.Runs t.2.workflowId

/-- `fire_due` fires all triggers that are due, or raises. -/
theorem fireDue_spec (env : TriggerEnv V) (db : TriggerDb V) (now : Moment)
    (clock : Id → Moment) :
    (db.Polls env.digits now ∧
        ∃ fired db', db.fireDue env now clock = .ok (fired, db') ∧
          fired.map Prod.fst = (db.dueNow env.digits now).map Prod.fst ∧
          Fired db clock ((db.dueNow env.digits now).map Prod.fst) db') ∨
      (¬ db.Polls env.digits now ∧ ∃ e, db.fireDue env now clock = .error e) := by
  unfold fireDue due
  cases hdue : dueAmong env now (db.listActive .schedule) with
  | error e =>
      refine .inr ⟨fun hpolls => ?_, e, rfl⟩
      have hok := dueAmong_eq_ok.mpr ⟨hpolls.matched, rfl⟩
      rw [hdue] at hok
      cases hok
  | ok due =>
      obtain ⟨hmatched, rfl⟩ := dueAmong_eq_ok.mp hdue
      rcases fireEach_spec ∅ clock (db.dueNow env.digits now) db with
        ⟨hall, hfires⟩ | ⟨⟨t, hmem, hnot⟩, hraises⟩
      · exact .inl ⟨⟨hmatched, hall⟩, hfires⟩
      · exact .inr ⟨fun hpolls => hnot (hpolls.runs t hmem), hraises⟩

end

end TriggerDb

end

end YoutubeFactory.Workflow
