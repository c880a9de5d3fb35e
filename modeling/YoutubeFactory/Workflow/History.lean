import YoutubeFactory.Workflow.Semantics

/-!
# What a failed run remembers

`execute` of `app/services/workflow.py` stores a row for each outcome: those of a
run that returns, or those in the details of its `WorkflowError`.

`runEvents` is what happens in a run: nodes are skipped, handler calls complete or
fail.  A run that raises has recorded all of it exactly when its last level fails
cleanly: no condition raises, the outputs can be copied, and the first node that
fails, in key order, fails without a completed pass and has no node after it in the
batch that called its handler (`history_kept_iff`).
-/

namespace YoutubeFactory.Workflow

open Python

section

variable {V : Type} [PyObject V]

/-! ## Executions -/

inductive WorkflowExecutionStatus where
  | pending | running | succeeded | failed | cancelled
deriving DecidableEq, Repr

inductive ExecutionLog where
  | node (key : String) (status : NodeRunStatus) (iteration : Nat)
  | error (text : String)
deriving DecidableEq, Repr

/-- An execution and its `WorkflowNodeExecution` rows. -/
structure Execution (V : Type) where
  status : WorkflowExecutionStatus
  context : Context V
  logs : List ExecutionLog
  rows : List (NodeOutcome V)

/-- The row of an outcome.  `jsonable` is `_jsonable`. -/
def NodeOutcome.row (jsonable : V → V) (o : NodeOutcome V) : NodeOutcome V :=
  { o with output := jsonable o.output }

/-- `WorkflowService.execute`, on the nodes and edges of a workflow that exists. -/
def execute (engine : Engine V) (jsonable : V → V) (nodes : List (GraphNode V))
    (edges : List GraphEdge) (inputs : Context V) : Execution V :=
  match WorkflowGraph.init nodes edges with
  | .error e =>
      { status := .failed, context := inputs, logs := [.error e.message], rows := [] }
  | .ok graph =>
      match engine.run graph inputs with
      | .ok (context, outcomes) =>
          { status := .succeeded, context
            logs := outcomes.map fun o => .node o.key o.status o.iteration
            rows := outcomes.map (·.row jsonable) }
      | .error raised =>
          { status := .failed, context := inputs, logs := [.error raised.text]
            rows := raised.outcomes.map (·.row jsonable) }

/-! ## What happens in a run -/

inductive Event where
  | skipped (key : String)
  | completed (key : String) (iteration : Nat)
  | failed (key : String)
deriving DecidableEq, Repr

def Event.key : Event → String
  | .skipped key => key
  | .completed key _ => key
  | .failed key => key

/-- The outcome of the node says so. -/
def Event.Describes (o : NodeOutcome V) : Event → Prop
  | .skipped _ => o.status = .skipped
  | .completed _ iteration => o.status = .succeeded ∧ o.iteration = iteration
  | .failed _ => o.status = .failed

instance (o : NodeOutcome V) : (event : Event) → Decidable (event.Describes o)
  | .skipped _ => inferInstanceAs (Decidable (o.status = .skipped))
  | .completed _ iteration =>
      inferInstanceAs (Decidable (o.status = .succeeded ∧ o.iteration = iteration))
  | .failed _ => inferInstanceAs (Decidable (o.status = .failed))

/-- Some outcome of the node says so. -/
def Event.Recorded (outcomes : List (NodeOutcome V)) (event : Event) : Prop :=
  ∃ o ∈ outcomes, o.key = event.key ∧ event.Describes o

instance (outcomes : List (NodeOutcome V)) (event : Event) : Decidable (event.Recorded outcomes) :=
  inferInstanceAs (Decidable (∃ o ∈ outcomes, o.key = event.key ∧ event.Describes o))

namespace Engine

variable (engine : Engine V) (graph : WorkflowGraph V)

/-- The handler calls of a loop, from an index on. -/
def passEvents (node : GraphNode V) (context : Context V) : Nat → List V → List Event
  | _, [] => []
  | index, item :: items =>
      match engine.call node index (engine.scope node index item context) with
      | .ok _ => .completed node.key index :: passEvents node context (index + 1) items
      | .error _ => [.failed node.key]

/-- The handler calls of a node. -/
def nodeEvents (context : Context V) (node : GraphNode V) : List Event :=
  if node.type = "loop" then
    match engine.loopItems node context with
    | .ok items => engine.passEvents node context 0 items
    | .error _ => []
  else
    match engine.call node 0 (engine.seen node (some 0) context) with
    | .ok _ => [.completed node.key 0]
    | .error _ => [.failed node.key]

/-- The nodes of a level that are skipped, until a condition raises. -/
def siftEvents : List (GraphNode V) → RunState V → List Event
  | [], _ => []
  | node :: nodes, s =>
      match engine.isReachable graph node s.context s.skipped with
      | .error _ => []
      | .ok (true, _) => siftEvents nodes s
      | .ok (false, reason) => .skipped node.key :: siftEvents nodes (s.skip node reason)

/-- A level: the whole batch runs to its end, whichever node fails. -/
def levelEvents (level : List (GraphNode V)) (s : RunState V) : List Event :=
  engine.siftEvents graph level s ++
    match engine.sift graph level s with
    | .ok (runnable, s') => runnable.flatMap (engine.nodeEvents s'.context)
    | .error _ => []

/-- The levels, until one raises. -/
def runEvents : List (List (GraphNode V)) → RunState V → List Event
  | [], _ => []
  | level :: levels, s =>
      engine.levelEvents graph level s ++
        match engine.runLevel graph level s with
        | .ok s' => runEvents levels s'
        | .error _ => []

/-! ## Clean failures -/

/-- The first node of a batch that fails has completed no pass, and the nodes after it
have called no handler. -/
def BatchFailsClean (context : Context V) : List (GraphNode V) → RunState V → Prop
  | [], _ => False
  | node :: nodes, s =>
      match engine.runNode node context with
      | .ok result => BatchFailsClean context nodes (s.record node result)
      | .error e =>
          (∃ copied, asdictAll (s.outcomes ++ [Workflow.failed node e.text]) = .ok copied) ∧
            (∀ i, .completed node.key i ∉ engine.nodeEvents context node) ∧
            ∀ n ∈ nodes, engine.nodeEvents context n = []

/-- No condition raises, and the batch fails cleanly. -/
def LevelFailsClean (level : List (GraphNode V)) (s : RunState V) : Prop :=
  match engine.sift graph level s with
  | .ok (runnable, s') =>
      engine.BatchFailsClean s'.context runnable
        { s' with context := engine.left runnable s'.context }
  | .error _ => False

/-- The level that stops the run fails cleanly. -/
def FailsClean : List (List (GraphNode V)) → RunState V → Prop
  | [], _ => False
  | level :: levels, s =>
      match engine.runLevel graph level s with
      | .ok s' => FailsClean levels s'
      | .error _ => engine.LevelFailsClean graph level s

end Engine

/-! ## Recorded events -/

omit [PyObject V] in
theorem Event.Recorded.mono {xs ys : List (NodeOutcome V)} {event : Event}
    (h : event.Recorded xs) (hsub : xs ⊆ ys) : event.Recorded ys := by
  obtain ⟨o, ho, hrest⟩ := h
  exact ⟨o, hsub ho, hrest⟩

omit [PyObject V] in
/-- Without outcomes, nothing is recorded. -/
theorem recorded_nil_iff {events : List Event} :
    (∀ event ∈ events, event.Recorded ([] : List (NodeOutcome V))) ↔ events = [] := by
  constructor
  · intro h
    refine List.eq_nil_iff_forall_not_mem.mpr fun event hevent => ?_
    obtain ⟨o, ho, -⟩ := h event hevent
    cases ho
  · rintro rfl event hevent
    cases hevent

namespace Engine

variable {engine : Engine V} {graph : WorkflowGraph V} {node : GraphNode V} {context : Context V}

/-- A handler call completes or fails. -/
theorem passEvents_cases :
    ∀ {items : List V} {index : Nat} {event : Event},
      event ∈ engine.passEvents node context index items →
      (∃ i, event = .completed node.key i) ∨ event = .failed node.key
  | [], _, _, h => by cases h
  | item :: items, index, event, h => by
      rw [passEvents] at h
      split at h
      · rcases List.mem_cons.mp h with rfl | h
        · exact .inl ⟨index, rfl⟩
        · exact passEvents_cases h
      · exact .inr (List.mem_singleton.mp h)

theorem nodeEvents_cases {event : Event} (h : event ∈ engine.nodeEvents context node) :
    (∃ i, event = .completed node.key i) ∨ event = .failed node.key := by
  unfold nodeEvents at h
  split at h
  · split at h
    · exact passEvents_cases h
    · cases h
  · split at h
    · exact .inl ⟨0, List.mem_singleton.mp h⟩
    · exact .inr (List.mem_singleton.mp h)

theorem nodeEvents_key {event : Event} (h : event ∈ engine.nodeEvents context node) :
    event.key = node.key := by
  obtain ⟨i, rfl⟩ | rfl := nodeEvents_cases h
  · rfl
  · rfl

theorem passEvents_recorded :
    ∀ {items : List V} {index : Nat} {outcomes : List (NodeOutcome V)},
      engine.runPasses node context index items = .ok outcomes →
      ∀ event ∈ engine.passEvents node context index items, event.Recorded outcomes
  | [], _, _, _, event, hevent => by cases hevent
  | item :: items, index, outcomes, h, event, hevent => by
      obtain ⟨output, hcall, h⟩ := Except.bind_eq_ok.mp h
      obtain ⟨rest, hrest, h⟩ := Except.bind_eq_ok.mp h
      cases h
      rw [passEvents, hcall] at hevent
      rcases List.mem_cons.mp hevent with rfl | hevent
      · exact ⟨_, List.mem_cons_self, rfl, rfl, rfl⟩
      · exact (passEvents_recorded hrest event hevent).mono (List.subset_cons_self _ _)

omit [PyObject V] in
theorem setLastOutput_recorded {collected : V} {event : Event} :
    ∀ {outcomes : List (NodeOutcome V)}, event.Recorded outcomes →
      event.Recorded (setLastOutput collected outcomes)
  | [], h => h
  | [last], ⟨o, ho, hkey, hdescribes⟩ => by
      rw [List.mem_singleton] at ho
      subst ho
      refine ⟨_, List.mem_singleton.mpr rfl, hkey, ?_⟩
      cases event with
      | skipped key => exact hdescribes
      | completed key iteration => exact hdescribes
      | failed key => exact hdescribes
  | first :: second :: rest, ⟨o, ho, hrest⟩ => by
      rcases List.mem_cons.mp ho with rfl | ho
      · exact ⟨o, List.mem_cons_self, hrest⟩
      · exact (setLastOutput_recorded ⟨o, ho, hrest⟩).mono (List.subset_cons_self _ _)

/-- A node that returns has recorded its handler calls. -/
theorem nodeEvents_recorded {result : List (NodeOutcome V)}
    (h : engine.runNode node context = .ok result) :
    ∀ event ∈ engine.nodeEvents context node, event.Recorded result := by
  intro event hevent
  unfold runNode at h
  unfold nodeEvents at hevent
  split at h
  · next hloop =>
      rw [if_pos hloop] at hevent
      obtain ⟨items, hitems, h⟩ := Except.bind_eq_ok.mp h
      obtain ⟨outcomes, hpasses, h⟩ := Except.bind_eq_ok.mp h
      rw [hitems] at hevent
      have hrecorded := passEvents_recorded hpasses event hevent
      split at h
      · next hempty =>
          rw [List.isEmpty_iff.mp hempty] at hrecorded
          obtain ⟨o, ho, -⟩ := hrecorded
          cases ho
      · cases h
        exact setLastOutput_recorded hrecorded
  · next hplain =>
      rw [if_neg hplain] at hevent
      obtain ⟨output, hcall, h⟩ := Except.bind_eq_ok.mp h
      cases h
      rw [hcall] at hevent
      rw [List.mem_singleton.mp hevent]
      exact ⟨_, List.mem_cons_self, rfl, rfl, rfl⟩

/-! ## Levels that return -/

/-- The skips of a level are recorded, under keys that do not run. -/
theorem sift_recorded :
    ∀ {nodes runnable : List (GraphNode V)} {s s' : RunState V},
      engine.sift graph nodes s = .ok (runnable, s') → (nodes.map (·.key)).Nodup →
      (∀ event ∈ engine.siftEvents graph nodes s, event.Recorded s'.outcomes) ∧
        runnable.Sublist nodes ∧ s.outcomes ⊆ s'.outcomes ∧
        ∀ o ∈ s'.outcomes, o ∈ s.outcomes ∨
          (o.key ∈ nodes.map (·.key) ∧ o.key ∉ runnable.map (·.key))
  | [], _, _, _, h, _ => by
      cases h
      exact ⟨fun event hevent => absurd hevent List.not_mem_nil, List.Sublist.refl _,
        fun _ ho => ho, fun _ ho => .inl ho⟩
  | node :: nodes, runnable, s, s', h, hnodup => by
      rw [List.map_cons, List.nodup_cons] at hnodup
      rw [sift] at h
      rw [siftEvents]
      rcases hreachable : engine.isReachable graph node s.context s.skipped with
        e | ⟨_ | _, reason⟩
      · rw [hreachable] at h
        cases h
      · rw [hreachable] at h
        obtain ⟨hevents, hsublist, hsub, hnew⟩ := sift_recorded h hnodup.2
        have hskip : skippedOutcome node reason ∈ s'.outcomes :=
          hsub (List.mem_append_right _ List.mem_cons_self)
        refine ⟨List.forall_mem_cons.mpr ⟨⟨_, hskip, rfl, rfl⟩, hevents⟩, hsublist.cons node,
          fun o ho => hsub (List.mem_append_left _ ho), fun o ho => ?_⟩
        rcases hnew o ho with hold | ⟨hkey, hnorun⟩
        · rcases List.mem_append.mp hold with hold | hnode
          · exact .inl hold
          · rw [List.mem_singleton.mp hnode]
            refine .inr ⟨List.mem_cons_self, fun hmem => hnodup.1 ?_⟩
            exact (hsublist.map _).subset hmem
        · exact .inr ⟨List.mem_cons_of_mem _ hkey, hnorun⟩
      · rw [hreachable] at h
        obtain ⟨p, hsift, h⟩ := Except.map_eq_ok.mp h
        cases h
        obtain ⟨hevents, hsublist, hsub, hnew⟩ := sift_recorded hsift hnodup.2
        refine ⟨hevents, hsublist.cons_cons node, hsub, fun o ho => (hnew o ho).imp_right ?_⟩
        rintro ⟨hkey, hnorun⟩
        refine ⟨List.mem_cons_of_mem _ hkey, fun hmem => ?_⟩
        rcases List.mem_cons.mp hmem with heq | hmem
        · have heq : o.key = node.key := heq
          exact hnodup.1 (heq ▸ hkey)
        · exact hnorun hmem

/-- A batch that returns has recorded its handler calls. -/
theorem settle_recorded :
    ∀ {runnable : List (GraphNode V)} {s s' : RunState V},
      settle (runnable.map fun n => (n, engine.runNode n context)) s = .ok s' →
      (∀ event ∈ runnable.flatMap (engine.nodeEvents context), event.Recorded s'.outcomes) ∧
        s.outcomes ⊆ s'.outcomes ∧
        ∀ o ∈ s'.outcomes, o ∈ s.outcomes ∨ o.key ∈ runnable.map (·.key)
  | [], _, _, h => by
      cases h
      exact ⟨fun event hevent => absurd hevent List.not_mem_nil, fun _ ho => ho,
        fun _ ho => .inl ho⟩
  | node :: runnable, s, s', h => by
      rw [List.map_cons] at h
      cases hresult : engine.runNode node context with
      | error e =>
          rw [hresult, settle] at h
          cases h
      | ok result =>
          rw [hresult, settle] at h
          obtain ⟨hevents, hsub, hnew⟩ := settle_recorded h
          refine ⟨fun event hevent => ?_, fun o ho => hsub (List.mem_append_left _ ho),
            fun o ho => ?_⟩
          · rw [List.flatMap_cons, List.mem_append] at hevent
            rcases hevent with hnode | hlater
            · exact (nodeEvents_recorded hresult event hnode).mono fun o ho =>
                hsub (List.mem_append_right _ ho)
            · exact hevents event hlater
          · rcases hnew o ho with hold | hlater
            · rcases List.mem_append.mp hold with hold | hnode
              · exact .inl hold
              · exact .inr (List.mem_cons.mpr (.inl ((runNode_ok hresult).2 o hnode).1))
            · exact .inr (List.mem_cons_of_mem _ hlater)

/-- A level that returns has recorded what happened in it, under its own keys. -/
theorem runLevel_recorded {level : List (GraphNode V)} {s s' : RunState V}
    (hnodup : (level.map (·.key)).Nodup) (h : engine.runLevel graph level s = .ok s') :
    (∀ event ∈ engine.levelEvents graph level s, event.Recorded s'.outcomes) ∧
      s.outcomes ⊆ s'.outcomes ∧
      ∀ o ∈ s'.outcomes, o ∈ s.outcomes ∨ o.key ∈ level.map (·.key) := by
  obtain ⟨⟨runnable, s₁⟩, hsift, h⟩ := Except.bind_eq_ok.mp h
  obtain ⟨hskips, hsublist, hsub, hnew⟩ := sift_recorded hsift hnodup
  have hsettle : settle (runnable.map fun n => (n, engine.runNode n s₁.context))
      { s₁ with context := engine.left runnable s₁.context } = .ok s' ∨
      (runnable = [] ∧ s₁ = s') := by
    dsimp only at h
    split at h
    · next hempty =>
        cases h
        exact .inr ⟨List.isEmpty_iff.mp hempty, rfl⟩
    · exact .inl h
  unfold levelEvents
  rw [hsift]
  rcases hsettle with hsettle | ⟨rfl, rfl⟩
  · obtain ⟨hcalls, hsub', hnew'⟩ := settle_recorded hsettle
    refine ⟨fun event hevent => ?_, fun o ho => hsub' (hsub ho), fun o ho => ?_⟩
    · rcases List.mem_append.mp hevent with hskip | hcall
      · exact (hskips event hskip).mono hsub'
      · exact hcalls event hcall
    · rcases hnew' o ho with hold | hran
      · exact (hnew o hold).imp_right And.left
      · exact .inr ((hsublist.map _).subset hran)
  · refine ⟨fun event hevent => ?_, hsub, fun o ho => (hnew o ho).imp_right And.left⟩
    have hevent : event ∈ engine.siftEvents graph level s ++ [] := hevent
    rw [List.append_nil] at hevent
    exact hskips event hevent

/-! ## The level that fails -/

omit [PyObject V] in
theorem not_recorded {outcomes : List (NodeOutcome V)} {event : Event}
    (h : ∀ o ∈ outcomes, o.key ≠ event.key) : ¬ event.Recorded outcomes :=
  fun ⟨o, ho, hkey, _⟩ => h o ho hkey

theorem asdictAll_ok :
    ∀ {outcomes copied : List (NodeOutcome V)}, asdictAll outcomes = .ok copied →
      copied = outcomes
  | [], _, h => by
      cases h
      rfl
  | o :: os, copied, h => by
      rw [asdictAll] at h
      split at h
      · cases h
      · obtain ⟨rest, hrest, rfl⟩ := Except.map_eq_ok.mp h
        rw [asdictAll_ok hrest]

theorem failed_not_completed {node : GraphNode V} {text : String}
    {outcomes : List (NodeOutcome V)} (hfresh : ∀ o ∈ outcomes, o.key ≠ node.key) {i : Nat} :
    ¬ (Event.completed node.key i).Recorded (outcomes ++ [Workflow.failed node text]) := by
  rintro ⟨o, ho, hkey, hstatus, -⟩
  rcases List.mem_append.mp ho with hold | hnode
  · exact hfresh o hold hkey
  · rw [List.mem_singleton.mp hnode] at hstatus
    cases hstatus

/-- The node that fails, with `later` behind it in the batch. -/
theorem nodeFailed_kept_iff {s : RunState V} {e : Raised V} {later : List (GraphNode V)}
    {past : List Event} (hnode : ∀ o ∈ s.outcomes, o.key ≠ node.key)
    (hlater : ∀ n ∈ later, n.key ≠ node.key ∧ ∀ o ∈ s.outcomes, o.key ≠ n.key)
    (hpast : ∀ event ∈ past, event.Recorded s.outcomes) :
    (∀ event ∈ past ++ (engine.nodeEvents context node ++
        later.flatMap (engine.nodeEvents context)),
      event.Recorded (nodeFailed s node e).outcomes) ↔
      past ++ (engine.nodeEvents context node ++ later.flatMap (engine.nodeEvents context)) = [] ∨
        (∃ copied, asdictAll (s.outcomes ++ [Workflow.failed node e.text]) = .ok copied) ∧
          (∀ i, .completed node.key i ∉ engine.nodeEvents context node) ∧
            ∀ n ∈ later, engine.nodeEvents context n = [] := by
  unfold nodeFailed
  split
  · next exc hcopy =>
      rw [hcopy]
      refine recorded_nil_iff.trans (or_iff_left ?_).symm
      rintro ⟨⟨copied, hcopied⟩, -⟩
      cases hcopied
  · next outcomes hcopy =>
      obtain rfl := asdictAll_ok hcopy
      have hfailed : (Event.failed node.key).Recorded
          (s.outcomes ++ [Workflow.failed node e.text]) :=
        ⟨_, List.mem_append_right _ List.mem_cons_self, rfl, rfl⟩
      have hkept : (∀ event ∈ past ++ (engine.nodeEvents context node ++
            later.flatMap (engine.nodeEvents context)),
          event.Recorded (s.outcomes ++ [Workflow.failed node e.text])) ↔
          (∀ i, .completed node.key i ∉ engine.nodeEvents context node) ∧
            ∀ n ∈ later, engine.nodeEvents context n = [] := by
        constructor
        · intro h
          refine ⟨fun i hmem => ?_, fun n hn => List.eq_nil_iff_forall_not_mem.mpr
            fun event hmem => ?_⟩
          · exact failed_not_completed hnode
              (h _ (List.mem_append_right _ (List.mem_append_left _ hmem)))
          · obtain ⟨hne, hfresh⟩ := hlater n hn
            refine not_recorded (fun o ho => ?_) (h event (List.mem_append_right _
              (List.mem_append_right _ (List.mem_flatMap.mpr ⟨n, hn, hmem⟩))))
            rw [nodeEvents_key hmem]
            rcases List.mem_append.mp ho with hold | hthis
            · exact hfresh o hold
            · rw [List.mem_singleton.mp hthis]
              exact hne.symm
        · rintro ⟨hpasses, hquiet⟩ event hevent
          rcases List.mem_append.mp hevent with hold | hevent
          · exact (hpast event hold).mono (List.subset_append_left _ _)
          rcases List.mem_append.mp hevent with hthis | hbehind
          · obtain ⟨i, rfl⟩ | rfl := nodeEvents_cases hthis
            · exact absurd hthis (hpasses i)
            · exact hfailed
          · obtain ⟨n, hn, hmem⟩ := List.mem_flatMap.mp hbehind
            rw [hquiet n hn] at hmem
            cases hmem
      refine Iff.trans hkept ⟨fun h => Or.inr ⟨⟨_, hcopy⟩, h⟩, ?_⟩
      rintro (hnothing | ⟨-, h⟩)
      · rw [List.append_eq_nil_iff, List.append_eq_nil_iff] at hnothing
        obtain ⟨-, hthis, hbehind⟩ := hnothing
        refine ⟨fun i hmem => ?_, fun n hn => List.flatMap_eq_nil_iff.mp hbehind n hn⟩
        rw [hthis] at hmem
        cases hmem
      · exact h

/-- The batch that fails.  What came before it is recorded in the state, where no
outcome has the key of one of its nodes. -/
theorem settle_kept_iff :
    ∀ {runnable : List (GraphNode V)} {s : RunState V} {past : List Event} {raised : Raised V},
      settle (runnable.map fun n => (n, engine.runNode n context)) s = .error raised →
      (runnable.map (·.key)).Nodup → (∀ o ∈ s.outcomes, o.key ∉ runnable.map (·.key)) →
      (∀ event ∈ past, event.Recorded s.outcomes) →
      ((∀ event ∈ past ++ runnable.flatMap (engine.nodeEvents context),
          event.Recorded raised.outcomes) ↔
        past ++ runnable.flatMap (engine.nodeEvents context) = [] ∨
          engine.BatchFailsClean context runnable s)
  | [], _, _, _, h, _, _, _ => by cases h
  | node :: runnable, s, past, raised, h, hnodup, hfresh, hpast => by
      rw [List.map_cons, List.nodup_cons] at hnodup
      rw [List.map_cons] at h
      rw [List.flatMap_cons, BatchFailsClean]
      cases hresult : engine.runNode node context with
      | ok result =>
          rw [hresult, settle] at h
          rw [← List.append_assoc]
          refine settle_kept_iff h hnodup.2 (fun o ho hmem => ?_) fun event hevent => ?_
          · rcases List.mem_append.mp ho with hold | hnode
            · exact hfresh o hold (List.mem_cons_of_mem _ hmem)
            · exact hnodup.1 ((runNode_ok hresult).2 o hnode |>.1 ▸ hmem)
          · rcases List.mem_append.mp hevent with hold | hnode
            · exact (hpast event hold).mono fun o ho => List.mem_append_left _ ho
            · exact (nodeEvents_recorded hresult event hnode).mono fun o ho =>
                List.mem_append_right _ ho
      | error e =>
          rw [hresult, settle] at h
          cases h
          refine nodeFailed_kept_iff (fun o ho heq => ?_) (fun n hn => ⟨fun heq => ?_,
            fun o ho heq => ?_⟩) hpast
          · exact hfresh o ho (heq ▸ List.mem_cons_self)
          · exact hnodup.1 (heq ▸ List.mem_map_of_mem hn)
          · exact hfresh o ho (heq ▸ List.mem_cons_of_mem _ (List.mem_map_of_mem hn))

/-- A condition that raises attaches no outcomes. -/
theorem sift_error :
    ∀ {nodes : List (GraphNode V)} {s : RunState V} {raised : Raised V},
      engine.sift graph nodes s = .error raised → raised.outcomes = []
  | [], _, _, h => by cases h
  | node :: nodes, s, raised, h => by
      rw [sift] at h
      split at h
      · next e hreachable =>
          cases h
          cases e with
          | expressionError message => rfl
          | raised exc => rfl
      · exact sift_error (Except.map_eq_error.mp h)
      · exact sift_error h

/-- The level that fails. -/
theorem runLevel_kept_iff {level : List (GraphNode V)} {s : RunState V} {past : List Event}
    {raised : Raised V} (h : engine.runLevel graph level s = .error raised)
    (hnodup : (level.map (·.key)).Nodup) (hfresh : ∀ o ∈ s.outcomes, o.key ∉ level.map (·.key))
    (hpast : ∀ event ∈ past, event.Recorded s.outcomes) :
    (∀ event ∈ past ++ engine.levelEvents graph level s, event.Recorded raised.outcomes) ↔
      past ++ engine.levelEvents graph level s = [] ∨ engine.LevelFailsClean graph level s := by
  unfold levelEvents LevelFailsClean
  cases hsift : engine.sift graph level s with
  | error e =>
      rw [runLevel, hsift] at h
      cases h
      rw [sift_error hsift, or_false]
      exact recorded_nil_iff
  | ok p =>
      obtain ⟨runnable, s₁⟩ := p
      obtain ⟨hskips, hsublist, hsub, hnew⟩ := sift_recorded hsift hnodup
      have hsettle : settle (runnable.map fun n => (n, engine.runNode n s₁.context))
          { s₁ with context := engine.left runnable s₁.context } = .error raised := by
        rw [runLevel, hsift, Except.ok_bind] at h
        dsimp only at h
        split at h
        · cases h
        · exact h
      dsimp only
      rw [← List.append_assoc]
      refine settle_kept_iff hsettle ((hsublist.map _).nodup hnodup) (fun o ho hmem => ?_)
        fun event hevent => ?_
      · rcases hnew o ho with hold | ⟨-, hnorun⟩
        · exact hfresh o hold ((hsublist.map _).subset hmem)
        · exact hnorun hmem
      · rcases List.mem_append.mp hevent with hold | hskip
        · exact (hpast event hold).mono hsub
        · exact hskips event hskip

/-! ## Runs -/

/-- The levels of a run that raises, on top of the levels that have returned. -/
theorem runLevels_kept_iff :
    ∀ {levels : List (List (GraphNode V))} {placed : List String} {s : RunState V}
      {past : List Event} {raised : Raised V},
      engine.runLevels graph levels s = .error raised →
      Layers.Layered (·.key) graph.Edge placed levels →
      (∀ o ∈ s.outcomes, o.key ∈ placed) →
      (∀ event ∈ past, event.Recorded s.outcomes) →
      ((∀ event ∈ past ++ engine.runEvents graph levels s, event.Recorded raised.outcomes) ↔
        past ++ engine.runEvents graph levels s = [] ∨ engine.FailsClean graph levels s)
  | [], _, _, _, _, h, _, _, _ => by cases h
  | level :: levels, placed, s, past, raised, h, ⟨hnodup, hlevel, hlayered⟩, hplaced, hpast => by
      rw [runEvents, FailsClean]
      cases hrun : engine.runLevel graph level s with
      | error e =>
          rw [runLevels, hrun] at h
          cases h
          dsimp only
          rw [List.append_nil]
          refine runLevel_kept_iff hrun hnodup (fun o ho hmem => ?_) hpast
          obtain ⟨n, hn, hkey⟩ := List.mem_map.mp hmem
          have hmem : n.key ∈ placed := hkey ▸ hplaced o ho
          exact (hlevel n hn).1 hmem
      | ok s' =>
          rw [runLevels, hrun, Except.ok_bind] at h
          obtain ⟨hevents, hsub, hnew⟩ := runLevel_recorded hnodup hrun
          dsimp only
          rw [← List.append_assoc]
          refine runLevels_kept_iff h hlayered (fun o ho => ?_) fun event hevent => ?_
          · exact List.mem_append.mpr ((hnew o ho).imp_left (hplaced o))
          · rcases List.mem_append.mp hevent with hold | hhere
            · exact (hpast event hold).mono hsub
            · exact hevents event hhere

end Engine

/-- A run of a graph that raises has recorded what happened in it if and only if nothing
had happened yet or the level that stops it fails cleanly, and `execute` stores a row for
each outcome. -/
theorem history_kept_iff (engine : Engine V) (jsonable : V → V) (nodes : List (GraphNode V))
    (edges : List GraphEdge) (context : Context V) {graph : WorkflowGraph V}
    {levels : List (List (GraphNode V))} {raised : Raised V}
    (hgraph : WorkflowGraph.init nodes edges = .ok graph) (hlevels : graph.levels = .ok levels)
    (hraised : engine.run graph context = .error raised) :
    ((∀ event ∈ engine.runEvents graph levels ⟨context, [], []⟩,
        event.Recorded raised.outcomes) ↔
      engine.runEvents graph levels ⟨context, [], []⟩ = [] ∨
        engine.FailsClean graph levels ⟨context, [], []⟩) ∧
      (execute engine jsonable nodes edges context).rows =
        raised.outcomes.map (·.row jsonable) := by
  constructor
  · unfold Engine.run at hraised
    rw [hlevels] at hraised
    have hlast : engine.runLevels graph levels ⟨context, [], []⟩ = .error raised := by
      rcases Except.bind_eq_error.mp hraised with hlast | ⟨s, -, hreturn⟩
      · exact hlast
      · cases hreturn
    have hlayered := (WorkflowGraph.levels_layered hlevels).1
    have hstart : ∀ event ∈ ([] : List Event), event.Recorded ([] : List (NodeOutcome V)) :=
      recorded_nil_iff.mpr rfl
    exact Engine.runLevels_kept_iff hlast hlayered (fun o ho => absurd ho List.not_mem_nil) hstart
  · unfold execute
    rw [hgraph]
    dsimp only
    rw [hraised]

end

/-! ## Runs that fail -/

/-- Every handler answers the key of its node, except where it fails: by node and pass. -/
def failingEngine (fails : String → Nat → Bool) : Engine (Value Empty) where
  parse text :=
    if text = "False" then .ok (.expression (.constant (.bool false)))
    else if text = "1 / 0" then
      .ok (.expression (.binOp .div (.constant (.int 1)) (.constant (.int 0))))
    else if text = "[1, 2]" then
      .ok (.expression (.list [.constant (.int 1), .constant (.int 2)]))
    else .error "invalid syntax"
  handlers _ := some fun node iteration _ =>
    if fails node.key iteration then .error ⟨.other "RuntimeError", "boom"⟩ else .ok (.str node.key)
  seen _ _ context := context
  left _ context := context

def tasks (keys : List String) : List (GraphNode (Value Empty)) :=
  keys.map fun key => ⟨key, "task", ∅⟩

/-- `b` fails after `start` has completed and `a` was skipped. -/
theorem clean_failure_kept : ∃ graph levels raised,
    WorkflowGraph.init (tasks ["start", "a", "b"])
        [⟨"start", "a", some "False"⟩, ⟨"start", "b", none⟩] = .ok graph ∧
      graph.levels = .ok levels ∧
      (failingEngine fun key _ => key = "b").run graph ∅ = .error raised ∧
      (failingEngine fun key _ => key = "b").runEvents graph levels ⟨∅, [], []⟩ =
        [.completed "start" 0, .skipped "a", .failed "b"] ∧
      (failingEngine fun key _ => key = "b").FailsClean graph levels ⟨∅, [], []⟩ ∧
      (∀ event ∈ (failingEngine fun key _ => key = "b").runEvents graph levels ⟨∅, [], []⟩,
        event.Recorded raised.outcomes) ∧
      ((∀ event ∈ (failingEngine fun key _ => key = "b").runEvents graph levels ⟨∅, [], []⟩,
          event.Recorded raised.outcomes) ↔
        (failingEngine fun key _ => key = "b").runEvents graph levels ⟨∅, [], []⟩ = [] ∨
          (failingEngine fun key _ => key = "b").FailsClean graph levels ⟨∅, [], []⟩) ∧
      (execute (failingEngine fun key _ => key = "b") id (tasks ["start", "a", "b"])
          [⟨"start", "a", some "False"⟩, ⟨"start", "b", none⟩] ∅).rows =
        raised.outcomes.map (·.row id) := by
  obtain ⟨hiff, hrows⟩ := history_kept_iff (failingEngine fun key _ => key = "b") id
    (tasks ["start", "a", "b"]) [⟨"start", "a", some "False"⟩, ⟨"start", "b", none⟩] ∅ rfl rfl rfl
  have hnone : ∀ i, .completed "b" i ∉ [Event.failed "b"] := by simp
  refine ⟨_, _, _, rfl, rfl, rfl, rfl, ?_⟩
  suffices hclean : _ from ⟨hclean, hiff.mpr (.inr hclean), hiff, hrows⟩
  exact And.intro ⟨_, rfl⟩ (And.intro hnone fun n hn => by cases hn)

/-- The run of the graph raises without a record of something that happened. -/
def Forgets (engine : Engine (Value Empty)) (nodes : List (GraphNode (Value Empty)))
    (edges : List GraphEdge) (event : Event) : Prop :=
  ∃ graph levels raised, WorkflowGraph.init nodes edges = .ok graph ∧
    graph.levels = .ok levels ∧ engine.run graph ∅ = .error raised ∧
    event ∈ engine.runEvents graph levels ⟨∅, [], []⟩ ∧ ¬ event.Recorded raised.outcomes

/-- A condition that raises forgets the levels before it, a node that fails forgets the
nodes after it in its batch, and a loop that fails forgets its passes. -/
theorem history_forgotten :
    Forgets (failingEngine fun _ _ => false) (tasks ["start", "a"])
        [⟨"start", "a", some "1 / 0"⟩] (.completed "start" 0) ∧
      Forgets (failingEngine fun key _ => key = "a") (tasks ["a", "b"]) [] (.completed "b" 0) ∧
      Forgets (failingEngine fun _ iteration => iteration = 1)
        [⟨"each", "loop", (∅ : Context (Value Empty)).insert "over" (.str "[1, 2]")⟩] []
        (.completed "each" 0) := by
  refine ⟨⟨_, _, _, rfl, rfl, rfl, ?_, ?_⟩, ⟨_, _, _, rfl, rfl, rfl, ?_, ?_⟩,
    ⟨_, _, _, rfl, rfl, rfl, ?_, ?_⟩⟩
  all_goals decide

end YoutubeFactory.Workflow
