import YoutubeFactory.AgentCore.Recovery
import YoutubeFactory.AgentCore.TopologicalOrder

/-!
# Plans

Every graph that `Planner.plan` builds is well formed, whatever the outline says, and replanning
adds tasks on which nothing depends, so it stays without cycles (`plans_well_formed`).
-/

namespace YoutubeFactory.AgentCore

section

variable {Env : Type} {services : Services Env} {policy : AgentPolicy} {config : AgentConfig}
  {goal : Goal} {steps : List String}

namespace TaskGraph

variable {graph : TaskGraph}

/-- Every dependency names a task of the graph. -/
def Closed (graph : TaskGraph) : Prop :=
  ∀ task ∈ graph.tasks, ∀ dep ∈ task.dependsOn, (graph.get dep).isSome = true

/-- Every task can come after all that it depends on. -/
structure Valid (graph : TaskGraph) : Prop where
  acyclic : ¬ graph.Cyclic
  closed : graph.Closed

/-! ## The same dependencies -/

/-- The keys lead to tasks with the same dependencies. -/
def SameDeps (graph graph' : TaskGraph) : Prop :=
  ∀ key, (graph'.get key).map AgentTask.dependsOn = (graph.get key).map AgentTask.dependsOn

namespace SameDeps

variable {graph' : TaskGraph} (h : SameDeps graph graph')

include h

theorem isSome_get (key : String) : (graph'.get key).isSome = (graph.get key).isSome := by
  rw [← Option.isSome_map, h key, Option.isSome_map]

theorem before {dep key : String} (hbefore : graph'.Before dep key) : graph.Before dep key := by
  obtain ⟨task', hget', hdep⟩ := hbefore
  obtain ⟨hmem, hknown⟩ := mem_knownDeps.mp hdep
  have hdeps := h key
  rw [hget', Option.map_some] at hdeps
  obtain ⟨task, hget, hsame⟩ := Option.map_eq_some_iff.mp hdeps.symm
  rw [h.isSome_get] at hknown
  exact ⟨task, hget, mem_knownDeps.mpr ⟨hsame ▸ hmem, hknown⟩⟩

theorem valid (hvalid : graph.Valid) : graph'.Valid where
  acyclic := fun ⟨key, hcycle⟩ => hvalid.acyclic ⟨key, hcycle.lift id fun _ _ => h.before⟩
  closed task' htask' dep hdep := by
    have hdeps := h task'.key
    rw [mem_tasks.mp htask', Option.map_some] at hdeps
    obtain ⟨task, hget, hsame⟩ := Option.map_eq_some_iff.mp hdeps.symm
    rw [h.isSome_get]
    exact hvalid.closed task (mem_tasks_of_get hget) dep (hsame ▸ hdep)

end SameDeps

/-! ## Adding new tasks -/

/-- Tasks under new and distinct keys are added at the end. -/
theorem tasks_addAll_of_new {tasks : List AgentTask} (hnodup : (tasks.map AgentTask.key).Nodup) :
    ∀ {graph : TaskGraph}, (∀ task ∈ tasks, graph.get task.key = none) →
      (graph.addAll tasks).tasks = graph.tasks ++ tasks := by
  induction tasks with
  | nil =>
      intro graph _
      exact (List.append_nil _).symm
  | cons task tasks ih =>
      intro graph hnew
      rw [List.map_cons, List.nodup_cons] at hnodup
      rw [List.forall_mem_cons] at hnew
      have hlater : ∀ later ∈ tasks, (graph.add task).get later.key = none := by
        intro later hmem
        rw [get_add_of_ne, hnew.2 later hmem]
        exact fun heq => hnodup.1 (List.mem_map.mpr ⟨later, hmem, heq⟩)
      show ((graph.add task).addAll tasks).tasks = _
      rw [ih hnodup.2 hlater, tasks_add_of_new hnew.1, List.append_assoc, List.singleton_append]

end TaskGraph

/-! ## The tasks of a plan -/

theorem toList_workKey (index : Nat) :
    (workKey index).toList = "work_".toList ++ Nat.toDigits 10 index := by
  simp [workKey, ToString.toString]

theorem workKey_injective : Function.Injective workKey := by
  intro index index' h
  have hlists := congrArg String.toList h
  rw [toList_workKey, toList_workKey] at hlists
  have hdigits := List.append_cancel_left hlists
  rw [← @Nat.ofDigitChars_ten_toDigits index, hdigits, Nat.ofDigitChars_ten_toDigits]

theorem workKeys_eq (steps : List String) : workKeys config goal steps =
    (List.range (workTasks config goal steps).length).map workKey := by
  refine List.ext_getElem ?_ fun i hi hi' => ?_
  · rw [workKeys, List.length_map, List.length_map, List.length_range]
  · simp only [workKeys, workTasks, AgentTask.planned, List.getElem_map, List.getElem_mapIdx,
      List.getElem_range]

theorem nodup_workKeys (steps : List String) : (workKeys config goal steps).Nodup := by
  rw [workKeys_eq]
  exact List.nodup_range.map workKey_injective

/-- No task of a plan replaces another. -/
theorem tasks_decompose (steps : List String) : (decompose config goal steps).tasks =
    understandTask goal :: workTasks config goal steps ++
      [synthesizeTask goal (workKeys config goal steps)] := by
  have hworks : ∀ task ∈ workTasks config goal steps,
      (TaskGraph.empty.add (understandTask goal)).get task.key = none := by
    intro task htask
    obtain ⟨index, description, rfl⟩ := mem_workTasks htask
    exact TaskGraph.get_add_of_ne (workKey_ne_understandKey index)
  have hlast : ((TaskGraph.empty.add (understandTask goal)).addAll
      (workTasks config goal steps)).get synthesizeKey = none := by
    rw [TaskGraph.get_addAll_of_notMem]
    · rfl
    · rintro task htask
      obtain ⟨index, description, rfl⟩ := mem_workTasks htask
      exact workKey_ne_synthesizeKey index
  exact (TaskGraph.tasks_add_of_new hlast).trans
    (congrArg (· ++ _) (TaskGraph.tasks_addAll_of_new (nodup_workKeys steps) hworks))

theorem length_tasks_decompose (steps : List String) :
    ((decompose config goal steps).tasks.length : Int) ≤ max 3 config.maxTasks := by
  have hlimit : (workTasks config goal steps).length ≤ (max 1 (config.maxTasks - 2)).toNat := by
    rw [workTasks, List.length_mapIdx]
    exact List.length_take_le _ _
  rw [tasks_decompose, List.length_append, List.length_cons, List.length_singleton]
  omega

theorem closed_decompose : (decompose config goal steps).Closed := by
  intro task htask dep hdep
  have hfound : ∀ {key : String} {deps : List String}, (∃ found,
      (decompose config goal steps).get key = some found ∧ found.dependsOn = deps ∧
        found.status = .pending) → ((decompose config goal steps).get key).isSome = true := by
    rintro key deps ⟨found, hget, -⟩
    rw [hget]
    rfl
  rcases (mem_decompose htask).2 with ⟨-, hdeps⟩ | ⟨-, hdeps⟩ | ⟨-, hdeps⟩
  · rw [hdeps] at hdep
    cases hdep
  · rw [hdeps, List.mem_singleton] at hdep
    exact hdep ▸ hfound (get_decompose_understand steps)
  · rw [hdeps] at hdep
    exact hfound (get_decompose_work hdep)

/-- Every dependency goes from one stage to the next. -/
theorem planRank_lt_of_before (dep key : String)
    (h : (decompose config goal steps).Before dep key) :
    (planRank (workKeys config goal steps) dep).getD 0 <
      (planRank (workKeys config goal steps) key).getD 0 := by
  obtain ⟨task, hget, hdep⟩ := h
  have hdep := (TaskGraph.mem_knownDeps.mp hdep).1
  have hkey := TaskGraph.key_of_get hget
  rcases (mem_decompose (TaskGraph.mem_tasks_of_get hget)).2 with
    ⟨-, hdeps⟩ | ⟨hwork, hdeps⟩ | ⟨hlast, hdeps⟩
  · rw [hdeps] at hdep
    cases hdep
  · rw [hdeps, List.mem_singleton] at hdep
    rw [hkey] at hwork
    rw [hdep, planRank_understand, planRank_work hwork]
    exact Nat.one_pos
  · rw [hdeps] at hdep
    rw [← hkey, hlast, planRank_work hdep, planRank_synthesize]
    exact Nat.lt_succ_self 1

theorem acyclic_decompose : ¬ (decompose config goal steps).Cyclic := fun ⟨key, hcycle⟩ =>
  Layers.no_cycle_of_rank (@planRank_lt_of_before config goal steps) key hcycle

theorem nodup_knownDeps_decompose {task : AgentTask}
    (h : task ∈ (decompose config goal steps).tasks) :
    ((decompose config goal steps).knownDeps task).Nodup := by
  refine List.Nodup.filter _ ?_
  rcases (mem_decompose h).2 with ⟨-, hdeps⟩ | ⟨-, hdeps⟩ | ⟨-, hdeps⟩
  · rw [hdeps]
    exact List.nodup_nil
  · rw [hdeps]
    exact List.nodup_singleton _
  · rw [hdeps]
    exact nodup_workKeys steps

/-! ## Well-formed plans -/

/-- The task does a part of the work. -/
def AgentTask.IsWork (task : AgentTask) : Prop := ∃ index, task.key = workKey index

/-- A plan of the size that is configured, with one order at least, and in every order the result is
synthesized once all of the work is done. -/
structure WellFormed (config : AgentConfig) (graph : TaskGraph) : Prop where
  valid : graph.Valid
  unique : (graph.tasks.map AgentTask.key).Nodup
  few : (graph.tasks.length : Int) ≤ max 3 config.maxTasks
  sorted : ∃ order, graph.topologicalOrder = .ok order ∧ graph.Topological order
  synthesizes : (graph.get synthesizeKey).isSome = true
  last : ∀ before task after, graph.Topological (before ++ task :: after) →
    task.key = synthesizeKey → ∀ work ∈ graph.tasks, work.IsWork → work ∈ before

theorem mem_workKeys_of_isWork {task : AgentTask} (h : task ∈ (decompose config goal steps).tasks)
    (hwork : task.IsWork) : task.key ∈ workKeys config goal steps := by
  obtain ⟨index, hkey⟩ := hwork
  rcases (mem_decompose h).2 with ⟨heq, -⟩ | ⟨hmem, -⟩ | ⟨heq, -⟩
  · exact absurd (hkey.symm.trans heq) (workKey_ne_understandKey index)
  · exact hmem
  · exact absurd (hkey.symm.trans heq) (workKey_ne_synthesizeKey index)

theorem wellFormed_decompose : WellFormed config (decompose config goal steps) where
  valid := ⟨acyclic_decompose, closed_decompose⟩
  unique := TaskGraph.nodup_keys _
  few := length_tasks_decompose steps
  sorted := by
    cases hsort : (decompose config goal steps).topologicalOrder with
    | ok order => exact ⟨order, rfl, TaskGraph.topological_of_ok hsort⟩
    | error message =>
        exact absurd ⟨acyclic_decompose, fun _ => nodup_knownDeps_decompose⟩
          ((TaskGraph.raises_iff _).mp ⟨message, hsort⟩)
  synthesizes := by
    obtain ⟨task, hget, -⟩ := @get_decompose_synthesize config goal steps
    rw [hget]
    rfl
  last before task after horder hkey work hmem hwork := by
    have hwork := mem_workKeys_of_isWork hmem hwork
    have htask : task ∈ (decompose config goal steps).tasks :=
      horder.perm.mem_iff.mp (List.mem_append_right _ List.mem_cons_self)
    obtain ⟨found, hget, hdeps, -⟩ := @get_decompose_synthesize config goal steps
    rw [← hkey, TaskGraph.mem_tasks.mp htask] at hget
    cases hget
    have hdep : work.key ∈ (decompose config goal steps).knownDeps task :=
      TaskGraph.mem_knownDeps.mpr
        ⟨hdeps ▸ hwork, closed_decompose task htask work.key (hdeps ▸ hwork)⟩
    have hplace : (before ++ task :: after)[before.length]? = some task := by
      rw [List.getElem?_append_right le_rfl, Nat.sub_self]
      rfl
    have hplaced := horder.after before.length task hplace work.key hdep
    rw [List.take_left] at hplaced
    obtain ⟨placed, hplaced, hsame⟩ := List.mem_map.mp hplaced
    have hget := TaskGraph.mem_tasks.mp
      (horder.perm.mem_iff.mp (List.mem_append_left (task :: after) hplaced))
    rw [hsame, TaskGraph.mem_tasks.mp hmem] at hget
    cases hget
    exact hplaced

/-- Whatever the outline says, it is decomposed. -/
theorem planGoal_eq_ok {context context' : Context Env} {graph : TaskGraph}
    (h : (planGoal services policy config goal (decompose config goal)).run context =
      .ok graph context') : ∃ steps, graph = decompose config goal steps := by
  obtain ⟨steps, context₁, -, hrest⟩ := EStateM.run_bind_eq_ok h
  obtain ⟨u, context₂, -, hpure⟩ := EStateM.run_bind_eq_ok hrest
  cases hpure
  exact ⟨steps, rfl⟩

/-! ## Replanning -/

theorem closed_recoverAll {graph : TaskGraph} {pairs : List (AgentTask × String)}
    (h : graph.Closed) : (recoverAll graph pairs).Closed := by
  intro task htask dep hdep
  rcases mem_recoverAll htask with hold | ⟨pair, -, -, -, -, hdeps⟩
  · exact isSome_recoverAll (h task hold dep hdep)
  · exact (hdeps dep hdep).2

/-- Nothing depends on recovery tasks under keys that no task lists, so no cycle leads through
them. -/
theorem acyclic_recoverAll {graph : TaskGraph} {pairs : List (AgentTask × String)}
    (hmem : ∀ pair ∈ pairs, pair.1 ∈ graph.tasks)
    (hunlisted : ∀ pair ∈ pairs, ∀ task ∈ graph.tasks, pair.2 ∉ task.dependsOn)
    (h : ¬ graph.Cyclic) : ¬ (recoverAll graph pairs).Cyclic := by
  have hold : ∀ {dep key : String}, (recoverAll graph pairs).Before dep key →
      (recoverAll graph pairs).get dep = graph.get dep := by
    rintro dep key ⟨task, hget, hdep⟩
    have hdep := (TaskGraph.mem_knownDeps.mp hdep).1
    refine get_recoverAll_of_ne fun pair hpair heq => ?_
    rcases mem_recoverAll (TaskGraph.mem_tasks_of_get hget) with
      hold | ⟨failed, hfailed, -, -, -, hdeps⟩
    · exact hunlisted pair hpair task hold (heq ▸ hdep)
    · exact hunlisted pair hpair failed.1 (hmem failed hfailed) (heq ▸ (hdeps dep hdep).1)
  rintro ⟨key, hcycle⟩
  refine h ⟨key, Layers.cycle_of_followed ?_ hcycle⟩
  intro dep key next hbefore hnext
  have hdep := hold hbefore
  obtain ⟨task, hget, hmem⟩ := hbefore
  obtain ⟨hlisted, hknown⟩ := TaskGraph.mem_knownDeps.mp hmem
  rw [hold hnext] at hget
  rw [hdep] at hknown
  exact ⟨task, hget, TaskGraph.mem_knownDeps.mpr ⟨hlisted, hknown⟩⟩

/-- No task depends on a key that is about to be given to a recovery task. -/
def Unlisted (services : Services Env) (shared : Shared (Context Env)) : Prop :=
  ∀ pair ∈ recoveries services shared, ∀ task ∈ shared.graph.tasks, pair.2 ∉ task.dependsOn

theorem valid_replanned {shared : Shared (Context Env)} (hunlisted : Unlisted services shared)
    (h : shared.graph.Valid) : (recoverAll shared.graph (recoveries services shared)).Valid where
  acyclic := acyclic_recoverAll (fun _ hpair =>
    (List.mem_filter.mp (fst_mem_of_mem_recoveries hpair)).1) hunlisted h.acyclic
  closed := closed_recoverAll h.closed

/-! ## Runs on a plan -/

variable {run ran run' : AgentRun (Context Env)}

/-- Nothing in a sound graph depends on a generated key, whether or not it is new. -/
theorem Sound.unlisted {shared : Shared (Context Env)} (h : Sound shared.graph) :
    Unlisted services shared := fun _ hpair task htask hdep =>
  h.planned task htask _ hdep (hex_of_mem_recoveries hpair)

theorem RoundRan.valid (h : RoundRan services config run ran run') (hsound : Sound run.graph)
    (hvalid : run.graph.Valid) : run'.graph.Valid := by
  have hsame : run.graph.SameDeps ran.graph := h.tasks.deps
  have hran := hsame.valid hvalid
  by_cases hfailed : ran.graph.hasFailure = true ∧ config.reflectionEnabled = true
  · rw [h.replanned hfailed]
    exact valid_replanned (h.sound_ran hsound).unlisted hran
  · rw [h.otherwise hfailed]
    exact hran

/-- Plans are well formed.  Replanning loses no dependency, and under keys that no task lists it
adds no cycle; in a run on a plan it never does, whatever the new keys are. -/
theorem plans_well_formed (services : Services Env) (policy : AgentPolicy) (config : AgentConfig)
    (goal : Goal) :
    (∀ context context' graph, (planGoal services policy config goal (decompose config goal)).run
        context = .ok graph context' → WellFormed config graph) ∧
      (∀ shared shared', (replan services).run shared = .ok () shared' →
        (shared.graph.Closed → shared'.graph.Closed) ∧
          (Unlisted services shared → ¬ shared.graph.Cyclic → ¬ shared'.graph.Cyclic)) ∧
      ∀ n run steps, run.graph = decompose config goal steps →
        ∀ s ∈ trace (baseEngine services policy config goal) config n run, s.graph.Valid := by
  refine ⟨fun context context' graph h => ?_, fun shared shared' h => ?_,
    fun n run steps hplan => ?_⟩
  · obtain ⟨steps, rfl⟩ := planGoal_eq_ok h
    exact wellFormed_decompose
  · obtain ⟨world, hrun⟩ := @replan_run _ services shared
    cases hrun.symm.trans h
    exact ⟨closed_recoverAll, acyclic_recoverAll fun _ hpair =>
      (List.mem_filter.mp (fst_mem_of_mem_recoveries hpair)).1⟩
  · have hinvariant := @trace_invariant _ config (baseEngine services policy config goal)
      (fun run => Sound run.graph ∧ run.graph.Valid) (fun run run' hround hrun =>
        ⟨(round_ran hround).sound hrun.1, (round_ran hround).valid hrun.1 hrun.2⟩) n run
      (hplan ▸ ⟨sound_decompose, acyclic_decompose, closed_decompose⟩)
    exact fun s hs => (hinvariant s hs).2

end

def usualPlan : EStateM.Result AgentError (Context Nat) TaskGraph :=
  (planGoal (counting [1, 2, 3]) .default usualConfig videoGoal
    (decompose usualConfig videoGoal)).run (Context.start .empty [] 0)

/-- The rounds of a run in which the work task fails, so that tasks are added in each later
iteration. -/
def failingTrace : List (AgentRun (Context Nat)) :=
  trace (baseEngine (counting [1, 2, 3]) .default usualConfig videoGoal) usualConfig 6 plannedRun

theorem plans_well_formed_usual :
    (∃ graph context, usualPlan = .ok graph context ∧ WellFormed usualConfig graph) ∧
      (∃ s ∈ failingTrace, 3 < s.graph.tasks.length ∧ s.graph.hasFailure = true ∧
        ∃ shared, (replan (counting [1, 2, 3])).run s.shared = .ok () shared ∧
          shared.graph.Closed ∧ ¬ shared.graph.Cyclic) ∧
      ∀ s ∈ failingTrace, s.graph.Valid := by
  obtain ⟨hplans, hreplans, hruns⟩ :=
    plans_well_formed (counting [1, 2, 3]) .default usualConfig videoGoal
  have hvalid := hruns 6 plannedRun [] rfl
  refine ⟨?_, ?_, hvalid⟩
  · have hplanned : usualPlan.value?.isSome = true := by decide +kernel
    obtain ⟨graph, hgraph⟩ := Option.isSome_iff_exists.mp hplanned
    have hok := EStateM.Result.eq_ok_of_value? hgraph
    exact ⟨graph, _, hok, hplans _ _ graph hok⟩
  · obtain ⟨s, hs, hadded, hfailed, hunlisted⟩ : ∃ s ∈ failingTrace,
        3 < s.graph.tasks.length ∧ s.graph.hasFailure = true ∧
          Unlisted (counting [1, 2, 3]) s.shared := by
      unfold Unlisted
      decide +kernel
    obtain ⟨world, hreplanned⟩ := @replan_run _ (counting [1, 2, 3]) s.shared
    obtain ⟨hclosed, hacyclic⟩ := hreplans _ _ hreplanned
    exact ⟨s, hs, hadded, hfailed, _, hreplanned, hclosed (hvalid s hs).closed,
      hacyclic hunlisted (hvalid s hs).acyclic⟩

end YoutubeFactory.AgentCore
