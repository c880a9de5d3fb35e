import YoutubeFactory.AgentCore.Replanning

/-!
# Recovery from failures

A task is run only once all that it depends on has succeeded, and a task that has failed stays
failed: its recovery tasks are others, on which nothing depends.  So what depends on a failed task
is never run, however often the failure is recovered from (`unblocks_iff`).
-/

namespace YoutubeFactory.AgentCore

section

variable {Env : Type} {services : Services Env} {policy : AgentPolicy} {config : AgentConfig}
  {goal : Goal} {steps : List String}

/-! ## Sound graphs -/

/-- The key leads to a task that has succeeded. -/
def TaskGraph.Succeeded (graph : TaskGraph) (key : String) : Prop :=
  ∃ task, graph.get key = some task ∧ task.status = .succeeded

/-- A key of eight hexadecimal digits. -/
def Generated (key : String) : Prop := ∃ m, key = hexKey m

/-- Whatever has ended, or recovers from a failure, depends on tasks that have succeeded, and
nothing depends on a recovery task. -/
structure Sound (graph : TaskGraph) : Prop where
  ended : ∀ task ∈ graph.tasks, task.Ended → ∀ dep ∈ task.dependsOn, graph.Succeeded dep
  generated : ∀ task ∈ graph.tasks, Generated task.key →
    ∀ dep ∈ task.dependsOn, graph.Succeeded dep
  planned : ∀ task ∈ graph.tasks, ∀ dep ∈ task.dependsOn, ¬ Generated dep

theorem not_generated_understandKey : ¬ Generated understandKey := by
  rintro ⟨m, hm⟩
  have hu := (head_hexKey m).2.1
  rw [← hm] at hu
  exact hu (by decide)

theorem not_generated_workKey (index : Nat) : ¬ Generated (workKey index) := by
  rintro ⟨m, hm⟩
  have hw := (head_hexKey m).1
  rw [← hm] at hw
  exact hw (head_workKey index)

theorem not_generated_synthesizeKey : ¬ Generated synthesizeKey := by
  rintro ⟨m, hm⟩
  have hs := (head_hexKey m).2.2
  rw [← hm] at hs
  exact hs (by decide)

theorem not_generated_of_mem_workKeys {key : String} (h : key ∈ workKeys config goal steps) :
    ¬ Generated key := by
  obtain ⟨index, rfl⟩ := mem_workKeys h
  exact not_generated_workKey index

/-- The three kinds of planned tasks. -/
theorem mem_decompose {task : AgentTask} (h : task ∈ (decompose config goal steps).tasks) :
    task.status = .pending ∧ (task.key = understandKey ∧ task.dependsOn = [] ∨
      task.key ∈ workKeys config goal steps ∧ task.dependsOn = [understandKey] ∨
      task.key = synthesizeKey ∧ task.dependsOn = workKeys config goal steps) := by
  rw [TaskGraph.mem_tasks] at h
  by_cases hunderstand : task.key = understandKey
  · obtain ⟨found, hget, hdeps, hstatus⟩ := @get_decompose_understand config goal steps
    rw [hunderstand, hget] at h
    cases h
    exact ⟨hstatus, .inl ⟨hunderstand, hdeps⟩⟩
  · by_cases hwork : task.key ∈ workKeys config goal steps
    · obtain ⟨found, hget, hdeps, hstatus⟩ := get_decompose_work hwork
      cases hget.symm.trans h
      exact ⟨hstatus, .inr (.inl ⟨hwork, hdeps⟩)⟩
    · by_cases hsynthesize : task.key = synthesizeKey
      · obtain ⟨found, hget, hdeps, hstatus⟩ := @get_decompose_synthesize config goal steps
        rw [hsynthesize, hget] at h
        cases h
        exact ⟨hstatus, .inr (.inr ⟨hsynthesize, hdeps⟩)⟩
      · rw [get_decompose_other hunderstand hwork hsynthesize] at h
        cases h

theorem sound_decompose : Sound (decompose config goal steps) := by
  refine ⟨fun task htask hended => ?_, fun task htask hkey => ?_, fun task htask dep hdep => ?_⟩
  · have hpending := (mem_decompose htask).1
    rcases hended with hsucceeded | hfailed
    · exact absurd (hpending.symm.trans hsucceeded) nofun
    · exact absurd (hpending.symm.trans hfailed) nofun
  · rcases (mem_decompose htask).2 with ⟨heq, -⟩ | ⟨hwork, -⟩ | ⟨heq, -⟩
    · exact absurd (heq ▸ hkey) not_generated_understandKey
    · exact absurd hkey (not_generated_of_mem_workKeys hwork)
    · exact absurd (heq ▸ hkey) not_generated_synthesizeKey
  · rcases (mem_decompose htask).2 with ⟨-, hdeps⟩ | ⟨-, hdeps⟩ | ⟨-, hdeps⟩
    · rw [hdeps] at hdep
      cases hdep
    · rw [hdeps, List.mem_singleton] at hdep
      exact hdep ▸ not_generated_understandKey
    · rw [hdeps] at hdep
      exact not_generated_of_mem_workKeys hdep

/-! ## What a round preserves -/

variable {run ran run' : AgentRun (Context Env)}

/-- Running tasks leaves all dependencies as they are. -/
theorem Ran.deps {keys : List String} {graph graph' : TaskGraph} (h : Ran keys graph graph')
    (key : String) :
    (graph'.get key).map AgentTask.dependsOn = (graph.get key).map AgentTask.dependsOn := by
  cases hget : graph.get key with
  | none => rw [h.fresh key hget]
  | some task =>
      obtain ⟨task', hget', hdeps, -⟩ := h.kept key task hget
      rw [hget', Option.map_some, Option.map_some, hdeps]

/-- Only pending tasks are run. -/
theorem Ran.stays {graph graph' : TaskGraph} {key : String} {task : AgentTask}
    (h : Ran (graph.ready.map AgentTask.key) graph graph') (hget : graph.get key = some task)
    (hstatus : task.status ≠ .pending) :
    ∃ task', graph'.get key = some task' ∧ task'.status = task.status := by
  obtain ⟨task', hget', -, -, hstays⟩ := h.kept key task hget
  refine ⟨task', hget', hstays fun hready => ?_⟩
  obtain ⟨ready, hmem, hsame⟩ := List.mem_map.mp hready
  obtain ⟨htask, hpending, -⟩ := TaskGraph.mem_ready.mp hmem
  rw [← hsame, TaskGraph.mem_tasks.mp htask] at hget
  cases hget
  exact hstatus hpending

theorem Ran.succeeded {graph graph' : TaskGraph} {key : String}
    (h : Ran (graph.ready.map AgentTask.key) graph graph') (hkey : graph.Succeeded key) :
    graph'.Succeeded key := by
  obtain ⟨task, hget, hstatus⟩ := hkey
  obtain ⟨task', hget', hsame⟩ := h.stays hget (by rw [hstatus]; exact nofun)
  exact ⟨task', hget', hsame.trans hstatus⟩

namespace RoundRan

variable (h : RoundRan services config run ran run')

include h

/-- A task that has been run was there before. -/
theorem before {task' : AgentTask} (htask : task' ∈ ran.graph.tasks) :
    ∃ task ∈ run.graph.tasks, task.key = task'.key ∧ task.dependsOn = task'.dependsOn := by
  have hmem : task'.given ∈ run.graph.tasks.map AgentTask.given := by
    rw [← h.unwritten given_unwritten]
    exact List.mem_map_of_mem htask
  obtain ⟨task, htask, hgiven⟩ := List.mem_map.mp hmem
  exact ⟨task, htask, congrArg Prod.fst hgiven, congrArg (fun g => g.2.2) hgiven⟩

/-- What has ended by now depends on tasks that have succeeded. -/
theorem sound_ran (hsound : Sound run.graph) : Sound ran.graph where
  ended task' htask' hended dep hdep := by
    obtain ⟨task, htask, hkey, hdeps⟩ := h.before htask'
    refine h.tasks.succeeded ?_
    rw [← hdeps] at hdep
    by_cases hready : task.key ∈ run.graph.ready.map AgentTask.key
    · obtain ⟨ready, hmem, hsame⟩ := List.mem_map.mp hready
      obtain ⟨hready, -, hsucceeded⟩ := TaskGraph.mem_ready.mp hmem
      have heq : ready = task := by
        rw [TaskGraph.mem_tasks, hsame, TaskGraph.mem_tasks.mp htask] at hready
        exact (Option.some.inj hready).symm
      exact TaskGraph.depsSucceeded_iff.mp (heq ▸ hsucceeded) dep hdep
    · obtain ⟨found, hget, -, -, hstays⟩ :=
        h.tasks.kept task.key task (TaskGraph.mem_tasks.mp htask)
      rw [hkey, TaskGraph.mem_tasks.mp htask'] at hget
      cases hget
      refine hsound.ended task htask ?_ dep hdep
      rwa [AgentTask.Ended, hstays hready] at hended
  generated task' htask' hgenerated dep hdep := by
    obtain ⟨task, htask, hkey, hdeps⟩ := h.before htask'
    exact h.tasks.succeeded (hsound.generated task htask (hkey ▸ hgenerated) dep (hdeps ▸ hdep))
  planned task' htask' dep hdep := by
    obtain ⟨task, htask, -, hdeps⟩ := h.before htask'
    exact hsound.planned task htask dep (hdeps ▸ hdep)

/-- A round leaves the tasks under planned keys as running the ready ones has. -/
theorem get_of_planned {key : String} (hkey : ¬ Generated key) :
    run'.graph.get key = ran.graph.get key := by
  by_cases hfailed : ran.graph.hasFailure = true ∧ config.reflectionEnabled = true
  · rw [h.replanned hfailed]
    refine get_recoverAll_of_ne fun pair hpair heq => hkey ?_
    exact heq ▸ hex_of_mem_recoveries hpair
  · rw [h.otherwise hfailed]

theorem succeeded {key : String} (hkey : ¬ Generated key) (hsucceeded : ran.graph.Succeeded key) :
    run'.graph.Succeeded key := by
  rwa [TaskGraph.Succeeded, h.get_of_planned hkey]

theorem sound (hsound : Sound run.graph) : Sound run'.graph := by
  have hran := h.sound_ran hsound
  by_cases hfailed : ran.graph.hasFailure = true ∧ config.reflectionEnabled = true
  · have hcases : ∀ task ∈ run'.graph.tasks, task ∈ ran.graph.tasks ∨
        task.status = .pending ∧ ∀ dep ∈ task.dependsOn, ¬ Generated dep ∧
          run'.graph.Succeeded dep := by
      intro task htask
      rw [h.replanned hfailed] at htask
      rcases mem_recoverAll htask with hold | ⟨pair, hpair, -, hstatus, -, hdeps⟩
      · exact .inl hold
      · obtain ⟨hmem, hstatus'⟩ := List.mem_filter.mp (fst_mem_of_mem_recoveries hpair)
        refine .inr ⟨hstatus, fun dep hdep => ?_⟩
        have hplanned := hran.planned pair.1 hmem dep (hdeps dep hdep).1
        exact ⟨hplanned, h.succeeded hplanned (hran.ended pair.1 hmem
          (.inr (of_decide_eq_true hstatus')) dep (hdeps dep hdep).1)⟩
    refine ⟨fun task htask hended dep hdep => ?_, fun task htask hkey dep hdep => ?_,
      fun task htask dep hdep => ?_⟩
    · rcases hcases task htask with hold | ⟨hpending, -⟩
      · exact h.succeeded (hran.planned task hold dep hdep) (hran.ended task hold hended dep hdep)
      · rcases hended with hstatus | hstatus
        · exact absurd (hpending.symm.trans hstatus) nofun
        · exact absurd (hpending.symm.trans hstatus) nofun
    · rcases hcases task htask with hold | ⟨-, hdeps⟩
      · exact h.succeeded (hran.planned task hold dep hdep)
          (hran.generated task hold hkey dep hdep)
      · exact (hdeps dep hdep).2
    · rcases hcases task htask with hold | ⟨-, hdeps⟩
      · exact hran.planned task hold dep hdep
      · exact (hdeps dep hdep).1
  · rw [h.otherwise hfailed]
    exact hran

end RoundRan

/-! ## What the loop leaves -/

/-- What is planned stays, and what of it has ended keeps its status. -/
structure Leads (s t : AgentRun (Context Env)) : Prop where
  deps : ∀ key, ¬ Generated key →
    (t.graph.get key).map AgentTask.dependsOn = (s.graph.get key).map AgentTask.dependsOn
  ended : ∀ key task, ¬ Generated key → s.graph.get key = some task → task.Ended →
    ∃ task', t.graph.get key = some task' ∧ task'.status = task.status

theorem Leads.refl (s : AgentRun (Context Env)) : Leads s s :=
  ⟨fun _ _ => rfl, fun _ task _ hget _ => ⟨task, hget, rfl⟩⟩

theorem RoundRan.leads {last : AgentRun (Context Env)} (h : RoundRan services config run ran run')
    (hrest : Leads run' last) : Leads run last := by
  constructor
  · intro key hkey
    rw [hrest.deps key hkey, h.get_of_planned hkey, h.tasks.deps key]
  · intro key task hkey hget hended
    obtain ⟨task', hget', hstatus⟩ := h.tasks.stays hget (by
      rcases hended with hstatus | hstatus
      · rw [hstatus]
        exact nofun
      · rw [hstatus]
        exact nofun)
    rw [← h.get_of_planned hkey] at hget'
    obtain ⟨task'', hget'', hstatus'⟩ := hrest.ended key task' hkey hget' (by
      rw [AgentTask.Ended, hstatus]
      exact hended)
    exact ⟨task'', hget'', hstatus'.trans hstatus⟩

/-- Every failed task has a recovery task that has succeeded. -/
def Recovered (graph : TaskGraph) : Prop :=
  ∀ task ∈ graph.tasks, task.status = .failed →
    ∃ recovery ∈ graph.tasks, recovery.Recovers task.key ∧ recovery.status = .succeeded

instance (graph : TaskGraph) : Decidable (Recovered graph) :=
  inferInstanceAs (Decidable (∀ task ∈ graph.tasks, _))

/-- No task depends on one that has failed. -/
def NoneBlocked (graph : TaskGraph) : Prop :=
  ∀ failed ∈ graph.tasks, failed.status = .failed →
    ∀ task ∈ graph.tasks, failed.key ∉ task.dependsOn

instance (graph : TaskGraph) : Decidable (NoneBlocked graph) :=
  inferInstanceAs (Decidable (∀ failed ∈ graph.tasks, _))

/-- Where an iteration begins with every failure recovered from, the tasks that depend on failed
ones have been run in the end. -/
def Unblocks (starts : List (AgentRun (Context Env))) (last : TaskGraph) : Prop :=
  ∀ s ∈ starts, Recovered s.graph → ∀ failed ∈ s.graph.tasks, failed.status = .failed →
    ∀ task ∈ last.tasks, failed.key ∈ task.dependsOn → task.Ended

instance (task : AgentTask) : Decidable task.Ended := inferInstanceAs (Decidable (_ ∨ _))

instance (starts : List (AgentRun (Context Env))) (last : TaskGraph) :
    Decidable (Unblocks starts last) := inferInstanceAs (Decidable (∀ s ∈ starts, _))

/-- What depends on a failed task is never run. -/
theorem not_ended_of_failed {s last : AgentRun (Context Env)} (hsound : Sound last.graph)
    (hleads : Leads s last) {failed task : AgentTask} (hmem : failed ∈ s.graph.tasks)
    (hstatus : failed.status = .failed) (htask : task ∈ last.graph.tasks)
    (hdep : failed.key ∈ task.dependsOn) : ¬ Generated task.key ∧ ¬ task.Ended := by
  have hkey := hsound.planned task htask _ hdep
  obtain ⟨failed', hget, hstatus'⟩ :=
    hleads.ended _ failed hkey (TaskGraph.mem_tasks.mp hmem) (.inr hstatus)
  have hnot : ¬ last.graph.Succeeded failed.key := by
    rintro ⟨found, hfound, hsucceeded⟩
    cases hget.symm.trans hfound
    exact absurd ((hstatus'.trans hstatus).symm.trans hsucceeded) nofun
  exact ⟨fun hgenerated => hnot (hsound.generated task htask hgenerated _ hdep),
    fun hended => hnot (hsound.ended task htask hended _ hdep)⟩

/-- A run of the loop on a plan: the recoveries unblock the plan exactly if nothing depends on what
has failed. -/
theorem unblocks_iff {last : AgentRun (Context Env)}
    (hplan : run.graph = decompose config goal steps)
    (h : (execute (baseEngine services policy config goal) config).run run = .ok () last) :
    Unblocks (starts (baseEngine services policy config goal) config config.maxIterations.toNat
        (run.move .executing)) last.graph ↔
      ∀ s ∈ starts (baseEngine services policy config goal) config config.maxIterations.toNat
        (run.move .executing), Recovered s.graph → NoneBlocked s.graph := by
  have hsound : ∀ s ∈ trace (baseEngine services policy config goal) config
      config.maxIterations.toNat (run.move .executing), Sound s.graph :=
    trace_invariant (fun s s' hround hs => (round_ran hround).sound hs) _
      (show Sound run.graph from hplan ▸ sound_decompose)
  have hleads := trace_leads Leads.refl
    (fun s s' t hround ht => (@round_ran _ services policy config goal s s' hround).leads ht)
    config.maxIterations.toNat (run.move .executing)
  have hlast := hsound _ (lastState_mem _ _)
  rw [execute_graph h]
  refine forall₂_congr fun s hs => forall_congr' fun _ => ?_
  have hs := mem_trace_of_mem_starts hs
  have hblocked := fun {failed task : AgentTask} =>
    @not_ended_of_failed _ s _ hlast (hleads s hs) failed task
  constructor
  · intro hunblocks failed hmem hstatus task htask hdep
    obtain ⟨hkey, -⟩ :=
      not_ended_of_failed (hsound s hs) (Leads.refl s) hmem hstatus htask hdep
    have hdeps := (hleads s hs).deps task.key hkey
    rw [TaskGraph.mem_tasks.mp htask, Option.map_some] at hdeps
    obtain ⟨task', hget', hdeps'⟩ := Option.map_eq_some_iff.mp hdeps
    have htask' := TaskGraph.mem_tasks_of_get hget'
    rw [← hdeps'] at hdep
    exact (hblocked hmem hstatus htask' hdep).2 (hunblocks failed hmem hstatus task' htask' hdep)
  · intro hnone failed hmem hstatus task htask hdep
    obtain ⟨hkey, -⟩ := hblocked hmem hstatus htask hdep
    have hdeps := (hleads s hs).deps task.key hkey
    rw [TaskGraph.mem_tasks.mp htask, Option.map_some] at hdeps
    obtain ⟨task', hget', hdeps'⟩ := Option.map_eq_some_iff.mp hdeps.symm
    rw [← hdeps'] at hdep
    exact absurd hdep (hnone failed hmem hstatus task' (TaskGraph.mem_tasks_of_get hget'))

end

/-! ## A failed task that others wait for -/

/-- The loop of the usual agent on a plan, with a language model that is down at certain calls. -/
def plannedRun : AgentRun (Context Nat) :=
  { agentIn .planning false false .active (Context.start .empty [] 0) with
    shared := ⟨decompose usualConfig videoGoal [], Context.start .empty [] 0⟩ }

def usualLoop (down : List Nat) : EStateM.Result AgentError (AgentRun (Context Nat)) Unit :=
  (execute (baseEngine (counting down) .default usualConfig videoGoal) usualConfig).run plannedRun

def usualStarts (down : List Nat) : List (AgentRun (Context Nat)) :=
  starts (baseEngine (counting down) .default usualConfig videoGoal) usualConfig
    usualConfig.maxIterations.toNat (plannedRun.move .executing)

theorem usualLoop_eq_ok {down : List Nat} (h : (usualLoop down).value? = some ()) :
    usualLoop down = .ok () (usualLoop down).state := EStateM.Result.eq_ok_of_value? h

/-- Where only the last task fails, and is recovered from, nothing waits for it. -/
theorem unblocks_last_task :
    (∃ s ∈ usualStarts [2, 3, 4], s.graph.hasFailure = true ∧ Recovered s.graph) ∧
      Unblocks (usualStarts [2, 3, 4]) (usualLoop [2, 3, 4]).state.graph := by
  have hok := @usualLoop_eq_ok [2, 3, 4] (by decide +kernel)
  exact ⟨by decide +kernel, (unblocks_iff rfl hok).mpr (by decide +kernel)⟩

/-- The work task fails and is recovered from, with three iterations to go.  The task that
synthesizes waits for it to the end. -/
theorem synthesize_stays_blocked : ¬ ∀ (Env : Type) (services : Services Env)
    (policy : AgentPolicy) (config : AgentConfig) (goal : Goal) (steps : List String)
    (run last : AgentRun (Context Env)), run.graph = decompose config goal steps →
    (execute (baseEngine services policy config goal) config).run run = .ok () last →
    Unblocks (starts (baseEngine services policy config goal) config config.maxIterations.toNat
      (run.move .executing)) last.graph := by
  intro hunblocks
  have husual := hunblocks Nat (counting [1, 2, 3]) .default usualConfig videoGoal [] plannedRun _
    rfl (usualLoop_eq_ok (by decide +kernel))
  exact absurd husual (show ¬ Unblocks (usualStarts [1, 2, 3])
    (usualLoop [1, 2, 3]).state.graph by decide +kernel)

end YoutubeFactory.AgentCore
