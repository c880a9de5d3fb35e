import YoutubeFactory.AgentCore.Plans

/-!
# Recovering once

`replan` does not look at what an earlier round has recovered from.  So a failure is recovered from
once exactly if the loop ends with the iteration in which it happens (`recovered_once_iff`).
-/

namespace YoutubeFactory.AgentCore

section

variable {Env : Type} {services : Services Env} {policy : AgentPolicy} {config : AgentConfig}
  {goal : Goal} {steps : List String} {run ran run' : AgentRun (Context Env)}

/-! ## Counting recoveries -/

/-- The number of tasks that recover from the one of this key. -/
def recoveryCount (graph : TaskGraph) (key : String) : Nat :=
  graph.tasks.countP fun task => task.Recovers key

/-- Every failed task is recovered from at most once, and nothing else is added to the planned
tasks. -/
structure RecoveredOnce (planned : Nat) (graph : TaskGraph) : Prop where
  each : ∀ task ∈ graph.tasks, task.status = .failed → recoveryCount graph task.key ≤ 1
  count : graph.tasks.length ≤ planned + (failedTasks graph).length

/-- The keys of the next recovery tasks are new, and distinct. -/
structure FreshKeys (services : Services Env) (shared : Shared (Context Env)) : Prop where
  nodup : ((recoveries services shared).map Prod.snd).Nodup
  fresh : ∀ pair ∈ recoveries services shared, shared.graph.get pair.2 = none

/-- A key and a payload. -/
def AgentTask.marks (task : AgentTask) : String × List (String × String) := (task.key, task.payload)

theorem marks_unwritten : Unwritten AgentTask.marks := fun _ _ _ _ _ => rfl

theorem recoveryCount_eq (graph : TaskGraph) (key : String) : recoveryCount graph key =
    (graph.tasks.map AgentTask.marks).countP fun marks => marks.2.lookup "recovers" = some key := by
  rw [List.countP_map]
  rfl

theorem RoundRan.recoveryCount_ran (h : RoundRan services config run ran run') (key : String) :
    recoveryCount ran.graph key = recoveryCount run.graph key := by
  rw [recoveryCount_eq, recoveryCount_eq, h.unwritten marks_unwritten]

/-! ## What replanning adds -/

theorem countP_recoverAll_le {P : AgentTask → Bool} {Q : AgentTask × String → Bool}
    (hrecovery : ∀ graph pair, P (recovery graph pair.1 pair.2) = true → Q pair = true) :
    ∀ (pairs : List (AgentTask × String)) (graph : TaskGraph),
      (recoverAll graph pairs).tasks.countP P ≤ graph.tasks.countP P + pairs.countP Q
  | [], _ => le_refl _
  | pair :: pairs, graph => by
      have hrest := countP_recoverAll_le hrecovery pairs (graph.add (recovery graph pair.1 pair.2))
      have hadd := TaskGraph.countP_add_le P graph (recovery graph pair.1 pair.2)
      change (recoverAll (graph.add (recovery graph pair.1 pair.2)) pairs).tasks.countP P ≤ _
      rw [List.countP_cons]
      by_cases hP : P (recovery graph pair.1 pair.2) = true
      · rw [if_pos hP] at hadd
        rw [if_pos (hrecovery graph pair hP)]
        omega
      · rw [if_neg hP] at hadd
        omega

theorem recovery_recovers (graph : TaskGraph) (task : AgentTask) (key : String) :
    (recovery graph task key).Recovers task.key := rfl

theorem nodup_failedTasks (graph : TaskGraph) : ((failedTasks graph).map AgentTask.key).Nodup :=
  graph.nodup_keys.sublist (List.filter_sublist.map _)

/-- A key belongs to one failed task at most. -/
theorem countP_recoveries_le (shared : Shared (Context Env)) (key : String) :
    (recoveries services shared).countP (fun pair => pair.1.key = key) ≤ 1 := by
  have hcount : (recoveries services shared).countP (fun pair => pair.1.key = key) =
      ((failedTasks shared.graph).map AgentTask.key).count key := by
    rw [← @map_fst_recoveries _ services, List.map_map, List.count, List.countP_map]
    rfl
  rw [hcount]
  exact List.nodup_iff_count_le_one.mp (nodup_failedTasks shared.graph) key

theorem length_recoveries (shared : Shared (Context Env)) :
    (recoveries services shared).length = (failedTasks shared.graph).length := by
  rw [← @map_fst_recoveries _ services, List.length_map]

/-- Under new keys all recovery tasks are added at the end. -/
theorem tasks_recoverAll {pairs : List (AgentTask × String)} (hnodup : (pairs.map Prod.snd).Nodup) :
    ∀ {graph : TaskGraph}, (∀ pair ∈ pairs, graph.get pair.2 = none) →
      ∃ added, (recoverAll graph pairs).tasks = graph.tasks ++ added ∧
        (∀ task ∈ added, task.status = .pending) ∧
        ∀ pair ∈ pairs, ∃ task ∈ added, task.Recovers pair.1.key := by
  induction pairs with
  | nil =>
      intro graph _
      exact ⟨[], (List.append_nil _).symm, List.forall_mem_nil _, List.forall_mem_nil _⟩
  | cons pair pairs ih =>
      intro graph hfresh
      rw [List.map_cons, List.nodup_cons] at hnodup
      rw [List.forall_mem_cons] at hfresh
      have hlater : ∀ later ∈ pairs,
          (graph.add (recovery graph pair.1 pair.2)).get later.2 = none := by
        intro later hmem
        rw [TaskGraph.get_add_of_ne, hfresh.2 later hmem]
        exact fun heq => hnodup.1 (List.mem_map.mpr ⟨later, hmem, heq⟩)
      obtain ⟨added, htasks, hpending, hrecovers⟩ := ih hnodup.2 hlater
      refine ⟨recovery graph pair.1 pair.2 :: added, ?_, ?_, ?_⟩
      · show (recoverAll (graph.add (recovery graph pair.1 pair.2)) pairs).tasks = _
        rw [htasks, TaskGraph.tasks_add_of_new hfresh.1, List.append_assoc, List.singleton_append]
      · rw [List.forall_mem_cons]
        exact ⟨rfl, hpending⟩
      · rw [List.forall_mem_cons]
        refine ⟨⟨_, List.mem_cons_self, recovery_recovers graph pair.1 pair.2⟩, ?_⟩
        intro later hmem
        obtain ⟨task, htask, hmarks⟩ := hrecovers later hmem
        exact ⟨task, List.mem_cons_of_mem _ htask, hmarks⟩

/-! ## Before the first failure -/

/-- Nothing has been added to the plan. -/
def Unrecovered (config : AgentConfig) (goal : Goal) (steps : List String) (graph : TaskGraph) :
    Prop :=
  graph.tasks.map AgentTask.marks = (decompose config goal steps).tasks.map AgentTask.marks

/-- The planned tasks. -/
theorem mem_decompose_tasks {task : AgentTask} (h : task ∈ (decompose config goal steps).tasks) :
    task = understandTask goal ∨ task ∈ workTasks config goal steps ∨
      task = synthesizeTask goal (workKeys config goal steps) := by
  rw [tasks_decompose, List.mem_append, List.mem_cons, List.mem_singleton] at h
  exact or_assoc.mp h

theorem not_recovers_of_planned {task : AgentTask} (h : task ∈ (decompose config goal steps).tasks)
    (key : String) : ¬ task.Recovers key := by
  rcases mem_decompose_tasks h with rfl | hwork | rfl
  · exact nofun
  · obtain ⟨index, description, rfl⟩ := mem_workTasks hwork
    exact nofun
  · exact nofun

namespace Unrecovered

section

variable {graph : TaskGraph} (h : Unrecovered config goal steps graph)

include h

theorem length : graph.tasks.length = (decompose config goal steps).tasks.length := by
  have hlength := congrArg List.length h
  rwa [List.length_map, List.length_map] at hlength

theorem recoveryCount_eq_zero (key : String) : recoveryCount graph key = 0 := by
  rw [recoveryCount_eq, show graph.tasks.map AgentTask.marks = _ from h, ← recoveryCount_eq,
    recoveryCount, List.countP_eq_zero]
  intro task htask
  rw [decide_eq_true_eq]
  exact not_recovers_of_planned htask key

theorem not_generated {task : AgentTask} (htask : task ∈ graph.tasks) : ¬ Generated task.key := by
  have hmem : task.marks ∈ (decompose config goal steps).tasks.map AgentTask.marks :=
    h ▸ List.mem_map_of_mem htask
  obtain ⟨planned, hplanned, hmarks⟩ := List.mem_map.mp hmem
  have hkey : planned.key = task.key := congrArg Prod.fst hmarks
  rw [← hkey]
  rcases (mem_decompose hplanned).2 with ⟨heq, -⟩ | ⟨hwork, -⟩ | ⟨heq, -⟩
  · rw [heq]
    exact not_generated_understandKey
  · exact not_generated_of_mem_workKeys hwork
  · rw [heq]
    exact not_generated_synthesizeKey

theorem recoveredOnce :
    RecoveredOnce (decompose config goal steps).tasks.length graph where
  each task _ _ := by
    rw [h.recoveryCount_eq_zero]
    exact Nat.zero_le 1
  count := h.length ▸ Nat.le_add_right _ _

end

variable {shared : Shared (Context Env)} (h : Unrecovered config goal steps shared.graph)

include h

/-- What has failed is still there, as it was, once it has been recovered from. -/
theorem failedTasks_subset : failedTasks shared.graph ⊆
    failedTasks (recoverAll shared.graph (recoveries services shared)) := by
  intro task htask
  obtain ⟨hmem, hstatus⟩ := List.mem_filter.mp htask
  refine List.mem_filter.mpr ⟨TaskGraph.mem_tasks.mpr ?_, hstatus⟩
  rw [get_recoverAll_of_ne]
  · exact TaskGraph.mem_tasks.mp hmem
  · intro pair hpair heq
    exact h.not_generated hmem (heq ▸ hex_of_mem_recoveries hpair)

/-- The first time that replanning adds tasks, it adds one for each failed task. -/
theorem recoverAll : RecoveredOnce (decompose config goal steps).tasks.length
    (AgentCore.recoverAll shared.graph (recoveries services shared)) := by
  constructor
  · intro task _ _
    have hadded := @countP_recoverAll_le (fun added => added.Recovers task.key)
      (fun pair => pair.1.key = task.key) (fun graph pair hrecovers => by
        rw [decide_eq_true_eq] at hrecovers
        exact decide_eq_true (Option.some.inj hrecovers)) (recoveries services shared) shared.graph
    have hbefore : shared.graph.tasks.countP (fun added => added.Recovers task.key) = 0 :=
      h.recoveryCount_eq_zero task.key
    have hone := @countP_recoveries_le _ services shared task.key
    unfold recoveryCount
    omega
  · have hadded := @countP_recoverAll_le (fun _ => true) (fun _ => true) (fun _ _ _ => rfl)
      (recoveries services shared) shared.graph
    rw [List.countP_true, List.countP_true, h.length, length_recoveries] at hadded
    have hfailed := ((nodup_failedTasks shared.graph).of_map.subperm
      (@failedTasks_subset _ services _ _ _ _ h)).length_le
    omega

end Unrecovered

/-! ## Runs -/

/-- Every failed task has been recovered from. -/
def AllRecovered (graph : TaskGraph) : Prop :=
  ∀ task ∈ graph.tasks, task.status = .failed → 1 ≤ recoveryCount graph task.key

namespace RoundRan

variable (h : RoundRan services config run ran run')

include h

theorem unrecovered (hrun : Unrecovered config goal steps run.graph) :
    Unrecovered config goal steps ran.graph :=
  (h.unwritten marks_unwritten).trans hrun

/-- A task that has failed stays so. -/
theorem failed_ran {task : AgentTask} (htask : task ∈ run.graph.tasks)
    (hfailed : task.status = .failed) :
    ∃ task' ∈ ran.graph.tasks, task'.key = task.key ∧ task'.status = .failed := by
  obtain ⟨task', hget, hstatus⟩ := h.tasks.stays (TaskGraph.mem_tasks.mp htask) (by
    rw [hfailed]
    exact nofun)
  exact ⟨task', TaskGraph.mem_tasks_of_get hget, TaskGraph.key_of_get hget, hstatus.trans hfailed⟩

/-- Replanning adds a recovery task for every failed task. -/
theorem tasks_replanned (hfresh : FreshKeys services ran.shared)
    (hfailed : ran.graph.hasFailure = true) (hreflection : config.reflectionEnabled = true) :
    ∃ added, run'.graph.tasks = ran.graph.tasks ++ added ∧
      (∀ task ∈ added, task.status = .pending) ∧
      ∀ failed ∈ ran.graph.tasks, failed.status = .failed →
        1 ≤ added.countP fun task => task.Recovers failed.key := by
  obtain ⟨added, htasks, hpending, hadded⟩ := tasks_recoverAll hfresh.nodup hfresh.fresh
  refine ⟨added, (congrArg TaskGraph.tasks (h.replanned ⟨hfailed, hreflection⟩)).trans htasks,
    hpending, fun failed hmem hstatus => ?_⟩
  have hfirst : failed ∈ (recoveries services ran.shared).map Prod.fst := by
    rw [map_fst_recoveries]
    exact List.mem_filter.mpr ⟨hmem, decide_eq_true hstatus⟩
  obtain ⟨pair, hpair, rfl⟩ := List.mem_map.mp hfirst
  obtain ⟨recovery, hmem, hrecovers⟩ := hadded pair hpair
  exact List.countP_pos_iff.mpr ⟨recovery, hmem, decide_eq_true hrecovers⟩

/-- Whatever has failed and been recovered from once is recovered from again. -/
theorem not_recoveredOnce {planned : Nat} (hfresh : FreshKeys services ran.shared)
    (hrecovered : AllRecovered run.graph) (hfailed : run.graph.hasFailure = true)
    (hreflection : config.reflectionEnabled = true) : ¬ RecoveredOnce planned run'.graph := by
  obtain ⟨key, task, hget, hstatus⟩ := TaskGraph.hasFailure_iff.mp hfailed
  have htask := TaskGraph.mem_tasks_of_get hget
  obtain ⟨task', htask', hkey, hstatus'⟩ := h.failed_ran htask hstatus
  have hfailure : ran.graph.hasFailure = true :=
    TaskGraph.hasFailure_iff.mpr ⟨_, task', TaskGraph.mem_tasks.mp htask', hstatus'⟩
  obtain ⟨added, htasks, -, hadded⟩ := h.tasks_replanned hfresh hfailure hreflection
  -- It has the recovery task of an earlier round, and the one that this round adds.
  have hbefore : 1 ≤ recoveryCount ran.graph task'.key := by
    rw [hkey, h.recoveryCount_ran]
    exact hrecovered task htask hstatus
  have hnow := hadded task' htask' hstatus'
  intro honce
  have hle := honce.each task' (htasks ▸ List.mem_append_left added htask') hstatus'
  rw [recoveryCount, htasks, List.countP_append] at hle
  unfold recoveryCount at hbefore
  omega

/-- A round leaves no failed task without a recovery task. -/
theorem allRecovered (hfresh : FreshKeys services ran.shared)
    (hreflection : config.reflectionEnabled = true) : AllRecovered run'.graph := by
  intro task htask hstatus
  by_cases hfailed : ran.graph.hasFailure = true
  · obtain ⟨added, htasks, hpending, hadded⟩ := h.tasks_replanned hfresh hfailed hreflection
    rw [htasks, List.mem_append] at htask
    rcases htask with hold | hnew
    · have hnow := hadded task hold hstatus
      rw [recoveryCount, htasks, List.countP_append]
      omega
    · exact absurd ((hpending task hnew).symm.trans hstatus) nofun
  · rw [h.otherwise fun hboth => hfailed hboth.1] at htask
    exact absurd (TaskGraph.hasFailure_iff.mpr
      ⟨_, task, TaskGraph.mem_tasks.mp htask, hstatus⟩) hfailed

/-- The first repair leaves the failures where they are. -/
theorem hasFailure_replanned (hrun : Unrecovered config goal steps run.graph)
    (hfailed : ran.graph.hasFailure = true ∧ config.reflectionEnabled = true) :
    run'.graph.hasFailure = true := by
  obtain ⟨key, task, hget, hstatus⟩ := TaskGraph.hasFailure_iff.mp hfailed.1
  have htask : task ∈ failedTasks ran.graph :=
    List.mem_filter.mpr ⟨TaskGraph.mem_tasks_of_get hget, decide_eq_true hstatus⟩
  have hstill := @Unrecovered.failedTasks_subset _ services _ _ _ _ (h.unrecovered hrun) _ htask
  rw [h.replanned hfailed]
  exact TaskGraph.hasFailure_iff.mpr
    ⟨_, task, TaskGraph.mem_tasks.mp (List.mem_filter.mp hstill).1, hstatus⟩

end RoundRan

theorem starts_of_round {World : Type} {engine : Engine World} {n m : Nat}
    {run run' : AgentRun World}
    (h : trace engine config n run = run :: trace engine config m run') :
    starts engine config n run = run :: starts engine config m run' := by
  rw [starts, h, List.dropLast_cons_of_ne_nil (trace_ne_nil m run')]
  rfl

theorem starts_of_stop {World : Type} {engine : Engine World} {n : Nat} {run : AgentRun World}
    (h : trace engine config n run = [run]) : starts engine config n run = [] := by
  rw [starts, h]
  rfl

/-- A loop that begins an iteration with a failure recovers from it once more. -/
theorem no_failure_of_recoveredOnce {planned : Nat}
    (hreflection : config.reflectionEnabled = true) :
    ∀ (n : Nat) {run : AgentRun (Context Env)}, AllRecovered run.graph →
      (∀ s ∈ starts (baseEngine services policy config goal) config n run,
        FreshKeys services (afterTasks (baseEngine services policy config goal) s).shared) →
      (∀ s ∈ trace (baseEngine services policy config goal) config n run,
        RecoveredOnce planned s.graph) →
      ∀ s ∈ starts (baseEngine services policy config goal) config n run,
        s.graph.hasFailure = false := by
  intro n
  induction n with
  | zero => exact fun _ _ _ s hs => nomatch hs
  | succ n ih =>
      intro run hrecovered hfresh honce s hs
      rcases trace_cases (n + 1) run with hstop | ⟨m, run', hm, hok, htrace⟩
      · rw [starts_of_stop hstop] at hs
        cases hs
      · cases hm
        have hround := round_ran hok
        rw [starts_of_round htrace, List.forall_mem_cons] at hfresh
        rw [htrace, List.forall_mem_cons] at honce
        rw [starts_of_round htrace, List.mem_cons] at hs
        rcases hs with rfl | hs
        · by_contra hfailed
          exact hround.not_recoveredOnce hfresh.1 hrecovered (Bool.eq_true_of_not_eq_false hfailed)
            hreflection (honce.2 run' (self_mem_trace n run'))
        · exact ih (hround.allRecovered hfresh.1 hreflection) hfresh.2 honce.2 s hs

/-- A loop that begins no iteration with a failure replans at its end at most. -/
theorem recoveredOnce_of_no_failure : ∀ (n : Nat) {run : AgentRun (Context Env)},
    Unrecovered config goal steps run.graph →
      (∀ s ∈ starts (baseEngine services policy config goal) config n run,
        s.graph.hasFailure = false ∨ config.reflectionEnabled = false) →
      ∀ s ∈ trace (baseEngine services policy config goal) config n run,
        RecoveredOnce (decompose config goal steps).tasks.length s.graph := by
  intro n
  induction n with
  | zero =>
      intro run hrun _ s hs
      cases List.mem_singleton.mp hs
      exact hrun.recoveredOnce
  | succ n ih =>
      intro run hrun hnone s hs
      rcases trace_cases (n + 1) run with hstop | ⟨m, run', hm, hok, htrace⟩
      · rw [hstop] at hs
        cases List.mem_singleton.mp hs
        exact hrun.recoveredOnce
      · cases hm
        have hround := round_ran hok
        have hran := hround.unrecovered hrun
        rw [starts_of_round htrace, List.forall_mem_cons] at hnone
        rw [htrace, List.mem_cons] at hs
        rcases hs with rfl | hs
        · exact hrun.recoveredOnce
        · by_cases hfailed : (afterTasks (baseEngine services policy config goal)
              run).graph.hasFailure = true ∧ config.reflectionEnabled = true
          · rcases trace_cases n run' with hstop | ⟨k, run'', hk, -, htrace'⟩
            · rw [hstop, List.mem_singleton] at hs
              subst hs
              rw [hround.replanned hfailed]
              exact hran.recoverAll
            · -- Another iteration begins, now with a failure.
              have hfailure := hround.hasFailure_replanned hrun hfailed
              rw [starts_of_round htrace', List.forall_mem_cons] at hnone
              rcases hnone.2.1 with hno | hno
              · exact absurd (hfailure.symm.trans hno) nofun
              · exact absurd (hfailed.2.symm.trans hno) nofun
          · refine ih ?_ hnone.2 s hs
            rw [hround.otherwise hfailed]
            exact hran

theorem allRecovered_decompose : AllRecovered (decompose config goal steps) := by
  intro task htask hstatus
  exact absurd ((mem_decompose htask).1.symm.trans hstatus) nofun

/-- A run of the loop on a plan: each failure is recovered from once exactly if no iteration begins
with a failure, unless nothing is ever recovered from. -/
theorem recovered_once_iff {n : Nat} (hplan : run.graph = decompose config goal steps)
    (hfresh : ∀ s ∈ starts (baseEngine services policy config goal) config n run,
      FreshKeys services (afterTasks (baseEngine services policy config goal) s).shared) :
    (∀ s ∈ trace (baseEngine services policy config goal) config n run,
        RecoveredOnce (decompose config goal steps).tasks.length s.graph) ↔
      ∀ s ∈ starts (baseEngine services policy config goal) config n run,
        s.graph.hasFailure = false ∨ config.reflectionEnabled = false := by
  constructor
  · intro honce s hs
    cases hreflection : config.reflectionEnabled with
    | false => exact .inr rfl
    | true =>
        exact .inl (no_failure_of_recoveredOnce hreflection n (hplan ▸ allRecovered_decompose)
          hfresh honce s hs)
  · refine recoveredOnce_of_no_failure n ?_
    rw [hplan]
    rfl

end

/-! ## A failure with iterations to go -/

instance (planned : Nat) (graph : TaskGraph) : Decidable (RecoveredOnce planned graph) :=
  decidable_of_iff ((∀ task ∈ graph.tasks, task.status = .failed →
      recoveryCount graph task.key ≤ 1) ∧ graph.tasks.length ≤ planned + (failedTasks graph).length)
    ⟨fun h => ⟨h.1, h.2⟩, fun h => ⟨h.1, h.2⟩⟩

instance {Env : Type} (services : Services Env) (shared : Shared (Context Env)) :
    Decidable (FreshKeys services shared) :=
  decidable_of_iff (((recoveries services shared).map Prod.snd).Nodup ∧
      ∀ pair ∈ recoveries services shared, shared.graph.get pair.2 = none)
    ⟨fun h => ⟨h.1, h.2⟩, fun h => ⟨h.1, h.2⟩⟩

/-- The work task fails in the last iteration that there is, and is recovered from. -/
theorem recovered_once_at_end :
    (∃ s ∈ trace (baseEngine (counting [1, 2, 3]) .default usualConfig videoGoal) usualConfig 2
      plannedRun, s.graph.hasFailure = true) ∧
    ∀ s ∈ trace (baseEngine (counting [1, 2, 3]) .default usualConfig videoGoal) usualConfig 2
      plannedRun, RecoveredOnce (decompose usualConfig videoGoal []).tasks.length s.graph :=
  ⟨by decide +kernel, (recovered_once_iff rfl (by decide +kernel)).mpr (by decide +kernel)⟩

/-- With one iteration more it is recovered from twice. -/
theorem work_recovered_twice : ¬ ∀ (Env : Type) (services : Services Env)
    (policy : AgentPolicy) (config : AgentConfig) (goal : Goal) (steps : List String) (n : Nat)
    (run : AgentRun (Context Env)), run.graph = decompose config goal steps →
    (∀ s ∈ starts (baseEngine services policy config goal) config n run,
      FreshKeys services (afterTasks (baseEngine services policy config goal) s).shared) →
    ∀ s ∈ trace (baseEngine services policy config goal) config n run,
      RecoveredOnce (decompose config goal steps).tasks.length s.graph := by
  intro hrecovered
  have honce := hrecovered Nat (counting [1, 2, 3]) .default usualConfig videoGoal [] 3 plannedRun
    rfl (by decide +kernel)
  exact absurd honce (by decide +kernel)

end YoutubeFactory.AgentCore
