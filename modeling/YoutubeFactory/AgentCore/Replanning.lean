import YoutubeFactory.AgentCore.Completion
import Mathlib.Data.List.Count

/-!
# Rounds with replanning

What `Planner.replan` makes of a graph in closed form (`replan_eq_ok`), and what a round of
`BaseAgent.execute` makes of it: the tasks that are ready are run, and where some task has failed, a
recovery task is added for every failed one, those of earlier rounds included.
-/

namespace YoutubeFactory.AgentCore

open EStateM (Keeps)

section

variable {Env World γ : Type} {services : Services Env} {policy : AgentPolicy}
  {config : AgentConfig} {goal : Goal} {steps : List String}

namespace TaskGraph

variable {graph : TaskGraph} {task : AgentTask} {key : String}

/-! ## Adding a task -/

theorem keys_add (graph : TaskGraph) (task : AgentTask) : (graph.add task).byKey.keys =
    if task.key ∈ graph.byKey.keys then graph.byKey.keys else graph.byKey.keys ++ [task.key] :=
  OrderedMap.keys_setEntry task.key task graph.byKey.entries

theorem get_eq_none_iff : graph.get key = none ↔ key ∉ graph.byKey.keys :=
  OrderedMap.get?_eq_none_iff

/-- The tasks are those that the keys lead to. -/
theorem map_tasks (graph : TaskGraph) : graph.tasks.map some = graph.byKey.keys.map graph.get := by
  unfold tasks OrderedMap.keys
  rw [List.map_map, List.map_map]
  exact List.map_congr_left fun entry hentry => (OrderedMap.get?_of_mem hentry).symm

/-- Two graphs with the same keys read alike where their tasks do. -/
theorem map_tasks_congr {graph' : TaskGraph} {view : AgentTask → γ}
    (hkeys : graph'.byKey.keys = graph.byKey.keys)
    (hget : ∀ key, (graph'.get key).map view = (graph.get key).map view) :
    graph'.tasks.map view = graph.tasks.map view := by
  have hviews : (graph'.tasks.map view).map some = (graph.tasks.map view).map some := by
    have hread : ∀ g : TaskGraph, (g.tasks.map view).map some =
        g.byKey.keys.map fun key => (g.get key).map view := by
      intro g
      have hmap := congrArg (List.map (Option.map view)) g.map_tasks
      rw [List.map_map, List.map_map] at hmap
      rw [List.map_map]
      exact hmap
    rw [hread, hread, hkeys]
    exact List.map_congr_left fun key _ => hget key
  exact List.map_injective_iff.mpr (Option.some_injective _) hviews

theorem mem_tasks_add {added : AgentTask} (h : task ∈ (graph.add added).tasks) :
    task = added ∨ task ∈ graph.tasks := by
  rw [mem_tasks, get_add] at h
  split at h
  · exact .inl (Option.some.inj h).symm
  · exact .inr (mem_tasks.mpr h)

theorem tasks_add_of_new (h : graph.get task.key = none) :
    (graph.add task).tasks = graph.tasks ++ [task] := by
  have hkeys := keys_add graph task
  rw [if_neg (get_eq_none_iff.mp h)] at hkeys
  have hsame : graph.byKey.keys.map (graph.add task).get = graph.byKey.keys.map graph.get := by
    refine List.map_congr_left fun key hkey => get_add_of_ne ?_
    rintro rfl
    exact get_eq_none_iff.mp h hkey
  have hall : (graph.add task).tasks.map some = (graph.tasks ++ [task]).map some := by
    rw [map_tasks, hkeys, List.map_append, List.map_append, hsame, ← map_tasks, List.map_singleton,
      get_add_self]
    rfl
  exact List.map_injective_iff.mpr (Option.some_injective _) hall

theorem countP_add_le (P : AgentTask → Bool) (graph : TaskGraph) (task : AgentTask) :
    (graph.add task).tasks.countP P ≤ graph.tasks.countP P + if P task = true then 1 else 0 :=
  OrderedMap.countP_setEntry_le P task.key task graph.byKey.entries

end TaskGraph

/-! ## Recovery tasks -/

/-- The task recovers from the one of this key. -/
def AgentTask.Recovers (task : AgentTask) (key : String) : Prop :=
  task.payloadGet "recovers" = some key

instance (task : AgentTask) (key : String) : Decidable (task.Recovers key) :=
  inferInstanceAs (Decidable (_ = _))

/-- The keys that the next new tasks get, and the environment after that. -/
def newKeys (services : Services Env) : Nat → Env → List String × Env
  | 0, env => ([], env)
  | n + 1, env =>
      let (m, next) := services.newId env
      let (keys, last) := newKeys services n next
      (hexKey m :: keys, last)

/-- A graph to which the tasks that recover from these are added, under these keys. -/
def recoverAll (graph : TaskGraph) (pairs : List (AgentTask × String)) : TaskGraph :=
  pairs.foldl (fun graph pair => graph.add (recovery graph pair.1 pair.2)) graph

theorem length_newKeys : ∀ (n : Nat) (env : Env), (newKeys services n env).1.length = n
  | 0, _ => rfl
  | n + 1, _ => congrArg Nat.succ (length_newKeys n _)

theorem hex_of_mem_newKeys {key : String} : ∀ {n : Nat} {env : Env},
    key ∈ (newKeys services n env).1 → ∃ m, key = hexKey m
  | n + 1, _, h => by
      rcases List.mem_cons.mp h with rfl | h
      · exact ⟨_, rfl⟩
      · exact hex_of_mem_newKeys h

theorem recoverFrom_run : ∀ (failed : List AgentTask) (graph : TaskGraph) (context : Context Env),
    (recoverFrom services failed graph).run context =
      .ok (recoverAll graph (failed.zip (newKeys services failed.length context.env).1))
        { context with env := (newKeys services failed.length context.env).2 }
  | [], _, _ => rfl
  | task :: failed, graph, context => by
      have hnew : (newKey services).run context = .ok (hexKey (services.newId context.env).1)
          { context with env := (services.newId context.env).2 } := rfl
      rw [recoverFrom, EStateM.run_bind_of_ok hnew, recoverFrom_run failed]
      rfl

/-- The tasks that have failed. -/
def failedTasks (graph : TaskGraph) : List AgentTask :=
  graph.tasks.filter fun task => task.status = .failed

/-- What is recovered from where replanning starts, each with the key of its recovery task. -/
def recoveries (services : Services Env) (shared : Shared (Context Env)) :
    List (AgentTask × String) :=
  (failedTasks shared.graph).zip
    (newKeys services (failedTasks shared.graph).length shared.world.env).1

theorem onWorld_run_of_ok {α : Type} {m : Action World α} {shared : Shared World} {a : α}
    {world : World} (h : m.run shared.world = .ok a world) :
    (onWorld m).run shared = .ok a { shared with world } := by
  show onWorld m shared = _
  unfold onWorld EStateM.zoom
  rw [show m shared.world = .ok a world from h]

theorem replan_run (shared : Shared (Context Env)) :
    ∃ world, (replan services).run shared =
      .ok () ⟨recoverAll shared.graph (recoveries services shared), world⟩ := by
  have hrecover := onWorld_run_of_ok
    (@recoverFrom_run _ services (failedTasks shared.graph) shared.graph shared.world)
  refine ⟨{ shared.world with
    env := (newKeys services (failedTasks shared.graph).length shared.world.env).2 }, ?_⟩
  unfold replan
  rw [EStateM.run_get_bind]
  exact EStateM.run_bind_of_ok hrecover

theorem fst_mem_of_mem_recoveries {shared : Shared (Context Env)} {pair : AgentTask × String}
    (h : pair ∈ recoveries services shared) : pair.1 ∈ failedTasks shared.graph :=
  (List.of_mem_zip h).1

theorem hex_of_mem_recoveries {shared : Shared (Context Env)} {pair : AgentTask × String}
    (h : pair ∈ recoveries services shared) : ∃ m, pair.2 = hexKey m :=
  hex_of_mem_newKeys (List.of_mem_zip h).2

/-- Every failed task is recovered from, in the order of the graph. -/
theorem map_fst_recoveries (shared : Shared (Context Env)) :
    (recoveries services shared).map Prod.fst = failedTasks shared.graph :=
  List.map_fst_zip (by rw [length_newKeys])

/-! ## The tasks of a repaired graph -/

theorem get_recoverAll_of_ne {key : String} : ∀ {pairs : List (AgentTask × String)}
    {graph : TaskGraph}, (∀ pair ∈ pairs, pair.2 ≠ key) →
      (recoverAll graph pairs).get key = graph.get key
  | [], _, _ => rfl
  | pair :: pairs, graph, h => by
      rw [List.forall_mem_cons] at h
      show (recoverAll (graph.add (recovery graph pair.1 pair.2)) pairs).get key = _
      rw [get_recoverAll_of_ne h.2, TaskGraph.get_add_of_ne]
      exact h.1.symm

/-- No task goes away. -/
theorem isSome_recoverAll {key : String} : ∀ {pairs : List (AgentTask × String)}
    {graph : TaskGraph}, (graph.get key).isSome = true →
      ((recoverAll graph pairs).get key).isSome = true
  | [], _, h => h
  | pair :: pairs, graph, h => by
      refine @isSome_recoverAll key pairs (graph.add (recovery graph pair.1 pair.2)) ?_
      rw [TaskGraph.get_add]
      split
      · rfl
      · exact h

/-- A task of the repaired graph was there before, or it recovers from one of the tasks, and depends
on what that depends on and the graph knows. -/
theorem mem_recoverAll {task : AgentTask} : ∀ {pairs : List (AgentTask × String)}
    {graph : TaskGraph}, task ∈ (recoverAll graph pairs).tasks → task ∈ graph.tasks ∨
      ∃ pair ∈ pairs, task.key = pair.2 ∧ task.status = .pending ∧ task.Recovers pair.1.key ∧
        ∀ dep ∈ task.dependsOn, dep ∈ pair.1.dependsOn ∧
          ((recoverAll graph pairs).get dep).isSome = true
  | [], _, h => .inl h
  | pair :: pairs, graph, h => by
      have hadded : task ∈ (graph.add (recovery graph pair.1 pair.2)).tasks ∨ _ :=
        @mem_recoverAll task pairs _ h
      rcases hadded with hadded | ⟨later, hlater, hkey, hstatus, hrecovers, hdeps⟩
      · rcases TaskGraph.mem_tasks_add hadded with rfl | hold
        · refine .inr ⟨pair, List.mem_cons_self, rfl, rfl, rfl, fun dep hdep => ?_⟩
          rw [recovery, AgentTask.planned, List.mem_filter] at hdep
          refine ⟨hdep.1, ?_⟩
          refine @isSome_recoverAll dep pairs (graph.add (recovery graph pair.1 pair.2)) ?_
          rw [TaskGraph.get_add]
          split
          · rfl
          · exact hdep.2
        · exact .inl hold
      · exact .inr ⟨later, List.mem_cons_of_mem _ hlater, hkey, hstatus, hrecovers, hdeps⟩

/-! ## A round -/

/-- The run once the tasks that are ready have been run, where the round goes on to replan. -/
def afterTasks (engine : Engine World) (run : AgentRun World) : AgentRun World :=
  ((run.graph.ready.forM fun task => awaited engine (engine.execute task)).run run).state

theorem runTask_view {view : AgentTask → γ} (hview : Unwritten view) (task : AgentTask) :
    Keeps (fun shared => shared.graph.tasks.map view)
      (runTask services policy config goal task) := by
  intro shared
  show (runTask services policy config goal task shared).state.graph.tasks.map view = _
  unfold runTask
  cases hget : shared.graph.get task.key with
  | none => rfl
  | some before =>
      have hwritten : ∀ {after : AgentTask}, after.key = before.key → view after = view before →
          (shared.graph.add after).tasks.map view = shared.graph.tasks.map view := by
        intro after hkey hsame
        have hbefore : shared.graph.get after.key = some before := by
          rw [hkey, TaskGraph.key_of_get hget, hget]
        refine TaskGraph.map_tasks_congr ?_ fun key => ?_
        · rw [TaskGraph.keys_add, if_pos]
          by_contra hnot
          rw [TaskGraph.get_eq_none_iff.mpr hnot] at hbefore
          cases hbefore
        · rw [TaskGraph.get_add]
          split
          · next heq => rw [heq, hbefore, Option.map_some, Option.map_some, hsame]
          · rfl
      have hgiven := @executeTask_given _ services policy config goal (before, shared.world)
      have hsame := @executeTask_view _ services policy config goal _ view hview
        (before, shared.world)
      dsimp only
      cases hrun : executeTask services policy config goal (before, shared.world) with
      | ok u s =>
          rw [show (executeTask services policy config goal).run (before, shared.world) = _
            from hrun] at hgiven hsame
          exact hwritten (congrArg Prod.fst hgiven) hsame
      | error e s =>
          rw [show (executeTask services policy config goal).run (before, shared.world) = _
            from hrun] at hgiven hsame
          exact hwritten (congrArg Prod.fst hgiven) hsame

/-- A round: the tasks that are ready have been run, and if some task has failed, all failed ones
are recovered from. -/
structure RoundRan (services : Services Env) (config : AgentConfig)
    (run ran run' : AgentRun (Context Env)) : Prop where
  tasks : Ran (run.graph.ready.map AgentTask.key) run.graph ran.graph
  unwritten : ∀ {γ : Type} {view : AgentTask → γ}, Unwritten view →
    ran.graph.tasks.map view = run.graph.tasks.map view
  replanned : ran.graph.hasFailure = true ∧ config.reflectionEnabled = true →
    run'.graph = recoverAll ran.graph (recoveries services ran.shared)
  otherwise : ¬ (ran.graph.hasFailure = true ∧ config.reflectionEnabled = true) →
    run'.graph = ran.graph

theorem round_ran {run run' : AgentRun (Context Env)}
    (h : (round (baseEngine services policy config goal) config).run run = .ok () run') :
    RoundRan services config run (afterTasks (baseEngine services policy config goal) run)
      run' := by
  obtain ⟨u, run₁, htasks, hreplan⟩ := EStateM.run_bind_eq_ok (EStateM.get_bind_eq_ok h)
  change (run.graph.ready.forM fun task => awaited (baseEngine services policy config goal)
    ((baseEngine services policy config goal).execute task)).run run = _ at htasks
  have hafter : afterTasks (baseEngine services policy config goal) run = run₁ := by
    rw [afterTasks, htasks]
    rfl
  rw [hafter]
  rw [EStateM.run_get_bind] at hreplan
  refine ⟨forM_ran _ htasks, fun {γ view} hview => ?_, fun hfailed => ?_, fun hnot => ?_⟩
  · have hkeeps : Keeps (fun run : AgentRun (Context Env) => run.graph.tasks.map view)
        (run.graph.ready.forM fun task => awaited (baseEngine services policy config goal)
          ((baseEngine services policy config goal).execute task)) :=
      Keeps.forM (fun task => @awaited_graphView _ _ _ _ (fun graph => graph.tasks.map view) _
        (runTask_view hview task)) _
    have hrun := hkeeps run
    rwa [htasks] at hrun
  · change run₁.shared.graph.hasFailure = true ∧ _ at hfailed
    rw [if_pos hfailed] at hreplan
    obtain ⟨shared, hreplanned, hgraph⟩ := awaited_eq_ok hreplan
    obtain ⟨world, hrun⟩ := @replan_run _ services run₁.shared
    cases hreplanned.symm.trans hrun
    exact hgraph
  · change ¬ (run₁.shared.graph.hasFailure = true ∧ _) at hnot
    rw [if_neg hnot] at hreplan
    cases hreplan
    rfl

/-! ## The states between the rounds -/

/-- The states in which the iterations of the loop begin, and the last one it reaches between
them. -/
def trace (engine : Engine World) (config : AgentConfig) :
    Nat → AgentRun World → List (AgentRun World)
  | 0, run => [run]
  | n + 1, run =>
      if run.shared.graph.isComplete = true ∨ run.cancelled = true then [run]
      else if run.paused = true then [run]
      else if run.shared.graph.ready = [] then [run]
      else match (round engine config).run run with
        | .ok () run' => run :: trace engine config n run'
        | .error _ _ => [run]

/-- The states in which iterations begin that get to their end. -/
def starts (engine : Engine World) (config : AgentConfig) (n : Nat) (run : AgentRun World) :
    List (AgentRun World) := (trace engine config n run).dropLast

variable {engine : Engine World}

theorem trace_ne_nil : ∀ (n : Nat) (run : AgentRun World), trace engine config n run ≠ []
  | 0, _ => List.cons_ne_nil _ _
  | n + 1, run => by
      rw [trace]
      split
      · exact List.cons_ne_nil _ _
      · split
        · exact List.cons_ne_nil _ _
        · split
          · exact List.cons_ne_nil _ _
          · split <;> exact List.cons_ne_nil _ _

/-- Either the loop is left, or a round is run. -/
theorem trace_cases (n : Nat) (run : AgentRun World) : trace engine config n run = [run] ∨
    ∃ m run', n = m + 1 ∧ (round engine config).run run = .ok () run' ∧
      trace engine config n run = run :: trace engine config m run' := by
  cases n with
  | zero => exact .inl rfl
  | succ n =>
      rw [trace]
      split
      · exact .inl rfl
      · split
        · exact .inl rfl
        · split
          · exact .inl rfl
          · cases hround : (round engine config).run run with
            | ok u run' => exact .inr ⟨n, run', rfl, rfl, rfl⟩
            | error e run' => exact .inl rfl

theorem self_mem_trace (n : Nat) (run : AgentRun World) : run ∈ trace engine config n run := by
  rcases trace_cases n run with hstop | ⟨m, run', -, -, htrace⟩
  · rw [hstop]
    exact List.mem_singleton_self _
  · rw [htrace]
    exact List.mem_cons_self

/-- What every round preserves holds between the rounds. -/
theorem trace_invariant {inv : AgentRun World → Prop}
    (hround : ∀ run run', (round engine config).run run = .ok () run' → inv run → inv run') :
    ∀ (n : Nat) {run : AgentRun World}, inv run → ∀ s ∈ trace engine config n run, inv s := by
  intro n
  induction n with
  | zero =>
      intro run hrun s hs
      exact List.mem_singleton.mp hs ▸ hrun
  | succ n ih =>
      intro run hrun s hs
      rcases trace_cases (n + 1) run with hstop | ⟨m, run', hm, hok, htrace⟩
      · rw [hstop] at hs
        exact List.mem_singleton.mp hs ▸ hrun
      · cases hm
        rw [htrace] at hs
        rcases List.mem_cons.mp hs with rfl | hs
        · exact hrun
        · exact ih (hround _ _ hok hrun) s hs

/-- The last of the states between the rounds. -/
def lastState (engine : Engine World) (config : AgentConfig) (n : Nat) (run : AgentRun World) :
    AgentRun World := (trace engine config n run).getLast (trace_ne_nil n run)

theorem lastState_of_stop {n : Nat} {run : AgentRun World}
    (h : trace engine config n run = [run]) : lastState engine config n run = run := by
  unfold lastState
  simp only [h, List.getLast_singleton]

theorem lastState_of_round {n m : Nat} {run run' : AgentRun World}
    (h : trace engine config n run = run :: trace engine config m run') :
    lastState engine config n run = lastState engine config m run' := by
  unfold lastState
  simp only [h, List.getLast_cons (trace_ne_nil m run')]

theorem lastState_mem (n : Nat) (run : AgentRun World) :
    lastState engine config n run ∈ trace engine config n run := List.getLast_mem _

theorem mem_trace_of_mem_starts {n : Nat} {run s : AgentRun World}
    (h : s ∈ starts engine config n run) : s ∈ trace engine config n run :=
  List.mem_of_mem_dropLast h

/-- Each state of the trace leads to the last one. -/
theorem trace_leads {leads : AgentRun World → AgentRun World → Prop} (hrefl : ∀ s, leads s s)
    (hround : ∀ s s' t, (round engine config).run s = .ok () s' → leads s' t → leads s t) :
    ∀ (n : Nat) (run : AgentRun World), ∀ s ∈ trace engine config n run,
      leads s (lastState engine config n run) := by
  intro n
  induction n with
  | zero =>
      intro run s hs
      cases List.mem_singleton.mp hs
      exact hrefl run
  | succ n ih =>
      intro run s hs
      rcases trace_cases (n + 1) run with hstop | ⟨m, run', hm, hok, htrace⟩
      · rw [lastState_of_stop hstop]
        rw [hstop] at hs
        exact List.mem_singleton.mp hs ▸ hrefl run
      · cases hm
        rw [lastState_of_round htrace]
        rw [htrace] at hs
        rcases List.mem_cons.mp hs with rfl | hs
        · exact hround s run' _ hok (ih run' run' (self_mem_trace n run'))
        · exact ih run' s hs

/-- Where the loop returns, it leaves the graph of the last state. -/
theorem iterate_graph : ∀ {n : Nat} {run last : AgentRun World},
    (iterate engine config n).run run = .ok () last →
      last.graph = (lastState engine config n run).graph
  | 0, run, last, h => by
      cases h
      rfl
  | n + 1, run, last, h => by
      unfold iterate at h
      rw [EStateM.run_get_bind] at h
      split at h
      · next hstop =>
          cases h
          rw [lastState_of_stop (by rw [trace, if_pos hstop])]
      · next hstop =>
          split at h
          · next hpaused =>
              cases h
              rw [lastState_of_stop (by rw [trace, if_neg hstop, if_pos hpaused])]
              rfl
          · next hpaused =>
              split at h
              · next hready =>
                  cases h
                  rw [lastState_of_stop (by
                    rw [trace, if_neg hstop, if_neg hpaused, if_pos hready])]
              · next hready =>
                  obtain ⟨u, run', hround, hrest⟩ := EStateM.run_bind_eq_ok h
                  have htrace : trace engine config (n + 1) run =
                      run :: trace engine config n run' := by
                    rw [trace, if_neg hstop, if_neg hpaused, if_neg hready, hround]
                  rw [lastState_of_round htrace]
                  exact iterate_graph hrest

/-- The run as it enters its loop. -/
theorem execute_graph {run last : AgentRun World}
    (h : (execute engine config).run run = .ok () last) :
    last.graph =
      (lastState engine config config.maxIterations.toNat (run.move .executing)).graph := by
  obtain ⟨u, run', htransition, hloop⟩ := EStateM.run_bind_eq_ok h
  have htransition := EStateM.get_bind_eq_ok htransition
  split at htransition
  · cases htransition
    exact iterate_graph hloop
  · cases htransition

end

end YoutubeFactory.AgentCore
