import YoutubeFactory.Lib.Rounds
import YoutubeFactory.AgentCore.Agent
import YoutubeFactory.AgentCore.Lifecycle

/-!
# Completed goals

A plan has three ranks, and the loop takes a round for each while no task fails.  A goal is
`COMPLETED` as soon as no task has failed or some task has succeeded, so that its plan is complete
only if nothing has failed and there were three iterations to go.
-/

namespace YoutubeFactory.AgentCore

open Rounds (Progress Ranking)
open EStateM (Keeps)

section

variable {Env World α : Type} {services : Services Env} {policy : AgentPolicy}
  {config : AgentConfig} {goal : Goal} {steps : List String} {n : Nat}

/-! ## The ranks of a plan -/

def planRank (workKeys : List String) (key : String) : Option Nat :=
  if key = understandKey then some 0
  else if key ∈ workKeys then some 1
  else if key = synthesizeKey then some 2
  else none

def planNeeds (workKeys : List String) (key : String) : List String :=
  if key = understandKey then []
  else if key ∈ workKeys then [understandKey]
  else workKeys

theorem planRank_understand (workKeys : List String) :
    planRank workKeys understandKey = some 0 := if_pos rfl

theorem planRank_work {key : String} (h : key ∈ workKeys config goal steps) :
    planRank (workKeys config goal steps) key = some 1 := by
  rw [planRank, if_neg, if_pos h]
  rintro rfl
  exact understandKey_notMem_workKeys steps h

theorem planRank_synthesize :
    planRank (workKeys config goal steps) synthesizeKey = some 2 := by
  rw [planRank, if_neg (by decide), if_neg (synthesizeKey_notMem_workKeys steps), if_pos rfl]

/-- The three kinds of planned keys. -/
theorem planRank_cases {workKeys : List String} {key : String} {r : Nat}
    (h : planRank workKeys key = some r) :
    key = understandKey ∧ r = 0 ∨ key ∈ workKeys ∧ r = 1 ∨ key = synthesizeKey ∧ r = 2 := by
  unfold planRank at h
  split at h
  · next hkey =>
      cases h
      exact .inl ⟨hkey, rfl⟩
  · split at h
    · next hkey =>
        cases h
        exact .inr (.inl ⟨hkey, rfl⟩)
    · split at h
      · next hkey =>
          cases h
          exact .inr (.inr ⟨hkey, rfl⟩)
      · cases h

theorem planRank_hexKey (m : Fin (16 ^ 8)) :
    planRank (workKeys config goal steps) (hexKey m) = none := by
  obtain ⟨hw, hu, hs⟩ := head_hexKey m
  cases hrank : planRank (workKeys config goal steps) (hexKey m) with
  | none => rfl
  | some r =>
      rcases planRank_cases hrank with ⟨hkey, -⟩ | ⟨hkey, -⟩ | ⟨hkey, -⟩
      · rw [hkey] at hu
        exact absurd (by decide) hu
      · obtain ⟨index, heq⟩ := mem_workKeys hkey
        rw [heq] at hw
        exact absurd (head_workKey index) hw
      · rw [hkey] at hs
        exact absurd (by decide) hs

theorem planNeeds_work {key : String} (h : key ∈ workKeys config goal steps) :
    planNeeds (workKeys config goal steps) key = [understandKey] := by
  rw [planNeeds, if_neg, if_pos h]
  rintro rfl
  exact understandKey_notMem_workKeys steps h

theorem planNeeds_synthesize :
    planNeeds (workKeys config goal steps) synthesizeKey = workKeys config goal steps := by
  rw [planNeeds, if_neg (by decide), if_neg (synthesizeKey_notMem_workKeys steps)]

/-- First the goal is understood, then the work is done, then the result is synthesized. -/
def planRanking (config : AgentConfig) (goal : Goal) (steps : List String) : Ranking String where
  rank := planRank (workKeys config goal steps)
  needs := planNeeds (workKeys config goal steps)
  below key r hrank l hl := by
    rcases planRank_cases hrank with ⟨rfl, rfl⟩ | ⟨hkey, rfl⟩ | ⟨rfl, rfl⟩
    · rw [planNeeds, if_pos rfl] at hl
      cases hl
    · rw [planNeeds_work hkey, List.mem_singleton] at hl
      exact ⟨0, Nat.one_pos, hl ▸ planRank_understand _⟩
    · rw [planNeeds_synthesize] at hl
      exact ⟨1, Nat.lt_succ_self 1, planRank_work hl⟩
  next key r hrank := by
    rcases planRank_cases hrank with ⟨rfl, hr⟩ | ⟨hkey, hr⟩ | ⟨rfl, hr⟩
    · cases hr
    · cases hr
      exact ⟨understandKey, by rw [planNeeds_work hkey]; exact List.mem_singleton.mpr rfl,
        planRank_understand _⟩
    · cases hr
      obtain ⟨key, rest, hcons⟩ := List.exists_cons_of_ne_nil (workKeys_ne_nil steps)
      have hmem : key ∈ workKeys config goal steps := hcons ▸ List.mem_cons_self ..
      exact ⟨key, by rw [planNeeds_synthesize]; exact hmem, planRank_work hmem⟩

/-! ## How far a graph has come -/

def progressOf : TaskStatus → Progress
  | .succeeded => .done
  | .failed => .failed
  | _ => .waiting

def progress (graph : TaskGraph) (key : String) : Progress :=
  (graph.get key).elim .waiting fun task => progressOf task.status

theorem progress_of_get {graph : TaskGraph} {key : String} {task : AgentTask}
    (h : graph.get key = some task) : progress graph key = progressOf task.status := by
  rw [progress, h, Option.elim_some]

theorem progress_eq_done_iff {graph : TaskGraph} {key : String} :
    progress graph key = .done ↔
      ∃ task, graph.get key = some task ∧ task.status = .succeeded := by
  constructor
  · intro h
    cases hget : graph.get key with
    | none =>
        rw [progress, hget] at h
        cases h
    | some task =>
        refine ⟨task, rfl, ?_⟩
        rw [progress_of_get hget] at h
        cases hstatus : task.status <;> rw [hstatus] at h <;> cases h
  · rintro ⟨task, hget, hstatus⟩
    rw [progress_of_get hget, hstatus]
    rfl

/-- Some task of the plan has failed. -/
def PlanFailed (config : AgentConfig) (goal : Goal) (steps : List String) (graph : TaskGraph) :
    Prop := Rounds.Failed (planRanking config goal steps) (progress graph)

/-- A graph with the tasks of a plan, after so many rounds. -/
structure InPlan (config : AgentConfig) (goal : Goal) (steps : List String) (n : Nat)
    (graph : TaskGraph) : Prop where
  planned : ∀ key r, (planRanking config goal steps).rank key = some r →
    ∃ task, graph.get key = some task ∧
      task.dependsOn = (planRanking config goal steps).needs key ∧
      (task.status = .pending ∨ task.Ended)
  after : Rounds.After (planRanking config goal steps) n (progress graph)
  extra : ∀ key task, graph.get key = some task →
    (planRanking config goal steps).rank key = none → PlanFailed config goal steps graph

theorem inPlan_decompose : InPlan config goal steps 0 (decompose config goal steps) := by
  have hpending : ∀ key r, (planRanking config goal steps).rank key = some r →
      ∃ task, (decompose config goal steps).get key = some task ∧
        task.dependsOn = (planRanking config goal steps).needs key ∧ task.status = .pending := by
    intro key r hrank
    rcases planRank_cases hrank with ⟨rfl, -⟩ | ⟨hkey, -⟩ | ⟨rfl, -⟩
    · exact get_decompose_understand steps
    · obtain ⟨task, hget, hdeps, hstatus⟩ := get_decompose_work hkey
      exact ⟨task, hget, hdeps.trans (planNeeds_work hkey).symm, hstatus⟩
    · obtain ⟨task, hget, hdeps, hstatus⟩ := @get_decompose_synthesize config goal steps
      exact ⟨task, hget, hdeps.trans planNeeds_synthesize.symm, hstatus⟩
  refine ⟨fun key r hrank => ?_, Rounds.After.start fun key r hrank => ?_,
    fun key task hget hrank => ?_⟩
  · obtain ⟨task, hget, hdeps, hstatus⟩ := hpending key r hrank
    exact ⟨task, hget, hdeps, .inl hstatus⟩
  · obtain ⟨task, hget, -, hstatus⟩ := hpending key r hrank
    rw [progress_of_get hget, hstatus]
    rfl
  · change planRank _ key = none at hrank
    rw [get_decompose_other] at hget
    · cases hget
    · rintro rfl
      rw [planRank_understand] at hrank
      cases hrank
    · intro hkey
      rw [planRank_work hkey] at hrank
      cases hrank
    · rintro rfl
      rw [planRank_synthesize] at hrank
      cases hrank

namespace InPlan

variable {graph graph' : TaskGraph} {key : String} {r : Nat}

/-- The planned tasks that are ready are those that wait for nothing. -/
theorem ready_iff (h : InPlan config goal steps n graph)
    (hrank : (planRanking config goal steps).rank key = some r) :
    Rounds.Ready (planRanking config goal steps) (progress graph) key ↔
      key ∈ graph.ready.map AgentTask.key := by
  obtain ⟨task, hget, hdeps, hstatus⟩ := h.planned key r hrank
  have hdone : graph.depsSucceeded task = true ↔
      ∀ l ∈ (planRanking config goal steps).needs key, progress graph l = .done := by
    rw [TaskGraph.depsSucceeded_iff, hdeps]
    exact forall₂_congr fun l _ => progress_eq_done_iff.symm
  have hmem : key ∈ graph.ready.map AgentTask.key ↔
      task.status = .pending ∧ graph.depsSucceeded task = true := by
    rw [List.mem_map]
    constructor
    · rintro ⟨task', hready, rfl⟩
      obtain ⟨htasks, hpending, hdeps'⟩ := TaskGraph.mem_ready.mp hready
      rw [TaskGraph.mem_tasks.mp htasks] at hget
      cases hget
      exact ⟨hpending, hdeps'⟩
    · rintro ⟨hpending, hdeps'⟩
      exact ⟨task, TaskGraph.mem_ready.mpr ⟨TaskGraph.mem_tasks_of_get hget, hpending, hdeps'⟩,
        TaskGraph.key_of_get hget⟩
  rw [hmem, hdone, Rounds.Ready, progress_of_get hget]
  refine and_congr_left fun _ => ⟨fun hwaiting => ?_, fun hpending => by rw [hpending]; rfl⟩
  rcases hstatus with hpending | hsucceeded | hfailed
  · exact hpending
  · rw [hsucceeded] at hwaiting
    cases hwaiting
  · rw [hfailed] at hwaiting
    cases hwaiting

/-- Running the tasks that are ready is a round of the plan. -/
theorem round_of_ran (h : InPlan config goal steps n graph)
    (hran : Ran (graph.ready.map AgentTask.key) graph graph') :
    Rounds.Round (planRanking config goal steps) (progress graph) (progress graph') where
  ends key r hrank hready := by
    obtain ⟨task, hget, -⟩ := h.planned key r hrank
    obtain ⟨task', hget', -, hends, -⟩ := hran.kept key task hget
    rw [progress_of_get hget']
    rcases hends ((h.ready_iff hrank).mp hready) with hstatus | hstatus
    · rw [hstatus]
      exact nofun
    · rw [hstatus]
      exact nofun
  stays key r hrank hready := by
    obtain ⟨task, hget, -⟩ := h.planned key r hrank
    obtain ⟨task', hget', -, -, hstays⟩ := hran.kept key task hget
    rw [progress_of_get hget', progress_of_get hget,
      hstays fun hmem => hready ((h.ready_iff hrank).mpr hmem)]

theorem ran (h : InPlan config goal steps n graph)
    (hran : Ran (graph.ready.map AgentTask.key) graph graph') :
    InPlan config goal steps (n + 1) graph' where
  planned key r hrank := by
    obtain ⟨task, hget, hdeps, hstatus⟩ := h.planned key r hrank
    obtain ⟨task', hget', hdeps', hends, hstays⟩ := hran.kept key task hget
    refine ⟨task', hget', hdeps'.trans hdeps, ?_⟩
    by_cases hkey : key ∈ graph.ready.map AgentTask.key
    · exact .inr (hends hkey)
    · unfold AgentTask.Ended
      rw [hstays hkey]
      exact hstatus
  after := h.after.round (h.round_of_ran hran)
  extra key task' hget' hrank := by
    cases hget : graph.get key with
    | none =>
        rw [hran.fresh key hget] at hget'
        cases hget'
    | some task => exact (h.extra key task hget hrank).round (h.round_of_ran hran)

/-- A failure is one of the plan, or there is one of the plan. -/
theorem failed_iff (h : InPlan config goal steps n graph) :
    PlanFailed config goal steps graph ↔ graph.hasFailure = true := by
  rw [TaskGraph.hasFailure_iff]
  constructor
  · rintro ⟨key, r, hrank, hfailed⟩
    obtain ⟨task, hget, -, hstatus⟩ := h.planned key r hrank
    rw [progress_of_get hget] at hfailed
    refine ⟨key, task, hget, ?_⟩
    rcases hstatus with hpending | hsucceeded | hfail
    · rw [hpending] at hfailed
      cases hfailed
    · rw [hsucceeded] at hfailed
      cases hfailed
    · exact hfail
  · rintro ⟨key, task, hget, hstatus⟩
    cases hrank : (planRanking config goal steps).rank key with
    | none => exact h.extra key task hget hrank
    | some r => exact ⟨key, r, hrank, by rw [progress_of_get hget, hstatus]; rfl⟩

/-- Replanning after a failure. -/
theorem replanned (h : InPlan config goal steps n graph) (hfailure : graph.hasFailure = true)
    (hsame : ∀ key, (∀ m, key ≠ hexKey m) → graph'.get key = graph.get key) :
    InPlan config goal steps n graph' := by
  have hget : ∀ key r, (planRanking config goal steps).rank key = some r →
      graph'.get key = graph.get key := by
    refine fun key r hrank => hsame key fun m heq => ?_
    rw [heq] at hrank
    exact absurd (hrank.symm.trans (planRank_hexKey m)) nofun
  have hprogress : ∀ key r, (planRanking config goal steps).rank key = some r →
      progress graph' key = progress graph key := fun key r hrank => by
    rw [progress, hget key r hrank, progress]
  refine ⟨fun key r hrank => ?_, h.after.congr hprogress, fun key task hget' hrank => ?_⟩
  · rw [hget key r hrank]
    exact h.planned key r hrank
  · exact (h.failed_iff.mpr hfailure).congr hprogress

/-! ## The end of the loop -/

theorem isComplete_iff : graph.isComplete = true ↔ ∀ task ∈ graph.tasks,
    task.status ≠ .pending ∧ task.status ≠ .ready ∧ task.status ≠ .running := by
  simp only [TaskGraph.isComplete, List.all_eq_true, decide_eq_true_eq]

/-- While nothing fails there is a task to run, until the ranks are through. -/
theorem three_le (h : InPlan config goal steps n graph) (hfailure : graph.hasFailure = false)
    {budget : Nat} (hbudget : 3 ≤ budget)
    (hleft : graph.isComplete = true ∨ n = budget ∨ graph.ready = []) : 3 ≤ n := by
  have hfailed : ¬ PlanFailed config goal steps graph := fun hplan => by
    rw [h.failed_iff, hfailure] at hplan
    cases hplan
  by_contra hlt
  -- a planned task of the rank that is next
  obtain ⟨key, hrank⟩ : ∃ key, (planRanking config goal steps).rank key = some n := by
    obtain ⟨work, rest, hcons⟩ := List.exists_cons_of_ne_nil (@workKeys_ne_nil config goal steps)
    have hwork : work ∈ workKeys config goal steps := hcons ▸ List.mem_cons_self ..
    obtain rfl | rfl | rfl : n = 0 ∨ n = 1 ∨ n = 2 := by omega
    · exact ⟨understandKey, planRank_understand (workKeys config goal steps)⟩
    · exact ⟨work, planRank_work hwork⟩
    · exact ⟨synthesizeKey, planRank_synthesize⟩
  have hready := (h.ready_iff hrank).mp ((h.after.ready_iff hfailed hrank).mpr rfl)
  obtain ⟨task, htask, -⟩ := List.mem_map.mp hready
  rcases hleft with hcomplete | hspent | hblocked
  · obtain ⟨htasks, hpending, -⟩ := TaskGraph.mem_ready.mp htask
    exact (isComplete_iff.mp hcomplete task htasks).1 hpending
  · omega
  · rw [hblocked] at htask
    cases htask

/-- All that is planned is reached from the last task. -/
theorem reaches_of_rank (hrank : (planRanking config goal steps).rank key = some r) :
    Relation.ReflTransGen (fun k l => l ∈ (planRanking config goal steps).needs k)
      synthesizeKey key := by
  have hwork : ∀ key ∈ workKeys config goal steps,
      Relation.ReflTransGen (fun k l => l ∈ (planRanking config goal steps).needs k)
        synthesizeKey key := fun key hkey => .single (by
    show key ∈ planNeeds _ synthesizeKey
    rw [planNeeds_synthesize]
    exact hkey)
  rcases planRank_cases hrank with ⟨rfl, -⟩ | ⟨hkey, -⟩ | ⟨rfl, -⟩
  · obtain ⟨work, rest, hcons⟩ := List.exists_cons_of_ne_nil (@workKeys_ne_nil config goal steps)
    have hmem : work ∈ workKeys config goal steps := hcons ▸ List.mem_cons_self ..
    refine (hwork work hmem).tail ?_
    show understandKey ∈ planNeeds _ work
    rw [planNeeds_work hmem]
    exact List.mem_singleton.mpr rfl
  · exact hwork key hkey
  · exact .refl

/-- Where the loop has been left, the plan is complete exactly if nothing has failed and there were
rounds enough. -/
theorem complete_iff (h : InPlan config goal steps n graph) {budget : Nat} (hle : n ≤ budget)
    (hleft : graph.isComplete = true ∨ n = budget ∨ graph.ready = []) :
    (graph.isComplete = true ∧
      ∃ task, graph.get synthesizeKey = some task ∧ task.status = .succeeded) ↔
    graph.hasFailure = false ∧ 3 ≤ budget := by
  have hfailed : graph.hasFailure = false ↔ ¬ PlanFailed config goal steps graph := by
    rw [h.failed_iff, Bool.not_eq_true]
  have hlast : (planRanking config goal steps).rank synthesizeKey = some 2 := planRank_synthesize
  constructor
  · rintro ⟨-, hsynthesize⟩
    have hdone := progress_eq_done_iff.mpr hsynthesize
    have hnot : ¬ PlanFailed config goal steps graph := by
      rintro ⟨key, r, hrank, hfail⟩
      rw [h.after.done_of_reaches hlast hdone (reaches_of_rank hrank)] at hfail
      cases hfail
    have hrounds := (h.after.done_iff hnot hlast).mp hdone
    exact ⟨hfailed.mpr hnot, by omega⟩
  · rintro ⟨hfailure, hbudget⟩
    have hnot := hfailed.mp hfailure
    have hthree := h.three_le hfailure hbudget hleft
    have hdone : ∀ key r, (planRanking config goal steps).rank key = some r →
        progress graph key = .done := by
      refine fun key r hrank => (h.after.done_iff hnot hrank).mpr ?_
      rcases planRank_cases hrank with ⟨-, rfl⟩ | ⟨-, rfl⟩ | ⟨-, rfl⟩ <;> omega
    refine ⟨isComplete_iff.mpr fun task htask => ?_,
      progress_eq_done_iff.mp (hdone _ _ hlast)⟩
    have hget := TaskGraph.mem_tasks.mp htask
    cases hrank : (planRanking config goal steps).rank task.key with
    | none => exact absurd (h.extra _ task hget hrank) hnot
    | some r =>
        obtain ⟨task', hget', hstatus⟩ := progress_eq_done_iff.mp (hdone _ r hrank)
        rw [hget] at hget'
        cases hget'
        rw [hstatus]
        exact ⟨nofun, nofun, nofun⟩

end InPlan

/-! ## What the components leave of the graph -/

def AgentRun.graph (run : AgentRun World) : TaskGraph := run.shared.graph

theorem onWorld_graph (m : Action World α) : Keeps Shared.graph (onWorld m) := by
  refine Keeps.zoom ?_ m
  exact fun _ _ => rfl

theorem withGraph_graph (m : TaskGraph → Action (Context Env) α) :
    Keeps Shared.graph (withGraph m) := Keeps.get_bind fun shared => onWorld_graph _ shared

/-- A call that is awaited: what it has done to the graph, and what it has returned. -/
theorem awaited_eq_ok {engine : Engine World} {hook : Hook World α} {run run' : AgentRun World}
    {a : α} (h : (awaited engine hook).run run = .ok a run') :
    ∃ shared, hook run.shared = .ok a shared ∧ run'.graph = shared.graph := by
  change awaited engine hook run = _ at h
  unfold awaited call EStateM.zoom at h
  cases hrun : hook run.shared with
  | ok b shared =>
      rw [hrun] at h
      cases h
      obtain ⟨paused, cancelled, heq⟩ := receive_eq engine { run with shared }
      refine ⟨shared, rfl, ?_⟩
      rw [heq]
      rfl
  | error e shared =>
      rw [hrun] at h
      cases h

theorem call_graphView {δ : Type} {view : TaskGraph → δ} {hook : Hook World α}
    (h : Keeps (fun shared => view shared.graph) hook) :
    Keeps (fun run => view run.graph) (call hook) := by
  refine Keeps.part ?_ h
  exact fun _ _ => rfl

/-- Requests that arrive leave the graph. -/
theorem awaited_graphView {engine : Engine World} {δ : Type} {view : TaskGraph → δ}
    {hook : Hook World α} (h : Keeps (fun shared => view shared.graph) hook) :
    Keeps (fun run => view run.graph) (awaited engine hook) := by
  intro run
  rw [awaited_state]
  obtain ⟨paused, cancelled, heq⟩ := receive_eq engine ((call hook).run run).state
  rw [heq]
  exact call_graphView h run

theorem call_graph {hook : Hook World α} (h : Keeps Shared.graph hook) :
    Keeps AgentRun.graph (call hook) := @call_graphView _ _ _ id _ h

theorem awaited_graph {engine : Engine World} {hook : Hook World α}
    (h : Keeps Shared.graph hook) : Keeps AgentRun.graph (awaited engine hook) :=
  @awaited_graphView _ _ _ _ id _ h

/-- The components that come after the loop leave the graph. -/
theorem reflect_graph : Keeps Shared.graph (baseEngine services policy config goal).reflect :=
  withGraph_graph (reflectOn services policy config goal)

theorem remember_graph (summary : String) :
    Keeps Shared.graph ((baseEngine services policy config goal).remember summary) :=
  onWorld_graph (remember "agent" "last_reflection" summary)

theorem evaluate_graph : Keeps Shared.graph (baseEngine services policy config goal).evaluate :=
  withGraph_graph fun graph => onEnv (services.evaluate graph)

theorem finalOutput_graph :
    Keeps Shared.graph (baseEngine services policy config goal).finalOutput :=
  withGraph_graph fun graph => onEnv (services.finalOutput graph)

theorem publish_graph (event : AgentEvent) :
    Keeps Shared.graph ((baseEngine services policy config goal).publish event) :=
  onWorld_graph (onEnv (services.publish event))

theorem forM_ran : ∀ (tasks : List AgentTask) {run run' : AgentRun (Context Env)},
    (tasks.forM fun task => awaited (baseEngine services policy config goal)
      ((baseEngine services policy config goal).execute task)).run run = .ok () run' →
    Ran (tasks.map AgentTask.key) run.graph run'.graph
  | [], run, run', h => by
      cases h
      exact .refl _
  | task :: tasks, run, run', h => by
      obtain ⟨u, run₁, hfirst, hrest⟩ := EStateM.run_bind_eq_ok h
      obtain ⟨shared, htask, hgraph⟩ := awaited_eq_ok hfirst
      have hone := runTask_ran htask
      rw [← hgraph] at hone
      exact hone.trans (forM_ran tasks hrest)

/-- A round of the loop is a round of the plan. -/
theorem round_inPlan {run run' : AgentRun (Context Env)}
    (hplan : InPlan config goal steps n run.graph)
    (h : (round (baseEngine services policy config goal) config).run run = .ok () run') :
    InPlan config goal steps (n + 1) run'.graph := by
  obtain ⟨u, run₁, htasks, hreplan⟩ := EStateM.run_bind_eq_ok (EStateM.get_bind_eq_ok h)
  have hafter := hplan.ran (forM_ran _ htasks)
  rw [EStateM.run_get_bind] at hreplan
  split at hreplan
  · next hfailure =>
      obtain ⟨shared, hreplanned, hgraph⟩ := awaited_eq_ok hreplan
      refine hafter.replanned hfailure.1 fun key hkey => ?_
      rw [hgraph]
      exact get_replan hkey hreplanned
  · cases hreplan
    exact hafter

/-- Where the loop is left, and after how many rounds. -/
theorem iterate_inPlan : ∀ (budget n : Nat) {run run' : AgentRun (Context Env)},
    InPlan config goal steps n run.graph →
    (iterate (baseEngine services policy config goal) config budget).run run = .ok () run' →
    ∃ m, n ≤ m ∧ m ≤ n + budget ∧ InPlan config goal steps m run'.graph ∧
      (run'.graph.isComplete = true ∨ run'.cancelled = true ∨ run'.state = .paused ∨
        m = n + budget ∨ run'.graph.ready = [])
  | 0, n, run, run', hplan, h => by
      cases h
      exact ⟨n, le_refl n, le_refl n, hplan, .inr (.inr (.inr (.inl rfl)))⟩
  | budget + 1, n, run, run', hplan, h => by
      unfold iterate at h
      rw [EStateM.run_get_bind] at h
      split at h
      · next hstop =>
          cases h
          refine ⟨n, le_refl n, Nat.le_add_right .., hplan, ?_⟩
          exact hstop.imp_right .inl
      · split at h
        · cases h
          exact ⟨n, le_refl n, Nat.le_add_right .., hplan, .inr (.inr (.inl rfl))⟩
        · split at h
          · next hready =>
              cases h
              exact ⟨n, le_refl n, Nat.le_add_right .., hplan, .inr (.inr (.inr (.inr hready)))⟩
          · obtain ⟨u, run₁, hround, hrest⟩ := EStateM.run_bind_eq_ok h
            obtain ⟨m, hn, hm, hplan', hleft⟩ :=
              iterate_inPlan budget (n + 1) (round_inPlan hplan hround) hrest
            refine ⟨m, by omega, by omega, hplan', ?_⟩
            rcases hleft with hcomplete | hcancelled | hpaused | hspent | hblocked
            · exact .inl hcomplete
            · exact .inr (.inl hcancelled)
            · exact .inr (.inr (.inl hpaused))
            · exact .inr (.inr (.inr (.inl (by omega))))
            · exact .inr (.inr (.inr (.inr hblocked)))

/-- A run enters its loop with a plan. -/
theorem enter_graph {run run' : AgentRun (Context Env)}
    (h : (enter (baseEngine services policy config goal)).run run = .ok () run') :
    ∃ steps, run'.graph = decompose config goal steps := by
  obtain ⟨u, run₁, -, hrest⟩ := EStateM.run_bind_eq_ok h
  obtain ⟨u, run₂, hplan, htransition⟩ := EStateM.run_bind_eq_ok hrest
  obtain ⟨u, run₃, -, hplan⟩ := EStateM.run_bind_eq_ok hplan
  obtain ⟨graph, run₄, hgraph, hmodify⟩ := EStateM.run_bind_eq_ok hplan
  obtain ⟨shared, hhook, -⟩ := awaited_eq_ok hgraph
  have htransition := EStateM.get_bind_eq_ok htransition
  split at htransition
  · cases htransition
    cases hmodify
    change onWorld (planGoal services policy config goal (decompose config goal)) run₃.shared = _
      at hhook
    unfold onWorld EStateM.zoom at hhook
    split at hhook
    · next graph' context hrun =>
        cases hhook
        obtain ⟨steps, context₁, -, hrest⟩ := EStateM.run_bind_eq_ok hrun
        obtain ⟨u, context₂, -, hpure⟩ := EStateM.run_bind_eq_ok hrest
        cases hpure
        exact ⟨steps, rfl⟩
    · cases hhook
  · cases htransition

theorem finish_of_completed {run run' : AgentRun World} (h : finish.run run = .ok () run')
    (hcompleted : run'.goalStatus = .completed) :
    run'.graph = run.graph ∧
      ¬ (run.graph.hasFailure = true ∧ run.graph.anySucceeded = false) := by
  unfold finish at h
  rw [EStateM.run_get_bind] at h
  split at h
  · obtain ⟨u, run₁, hset, htransition⟩ := EStateM.run_bind_eq_ok h
    cases hset
    have htransition := EStateM.get_bind_eq_ok htransition
    split at htransition
    · cases htransition
      cases hcompleted
    · cases htransition
  · next hnot =>
      refine ⟨?_, hnot⟩
      cases h
      show AgentRun.graph (if _ then _ else _) = _
      split <;> rfl

theorem conclude_of_completed {run run' : AgentRun (Context Env)}
    (h : (conclude (baseEngine services policy config goal) config).run run = .ok () run')
    (hcompleted : run'.goalStatus = .completed) :
    run.cancelled = false ∧ run'.graph = run.graph ∧
      ¬ (run.graph.hasFailure = true ∧ run.graph.anySucceeded = false) := by
  have htransition : ∀ target, Keeps AgentRun.graph
      (transition target : AgentM (Context Env) Unit) := fun target => by
    refine Keeps.get_bind fun run => ?_
    split <;> rfl
  have hreflect : Keeps AgentRun.graph
      (reflectStage (baseEngine services policy config goal) config) := by
    unfold reflectStage
    split
    · refine Keeps.bind (htransition _) fun _ => ?_
      exact Keeps.bind (awaited_graph reflect_graph) fun summary =>
        call_graph (remember_graph summary)
    · exact Keeps.pure _
  have hevaluate : Keeps AgentRun.graph
      (evaluateStage (baseEngine services policy config goal) config) := by
    unfold evaluateStage
    split
    · exact awaited_graph evaluate_graph
    · exact Keeps.pure _
  unfold conclude at h
  rw [EStateM.run_get_bind] at h
  split at h
  · cases h
    cases hcompleted
  · next hcancelled =>
      obtain ⟨u, run₁, hfirst, hrest⟩ := EStateM.run_bind_eq_ok h
      obtain ⟨u, run₂, hsecond, hfinish⟩ := EStateM.run_bind_eq_ok hrest
      have hgraph₁ := hreflect run
      have hgraph₂ := hevaluate run₁
      rw [hfirst] at hgraph₁
      rw [hsecond] at hgraph₂
      have hgraph : run₂.graph = run.graph := Eq.trans hgraph₂ hgraph₁
      obtain ⟨hgraph₃, hnot⟩ := finish_of_completed hfinish hcompleted
      rw [hgraph] at hgraph₃ hnot
      exact ⟨Bool.eq_false_iff.mpr hcancelled, hgraph₃, hnot⟩

theorem terminate_graph (error : Option String) :
    Keeps AgentRun.graph (terminate (baseEngine services policy config goal) error) := by
  have hpublish : ∀ event, Keeps AgentRun.graph
      (awaited (baseEngine services policy config goal)
        ((baseEngine services policy config goal).publish event)) :=
    fun event => awaited_graph (publish_graph event)
  refine Keeps.bind (Keeps.get_bind fun run => ?_) fun output =>
    Keeps.bind (Keeps.bind (Keeps.get_bind fun run => ?_) fun _ =>
      Keeps.get_bind fun run => hpublish _ run) fun _ => Keeps.get_bind fun run => rfl
  · split
    · rfl
    · exact call_graph finalOutput_graph run
  · split
    · exact hpublish _ run
    · split
      · exact hpublish _ run
      · rfl

/-- A run that returns with its goal completed has got through its body. -/
theorem lifecycle_of_completed {run run' : AgentRun (Context Env)} {result : AgentRunResult}
    (h : (runGoal (baseEngine services policy config goal) config).run run = .ok result run')
    (hcompleted : result.goalStatus = .completed) :
    ∃ run₁, (lifecycle (baseEngine services policy config goal) config).run run.begin =
        .ok () run₁ ∧ run₁.goalStatus = .completed ∧ result.state = run₁.state ∧
      run'.graph = run₁.graph := by
  cases hbody : (lifecycle (baseEngine services policy config goal) config).run run.begin with
  | ok u run₁ =>
      rw [runGoal_of_ok hbody] at h
      obtain ⟨-, -, hresult⟩ := @lawful_terminate_iff _ (baseEngine services policy config goal)
        none run₁
      obtain ⟨hstate, hgoal⟩ := hresult result run' h
      have hgraph := @terminate_graph _ services policy config goal none run₁
      rw [h] at hgraph
      exact ⟨run₁, rfl, hgoal.symm.trans hcompleted, hstate, hgraph⟩
  | error e run₁ =>
      cases he : e.isException with
      | false =>
          rw [runGoal_of_exit hbody he] at h
          cases h
      | true =>
          rw [runGoal_of_exception hbody he] at h
          obtain ⟨-, -, hresult⟩ := @lawful_terminate_iff _
            (baseEngine services policy config goal) (some e.text) run₁.fail
          rw [(hresult result run' h).2] at hcompleted
          cases hcompleted

/-- A run that returns with its goal completed, and has not been paused, has no failed task or some
that has succeeded; its plan is complete exactly if no task has failed and there were three
iterations to go. -/
theorem completed_plan_iff (services : Services Env) (policy : AgentPolicy)
    (config : AgentConfig) (goal : Goal) (run run' : AgentRun (Context Env))
    (result : AgentRunResult)
    (h : (runGoal (baseEngine services policy config goal) config).run run = .ok result run')
    (hcompleted : result.goalStatus = .completed) (hpaused : result.state ≠ .paused) :
    (run'.graph.hasFailure = false ∨ run'.graph.anySucceeded = true) ∧
    ((run'.graph.isComplete = true ∧
        ∃ task, run'.graph.get synthesizeKey = some task ∧ task.status = .succeeded) ↔
      run'.graph.hasFailure = false ∧ 3 ≤ config.maxIterations) := by
  obtain ⟨run₁, hbody, hgoal, hstate, hgraph⟩ := lifecycle_of_completed h hcompleted
  have hcreated : run.state = .created := by
    by_contra hne
    have hrefused := @lifecycle_of_ne _ (baseEngine services policy config goal) config run.begin
      hne
    rw [hrefused] at hbody
    cases hbody
  rw [lifecycle_eq] at hbody
  obtain ⟨u, run₂, henter, hrest⟩ := EStateM.run_bind_eq_ok hbody
  obtain ⟨u, run₃, hloop, hconclude⟩ := EStateM.run_bind_eq_ok hrest
  -- the loop has not been left by a pause
  have hexecuting : At .executing run₂ :=
    (enter_meets run.begin ⟨hcreated, nofun, nofun⟩).1 u run₂ henter
  have hleft : Left run₃ := (iterate_meets _ run₂ hexecuting).1 u run₃ hloop
  have hended : Ended run₁ := (conclude_meets run₃ hleft).1 u run₁ hconclude
  have hstate₃ : run₃.state ≠ .paused := by
    rcases hleft with hexecuting | ⟨⟨-, -, hhonoured⟩, -⟩
    · rw [hexecuting.1]
      exact nofun
    · have hkept := @conclude_honoured _ (baseEngine services policy config goal) config run₃
      rw [hconclude] at hkept
      rcases hended.2 with ⟨hnot, -⟩ | ⟨-, hstate₁, -⟩
      · exact absurd (hkept.mpr hhonoured) hnot
      · exact absurd (hstate.trans hstate₁) hpaused
  obtain ⟨steps, hplan⟩ := enter_graph henter
  obtain ⟨hcancelled, hgraph₁, hfinish⟩ := conclude_of_completed hconclude hgoal
  obtain ⟨n, -, hn, hafter, hexit⟩ := iterate_inPlan _ 0 (hplan ▸ inPlan_decompose) hloop
  rw [hgraph, hgraph₁]
  refine ⟨?_, ?_⟩
  · by_contra hneither
    obtain ⟨hfailure, hsucceeded⟩ := not_or.mp hneither
    exact hfinish ⟨Bool.not_eq_false _ ▸ hfailure, Bool.eq_false_iff.mpr hsucceeded⟩
  · rw [Nat.zero_add] at hn hexit
    have hiff := hafter.complete_iff hn (by
      rcases hexit with hcomplete | hcancel | hpause | hspent | hblocked
      · exact .inl hcomplete
      · rw [hcancelled] at hcancel
        cases hcancel
      · exact absurd hpause hstate₃
      · exact .inr (.inl hspent)
      · exact .inr (.inr hblocked))
    have hbudget : 3 ≤ config.maxIterations.toNat ↔ 3 ≤ config.maxIterations := by omega
    rw [hiff, hbudget]

end

/-- A language model that is down at certain calls, which it counts. -/
def counting (down : List Nat) : Services Nat where
  complete _ := fun calls =>
    if calls ∈ down then .error (.other "down") (calls + 1)
    else .ok ⟨"Draft", 10, 10, 0⟩ (calls + 1)
  configure := pure ()
  publish _ := pure ()
  search _ _ := []
  policies _ := []
  mutating _ _ := none
  approved _ _ := false
  runTool _ _ := pure ⟨"", true, none⟩
  newId calls := (⟨calls % 16 ^ 8, Nat.mod_lt _ (Nat.two_pow_pos 32)⟩, calls)
  seconds _ := "120.0"
  evaluate _ := pure ()
  finalOutput _ := pure "No output produced."
  requests calls := ([], calls)

def videoGoal : Goal := ⟨"Make a video", [], none, []⟩

def usualConfig : AgentConfig := ⟨4096, 6, 25, true, true, none, ""⟩

/-- A run of a new agent with the usual configuration. -/
def usualRun (down : List Nat) : EStateM.Result AgentError (AgentRun (Context Nat)) AgentRunResult :=
  (runGoal (baseEngine (counting down) .default usualConfig videoGoal) usualConfig).run
    (agentIn .created false false .pending (Context.start .empty [] 0))

/-- What a usual run returns, whether or not the model is down. -/
def usualResult : AgentRunResult := ⟨.completed, "No output produced.", .completed, none⟩

theorem usualRun_eq_ok {down : List Nat} (h : (usualRun down).value? = some usualResult) :
    usualRun down = .ok usualResult (usualRun down).state := EStateM.Result.eq_ok_of_value? h

theorem completed_plan_usual :
    (((usualRun []).state.graph.isComplete = true ∧
      ∃ task, (usualRun []).state.graph.get synthesizeKey = some task ∧
        task.status = .succeeded) ↔
      (usualRun []).state.graph.hasFailure = false ∧ 3 ≤ usualConfig.maxIterations) ∧
    (usualRun []).state.graph.isComplete = true ∧
      ∃ task, (usualRun []).state.graph.get synthesizeKey = some task ∧
        task.status = .succeeded := by
  have hiff := (completed_plan_iff (counting []) .default usualConfig videoGoal _
    (usualRun []).state usualResult (usualRun_eq_ok (by decide +kernel)) rfl nofun).2
  exact ⟨hiff, hiff.mpr ⟨by decide +kernel, by decide⟩⟩

/-- The one work task fails at every attempt; the tasks that recover from it succeed, and the goal
is completed with its last task still pending. -/
theorem completed_with_open_plan : ¬ ∀ result run', usualRun [2, 3, 4] = .ok result run' →
    result.goalStatus = .completed → run'.graph.isComplete = true ∧
      ∃ task, run'.graph.get synthesizeKey = some task ∧ task.status = .succeeded := by
  intro h
  obtain ⟨hcomplete, -⟩ := h usualResult _ (usualRun_eq_ok (by decide +kernel)) rfl
  exact absurd hcomplete (by decide +kernel)

end YoutubeFactory.AgentCore
