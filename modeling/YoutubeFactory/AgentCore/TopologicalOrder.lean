import YoutubeFactory.AgentCore.Tasks
import YoutubeFactory.Lib.Keyed
import YoutubeFactory.Lib.Layers
import Mathlib.Algebra.Order.BigOperators.Group.List
import Mathlib.Algebra.Order.Group.Nat
import Mathlib.Algebra.GroupWithZero.Nat
import Mathlib.Logic.Function.Basic

/-!
# The topological order of the tasks

`topological_order` of `app/agents/base/tasks.py`.  A task counts the entries of `depends_on` that
the graph knows, and is released from one of them for each key that has been ordered.  So a task
that lists a known dependency twice is never released.
-/

namespace YoutubeFactory.AgentCore.TaskGraph

variable (graph : TaskGraph)

/-! ## The loop -/

/-- The variables of the loop. -/
structure OrderState where
  indegree : String → Int
  queue : List String
  order : List AgentTask

/-- `indegree`, with one for each entry of `depends_on` that is a key of the graph. -/
def indegree : String → Int :=
  graph.tasks.foldl (fun indegree task =>
    task.dependsOn.foldl (fun indegree dep =>
      if (graph.get dep).isSome = true then
        Function.update indegree task.key (indegree task.key + 1)
      else indegree) indegree) fun _ => 0

/-- The body of the inner loop. -/
def OrderState.release (key : String) (state : OrderState) (task : AgentTask) : OrderState :=
  if key ∈ task.dependsOn then
    let indegree := Function.update state.indegree task.key (state.indegree task.key - 1)
    if indegree task.key = 0 then { state with indegree, queue := state.queue ++ [task.key] }
    else { state with indegree }
  else state

/-- The body of the outer loop.  The keys of the queue are keys of the graph. -/
def visit (state : OrderState) (key : String) : OrderState :=
  graph.tasks.foldl (OrderState.release key) { state with order := state.order ++ (graph.get key).toList }

/-- What is queued, and what tasks still have to be released from. -/
def left (state : OrderState) : Nat :=
  state.queue.length + (graph.tasks.map fun task => (state.indegree task.key).toNat).sum

theorem left_release (key : String) (state : OrderState) {task : AgentTask} (h : task ∈ graph.tasks) :
    graph.left (state.release key task) ≤ graph.left state := by
  unfold OrderState.release
  split
  · have hle : ∀ t ∈ graph.tasks, (Function.update state.indegree task.key
        (state.indegree task.key - 1) t.key).toNat ≤ (state.indegree t.key).toNat := by
      intro t _
      by_cases hkey : t.key = task.key
      · rw [hkey, Function.update_self]
        omega
      · rw [Function.update_of_ne hkey]
    dsimp only
    split
    · next hzero =>
        rw [Function.update_self] at hzero
        have hlt := List.sum_lt_sum _ _ hle ⟨task, h, by rw [Function.update_self]; omega⟩
        simp only [left, List.length_append, List.length_singleton]
        omega
    · exact Nat.add_le_add_left (List.sum_le_sum hle) _
  · exact le_refl _

theorem left_visit (state : OrderState) (key : String) : graph.left (graph.visit state key) ≤ graph.left state := by
  have hfold : ∀ (tasks : List AgentTask), (∀ task ∈ tasks, task ∈ graph.tasks) →
      ∀ state, graph.left (tasks.foldl (OrderState.release key) state) ≤ graph.left state := by
    intro tasks
    induction tasks with
    | nil => exact fun _ _ => le_refl _
    | cons task tasks ih =>
        intro htasks state
        rw [List.forall_mem_cons] at htasks
        exact (ih htasks.2 _).trans (graph.left_release key state htasks.1)
  exact hfold _ (fun _ h => h) _

/-- The outer loop. -/
def drain : OrderState → OrderState
  | ⟨indegree, [], order⟩ => ⟨indegree, [], order⟩
  | ⟨indegree, key :: queue, order⟩ => drain (graph.visit ⟨indegree, queue, order⟩ key)
termination_by state => graph.left state
decreasing_by
  refine (graph.left_visit _ key).trans_lt ?_
  simp [left]

/-- The tasks that count nothing are queued at once. -/
def start : OrderState where
  indegree := graph.indegree
  queue := (graph.tasks.map AgentTask.key).filter fun key => graph.indegree key = 0
  order := []

/-- `topological_order` -/
def topologicalOrder : Except String (List AgentTask) :=
  let order := (graph.drain graph.start).order
  if order.length ≠ graph.tasks.length then .error "Task dependency graph contains a cycle."
  else .ok order

/-! ## What an order has to be -/

/-- The entries of `depends_on` that the graph knows. -/
def knownDeps (task : AgentTask) : List String :=
  task.dependsOn.filter fun key => (graph.get key).isSome = true

/-- The task of the one key has to come before that of the other. -/
def Before (dep key : String) : Prop :=
  ∃ task, graph.get key = some task ∧ dep ∈ graph.knownDeps task

/-- The dependencies between tasks of the graph have a directed cycle. -/
def Cyclic : Prop := ∃ key, Relation.TransGen graph.Before key key

/-- Every task once, and each after all its known dependencies. -/
structure Topological (order : List AgentTask) : Prop where
  perm : order.Perm graph.tasks
  after : ∀ i task, order[i]? = some task → ∀ dep ∈ graph.knownDeps task,
    dep ∈ (order.take i).map AgentTask.key

/-- An order is returned exactly where there is no cycle, and it is a topological one. -/
structure Sorts : Prop where
  raises_iff : (∃ message, graph.topologicalOrder = .error message) ↔ graph.Cyclic
  returned : ∀ order, graph.topologicalOrder = .ok order → graph.Topological order

variable {graph} {task : AgentTask} {key : String}

theorem mem_knownDeps {dep : String} :
    dep ∈ graph.knownDeps task ↔ dep ∈ task.dependsOn ∧ (graph.get dep).isSome = true := by
  rw [knownDeps, List.mem_filter, decide_eq_true_eq]

/-! ## Keys -/

theorem map_key_tasks (graph : TaskGraph) : graph.tasks.map AgentTask.key = graph.byKey.keys := by
  unfold tasks OrderedMap.keys
  rw [List.map_map]
  refine List.map_congr_left fun entry hentry => ?_
  exact graph.keyed entry.1 entry.2 (OrderedMap.get?_of_mem hentry)

theorem nodup_keys (graph : TaskGraph) : (graph.tasks.map AgentTask.key).Nodup := by
  rw [map_key_tasks]
  exact graph.byKey.nodup

theorem isSome_get : (graph.get key).isSome = true ↔ key ∈ graph.tasks.map AgentTask.key := by
  rw [map_key_tasks, ← not_iff_not, Bool.not_eq_true, Option.isSome_eq_false_iff,
    Option.isNone_iff_eq_none]
  exact OrderedMap.get?_eq_none_iff

/-! ## The first indegrees -/

/-- One task has counted its known dependencies. -/
def count (graph : TaskGraph) (indegree : String → Int) (task : AgentTask) : String → Int :=
  Function.update indegree task.key (indegree task.key + (graph.knownDeps task).length)

theorem foldl_known (key : String) : ∀ (deps : List String) (indegree : String → Int),
    deps.foldl (fun indegree dep =>
      if (graph.get dep).isSome = true then
        Function.update indegree key (indegree key + 1)
      else indegree) indegree =
    Function.update indegree key
      (indegree key + (deps.filter fun dep => (graph.get dep).isSome = true).length)
  | [], indegree => by simp
  | dep :: deps, indegree => by
      rw [List.foldl_cons, foldl_known key deps, List.filter_cons]
      by_cases hknown : (graph.get dep).isSome = true
      · rw [if_pos hknown, if_pos (decide_eq_true hknown), Function.update_idem,
          Function.update_self, List.length_cons]
        congr 1
        omega
      · rw [if_neg hknown, if_neg (by simpa using hknown)]

theorem indegree_eq (graph : TaskGraph) :
    graph.indegree = graph.tasks.foldl graph.count fun _ => 0 := by
  unfold indegree
  simp only [foldl_known]
  rfl

theorem foldl_count_of_notMem : ∀ {tasks : List AgentTask} {indegree : String → Int},
    key ∉ tasks.map AgentTask.key → tasks.foldl graph.count indegree key = indegree key
  | [], _, _ => rfl
  | first :: tasks, indegree, h => by
      rw [List.map_cons, List.mem_cons, not_or] at h
      rw [List.foldl_cons, foldl_count_of_notMem h.2, count, Function.update_of_ne h.1]

theorem foldl_count_of_mem : ∀ {tasks : List AgentTask} {indegree : String → Int},
    (tasks.map AgentTask.key).Nodup → task ∈ tasks →
      tasks.foldl graph.count indegree task.key =
        indegree task.key + (graph.knownDeps task).length
  | first :: tasks, indegree, hnodup, h => by
      rw [List.map_cons, List.nodup_cons] at hnodup
      rw [List.foldl_cons]
      rcases List.mem_cons.mp h with rfl | h
      · rw [foldl_count_of_notMem hnodup.1, count, Function.update_self]
      · have hne : task.key ≠ first.key := fun heq => hnodup.1 (heq ▸ List.mem_map_of_mem h)
        rw [foldl_count_of_mem hnodup.2 h, count, Function.update_of_ne hne]

theorem indegree_of_mem (h : task ∈ graph.tasks) :
    graph.indegree task.key = (graph.knownDeps task).length := by
  rw [indegree_eq, foldl_count_of_mem graph.nodup_keys h, zero_add]

/-! ## One visit -/

theorem release_order (state : OrderState) : (state.release key task).order = state.order := by
  unfold OrderState.release
  split
  · dsimp only
    split <;> rfl
  · rfl

theorem release_queue (state : OrderState) : (state.release key task).queue = state.queue ++
    if key ∈ task.dependsOn ∧ state.indegree task.key = 1 then [task.key] else [] := by
  unfold OrderState.release
  by_cases hkey : key ∈ task.dependsOn
  · rw [if_pos hkey]
    dsimp only
    rw [Function.update_self]
    by_cases hone : state.indegree task.key = 1
    · rw [if_pos (by omega), if_pos ⟨hkey, hone⟩]
    · rw [if_neg (by omega), if_neg fun h => hone h.2, List.append_nil]
  · rw [if_neg hkey, if_neg fun h => hkey h.1, List.append_nil]

theorem release_indegree (state : OrderState) : (state.release key task).indegree =
    if key ∈ task.dependsOn then
      Function.update state.indegree task.key (state.indegree task.key - 1)
    else state.indegree := by
  unfold OrderState.release
  split
  · dsimp only
    split <;> rfl
  · rfl

theorem release_indegree_of_ne (state : OrderState) {k : String} (h : k ≠ task.key) :
    (state.release key task).indegree k = state.indegree k := by
  rw [release_indegree]
  split
  · exact Function.update_of_ne h _ _
  · rfl

/-- What the tasks make of the queue and the indegrees once a key has been ordered. -/
structure Released (key : String) (tasks : List AgentTask) (state state' : OrderState) : Prop where
  order : state'.order = state.order
  queue : state'.queue = state.queue ++ (tasks.filter fun task =>
    key ∈ task.dependsOn ∧ state.indegree task.key = 1).map AgentTask.key
  indegree : ∀ task ∈ tasks, state'.indegree task.key =
    if key ∈ task.dependsOn then state.indegree task.key - 1 else state.indegree task.key
  other : ∀ k, k ∉ tasks.map AgentTask.key → state'.indegree k = state.indegree k

theorem released (key : String) : ∀ {tasks : List AgentTask} (state : OrderState),
    (tasks.map AgentTask.key).Nodup →
      Released key tasks state (tasks.foldl (OrderState.release key) state)
  | [], state, _ =>
      ⟨rfl, by simp, fun task htask => absurd htask List.not_mem_nil, fun _ _ => rfl⟩
  | first :: tasks, state, hnodup => by
      rw [List.map_cons, List.nodup_cons] at hnodup
      have hrest := released key (state.release key first) hnodup.2
      have hne : ∀ task ∈ tasks, task.key ≠ first.key := fun task htask heq =>
        hnodup.1 (heq ▸ List.mem_map_of_mem htask)
      have hsame : ∀ task ∈ tasks,
          (state.release key first).indegree task.key = state.indegree task.key :=
        fun task htask => release_indegree_of_ne state (hne task htask)
      refine ⟨hrest.order.trans (release_order state), ?_, fun task htask => ?_, fun k hk => ?_⟩
      · have hfilter : (tasks.filter fun task => key ∈ task.dependsOn ∧
            (state.release key first).indegree task.key = 1) =
            tasks.filter fun task => key ∈ task.dependsOn ∧ state.indegree task.key = 1 :=
          List.filter_congr fun task htask => by rw [hsame task htask]
        rw [List.foldl_cons, hrest.queue, hfilter, release_queue, List.filter_cons,
          List.append_assoc]
        by_cases hqueued : key ∈ first.dependsOn ∧ state.indegree first.key = 1
        · rw [if_pos hqueued, if_pos (decide_eq_true hqueued)]
          rfl
        · rw [if_neg hqueued, if_neg (by simpa using hqueued)]
          rfl
      · rw [List.foldl_cons]
        rcases List.mem_cons.mp htask with rfl | htask
        · rw [hrest.other _ hnodup.1, release_indegree]
          split
          · exact Function.update_self ..
          · rfl
        · rw [hrest.indegree task htask, hsame task htask]
      · rw [List.map_cons, List.mem_cons, not_or] at hk
        rw [List.foldl_cons, hrest.other k hk.2, release_indegree_of_ne state hk.1]

/-! ## The invariant of the loop -/

/-- The keys that have been ordered. -/
def OrderState.placed (state : OrderState) : List String := state.order.map AgentTask.key

/-- A task is queued once it has counted down to zero, and it has counted each ordered key that it
lists. -/
structure Invariant (graph : TaskGraph) (state : OrderState) : Prop where
  tasks : ∀ task ∈ state.order, task ∈ graph.tasks
  queued : ∀ key ∈ state.queue, key ∈ graph.tasks.map AgentTask.key
  nodup : (state.placed ++ state.queue).Nodup
  counted : ∀ task ∈ graph.tasks, state.indegree task.key +
    (state.placed.countP fun key => key ∈ task.dependsOn : Nat) = (graph.knownDeps task).length
  released : ∀ task ∈ graph.tasks,
    (task.key ∈ state.placed ++ state.queue ↔ state.indegree task.key = 0)
  sequenced : Layers.Sequenced graph.Before state.placed

/-- Without repetition a list has as many elements as one around it exactly if that repeats none
and has no others. -/
theorem length_eq_iff_of_subset {α : Type} {l l' : List α} (hnodup : l.Nodup) (hsub : l ⊆ l') :
    l.length = l'.length ↔ l'.Nodup ∧ l' ⊆ l := by
  constructor
  · intro hlength
    have hperm : l.Perm l' := (hnodup.subperm hsub).perm_of_length_le hlength.ge
    exact ⟨hperm.nodup_iff.mp hnodup, hperm.symm.subset⟩
  · rintro ⟨hnodup', hsub'⟩
    exact ((List.perm_ext_iff_of_nodup hnodup hnodup').mpr fun a =>
      ⟨fun h => hsub h, fun h => hsub' h⟩).length_eq

namespace Invariant

variable {state : OrderState}

theorem placed_known (h : Invariant graph state) {dep : String} (hdep : dep ∈ state.placed) :
    (graph.get dep).isSome = true := by
  obtain ⟨task, htask, rfl⟩ := List.mem_map.mp hdep
  exact isSome_get.mpr (List.mem_map_of_mem (h.tasks task htask))

/-- A task has counted down to zero exactly if it lists no known dependency twice and all of them
have been ordered. -/
theorem indegree_eq_zero_iff (h : Invariant graph state) (htask : task ∈ graph.tasks) :
    state.indegree task.key = 0 ↔
      (graph.knownDeps task).Nodup ∧ graph.knownDeps task ⊆ state.placed := by
  have hcounted := h.counted task htask
  have hplaced : (state.placed.filter fun key => key ∈ task.dependsOn).Nodup :=
    (List.nodup_append.mp h.nodup).1.filter _
  have hsub : (state.placed.filter fun key => key ∈ task.dependsOn) ⊆ graph.knownDeps task := by
    intro dep hdep
    rw [List.mem_filter, decide_eq_true_eq] at hdep
    exact mem_knownDeps.mpr ⟨hdep.2, h.placed_known hdep.1⟩
  have hlength := length_eq_iff_of_subset hplaced hsub
  rw [← List.countP_eq_length_filter] at hlength
  have hzero : state.indegree task.key = 0 ↔
      (state.placed.countP fun key => key ∈ task.dependsOn) = (graph.knownDeps task).length := by
    omega
  rw [hzero, hlength]
  refine and_congr_right fun _ => ⟨fun hall dep hdep => ?_, fun hall dep hdep => ?_⟩
  · exact (List.mem_filter.mp (hall hdep)).1
  · exact List.mem_filter.mpr ⟨hall hdep, decide_eq_true (mem_knownDeps.mp hdep).1⟩

end Invariant

theorem invariant_start (graph : TaskGraph) : Invariant graph graph.start where
  tasks task htask := absurd htask List.not_mem_nil
  queued key hkey := (List.mem_filter.mp hkey).1
  nodup := graph.nodup_keys.filter _
  counted task htask := by
    have hcount := indegree_of_mem htask
    simpa [start, OrderState.placed] using hcount
  released task htask := by
    simp only [start, OrderState.placed, List.map_nil, List.nil_append, List.mem_filter,
      decide_eq_true_eq]
    exact and_iff_right (List.mem_map_of_mem htask)
  sequenced := Layers.Sequenced.nil

/-- Visiting the first key of the queue. -/
theorem Invariant.visit {indegree : String → Int} {queue : List String} {order : List AgentTask}
    (h : Invariant graph ⟨indegree, key :: queue, order⟩) :
    Invariant graph (graph.visit ⟨indegree, queue, order⟩ key) := by
  obtain ⟨task, hget⟩ := Option.isSome_iff_exists.mp
    (isSome_get.mpr (h.queued key List.mem_cons_self))
  have hkey : task.key = key := key_of_get hget
  have htask : task ∈ graph.tasks := mem_tasks_of_get hget
  have hrel : Released key graph.tasks ⟨indegree, queue, order ++ [task]⟩
      (graph.visit ⟨indegree, queue, order⟩ key) := by
    unfold TaskGraph.visit
    rw [hget]
    exact TaskGraph.released key _ graph.nodup_keys
  have hplaced : (graph.visit ⟨indegree, queue, order⟩ key).placed =
      order.map AgentTask.key ++ [key] := by
    rw [OrderState.placed, hrel.order, List.map_append, List.map_singleton, hkey]
  have hzero := (h.indegree_eq_zero_iff htask).mp ((h.released task htask).mp
    (hkey ▸ List.mem_append_right _ List.mem_cons_self))
  have hfresh : key ∉ order.map AgentTask.key := fun hmem =>
    (List.nodup_append.mp h.nodup).2.2 key hmem key List.mem_cons_self rfl
  have hall : (graph.visit ⟨indegree, queue, order⟩ key).placed ++
      (graph.visit ⟨indegree, queue, order⟩ key).queue =
      (order.map AgentTask.key ++ key :: queue) ++ (graph.tasks.filter fun task =>
        key ∈ task.dependsOn ∧ indegree task.key = 1).map AgentTask.key := by
    rw [hplaced, hrel.queue]
    simp
  have hnew : ∀ t ∈ graph.tasks, (t.key ∈ (graph.tasks.filter fun task =>
      key ∈ task.dependsOn ∧ indegree task.key = 1).map AgentTask.key ↔
        key ∈ t.dependsOn ∧ indegree t.key = 1) := by
    intro t ht
    rw [Keyed.key_mem_filter_iff graph.nodup_keys ht, decide_eq_true_eq]
  refine ⟨fun t ht => ?_, fun k hk => ?_, ?_, fun t ht => ?_, fun t ht => ?_, ?_⟩
  · rw [hrel.order, List.mem_append, List.mem_singleton] at ht
    rcases ht with ht | rfl
    · exact h.tasks t ht
    · exact htask
  · rw [hrel.queue, List.mem_append] at hk
    rcases hk with hk | hk
    · exact h.queued k (List.mem_cons_of_mem key hk)
    · exact (List.filter_sublist.map AgentTask.key).subset hk
  · rw [hall]
    refine List.nodup_append.mpr ⟨h.nodup,
      (List.filter_sublist.map AgentTask.key).nodup graph.nodup_keys, ?_⟩
    rintro k hold _ hk rfl
    -- Who is queued now has counted to one so far, and who was queued before to zero.
    obtain ⟨t, ht, rfl⟩ := List.mem_map.mp ((List.filter_sublist.map AgentTask.key).subset hk)
    have hone := ((hnew t ht).mp hk).2
    have hzero' := (h.released t ht).mp hold
    dsimp only at hzero'
    omega
  · have hcounted := h.counted t ht
    rw [hplaced, List.countP_append, hrel.indegree t ht, ← hcounted]
    change _ = indegree t.key + ((order.map AgentTask.key).countP fun key => key ∈ t.dependsOn : Nat)
    by_cases hdep : key ∈ t.dependsOn
    · simp [hdep]
    · simp [hdep]
  · have hold : t.key ∈ order.map AgentTask.key ++ key :: queue ↔ indegree t.key = 0 :=
      h.released t ht
    rw [hall, List.mem_append, hnew t ht, hold, hrel.indegree t ht]
    dsimp only
    by_cases hdep : key ∈ t.dependsOn
    · have hwaits : indegree t.key ≠ 0 := fun hnone =>
        hfresh (((h.indegree_eq_zero_iff ht).mp hnone).2
          (mem_knownDeps.mpr ⟨hdep, isSome_get.mpr (hkey ▸ List.mem_map_of_mem htask)⟩))
      rw [if_pos hdep]
      constructor
      · rintro (hnone | ⟨-, hone⟩)
        · exact absurd hnone hwaits
        · omega
      · exact fun hone => .inr ⟨hdep, by omega⟩
    · rw [if_neg hdep]
      exact ⟨fun hor => hor.elim id fun hnew' => absurd hnew'.1 hdep, .inl⟩
  · rw [hplaced]
    refine h.sequenced.append ?_
    rintro dep ⟨task', hget', hdep⟩
    cases hget.symm.trans hget'
    exact hzero.2 hdep

/-- The loop ends with an empty queue. -/
theorem drain_invariant (state : OrderState) (h : Invariant graph state) :
    Invariant graph (graph.drain state) ∧ (graph.drain state).queue = [] := by
  induction state using drain.induct graph with
  | case1 indegree order =>
      rw [drain]
      exact ⟨h, rfl⟩
  | case2 indegree key queue order ih =>
      rw [drain]
      exact ih h.visit

/-! ## What is returned -/

/-- At the end of the loop all tasks have been ordered exactly if there is no cycle and no task
lists a known dependency twice. -/
theorem ordered_all_iff {state : OrderState} (h : Invariant graph state)
    (hqueue : state.queue = []) :
    state.order.length = graph.tasks.length ↔
      ¬ graph.Cyclic ∧ ∀ task ∈ graph.tasks, (graph.knownDeps task).Nodup := by
  have hdone : ∀ task ∈ graph.tasks, (task.key ∈ state.placed ↔
      (graph.knownDeps task).Nodup ∧ graph.knownDeps task ⊆ state.placed) := by
    intro task htask
    rw [← h.indegree_eq_zero_iff htask, ← h.released task htask, hqueue, List.append_nil]
  have hplaced : state.placed.Nodup := (List.nodup_append.mp h.nodup).1
  have hsub : state.placed ⊆ graph.tasks.map AgentTask.key := List.map_subset _ h.tasks
  have hlength := length_eq_iff_of_subset hplaced hsub
  rw [OrderState.placed, List.length_map, List.length_map, and_iff_right graph.nodup_keys]
    at hlength
  rw [hlength]
  constructor
  · intro hall
    constructor
    · rintro ⟨key, hcycle⟩
      refine h.sequenced.acyclic (fun dep k hk => ?_) key hcycle
      obtain ⟨task, hget, -⟩ := hk
      exact hall (isSome_get.mp (by rw [hget]; rfl))
    · exact fun task htask => ((hdone task htask).mp (hall (List.mem_map_of_mem htask))).1
  · rintro ⟨hacyclic, hnodup⟩ key hkey
    by_contra hnot
    -- Whatever has not been ordered waits for something that has not been ordered either.
    have hne : ((graph.tasks.map AgentTask.key).filter fun k => k ∉ state.placed) ≠ [] :=
      List.ne_nil_of_mem (List.mem_filter.mpr ⟨hkey, decide_eq_true hnot⟩)
    refine hacyclic (Layers.exists_cycle hne fun k hk => ?_)
    · rw [List.mem_filter, decide_eq_true_eq] at hk
      obtain ⟨task, htask, rfl⟩ := List.mem_map.mp hk.1
      have hwaits : ¬ graph.knownDeps task ⊆ state.placed := fun hsub =>
        hk.2 ((hdone task htask).mpr ⟨hnodup task htask, hsub⟩)
      obtain ⟨dep, hdep, hwait⟩ : ∃ dep ∈ graph.knownDeps task, dep ∉ state.placed := by
        by_contra hnone
        refine hwaits fun dep hdep => ?_
        by_contra hwait
        exact hnone ⟨dep, hdep, hwait⟩
      refine ⟨dep, List.mem_filter.mpr ⟨isSome_get.mp (mem_knownDeps.mp hdep).2,
        decide_eq_true hwait⟩, task, mem_tasks.mp htask, hdep⟩

theorem topological_of_all {state : OrderState} (h : Invariant graph state)
    (hlength : state.order.length = graph.tasks.length) : graph.Topological state.order := by
  have hplaced : state.placed.Nodup := (List.nodup_append.mp h.nodup).1
  constructor
  · refine (hplaced.of_map.subperm h.tasks).perm_of_length_le hlength.ge
  · intro i task hget dep hdep
    have hkey : state.placed[i]? = some task.key := by
      rw [OrderState.placed, List.getElem?_map, hget, Option.map_some]
    rw [List.map_take]
    refine h.sequenced i task.key hkey dep ⟨task, ?_, hdep⟩
    exact mem_tasks.mp (h.tasks task (List.mem_of_getElem? hget))

theorem raises_iff (graph : TaskGraph) : (∃ message, graph.topologicalOrder = .error message) ↔
    ¬ (¬ graph.Cyclic ∧ ∀ task ∈ graph.tasks, (graph.knownDeps task).Nodup) := by
  obtain ⟨hinvariant, hqueue⟩ := drain_invariant _ (invariant_start graph)
  rw [← ordered_all_iff hinvariant hqueue]
  unfold topologicalOrder
  dsimp only
  split
  · next hne => exact ⟨fun _ => hne, fun _ => ⟨_, rfl⟩⟩
  · next heq => exact ⟨nofun, fun hne => absurd hne heq⟩

theorem topological_of_ok {order : List AgentTask} (h : graph.topologicalOrder = .ok order) :
    graph.Topological order := by
  unfold topologicalOrder at h
  dsimp only at h
  split at h
  · cases h
  · next heq =>
      cases h
      exact topological_of_all (drain_invariant _ (invariant_start graph)).1 (not_not.mp heq)

/-- The order is as promised exactly if there is a cycle or no task lists a known dependency
twice. -/
theorem sorts_iff (graph : TaskGraph) :
    graph.Sorts ↔ graph.Cyclic ∨ ∀ task ∈ graph.tasks, (graph.knownDeps task).Nodup := by
  constructor
  · intro hsorts
    by_contra hneither
    rw [not_or] at hneither
    have hcyclic := hsorts.raises_iff.mp (graph.raises_iff.mpr fun hboth => hneither.2 hboth.2)
    exact hneither.1 hcyclic
  · intro hgood
    refine ⟨?_, fun order => topological_of_ok⟩
    rw [raises_iff]
    constructor
    · intro hnot
      by_contra hacyclic
      exact hnot ⟨hacyclic, hgood.resolve_left hacyclic⟩
    · exact fun hcyclic hboth => hboth.1 hcyclic

/-! ## A dependency that is listed twice -/

/-- A task, and one that lists it twice. -/
def twiceGraph : TaskGraph :=
  (empty.add (.planned "Read" .reason "read" [] [])).add
    (.planned "Write" .reason "write" ["read", "read"] [])

theorem twiceGraph_acyclic : ¬ twiceGraph.Cyclic := by
  have hbefore : ∀ dep key, twiceGraph.Before dep key → dep = "read" ∧ key = "write" := by
    rintro dep key ⟨task, hget, hdep⟩
    have hmem := mem_tasks_of_get hget
    have htasks : ∀ task ∈ twiceGraph.tasks, task.key = "write" ∧ task.dependsOn = ["read", "read"] ∨
        task.dependsOn = [] := by decide
    rw [mem_knownDeps] at hdep
    rcases htasks task hmem with ⟨hkey, hdeps⟩ | hdeps
    · rw [hdeps] at hdep
      exact ⟨by simpa using hdep.1, (key_of_get hget).symm.trans hkey⟩
    · rw [hdeps] at hdep
      cases hdep.1
  rintro ⟨key, hcycle⟩
  obtain ⟨next, hfirst, -⟩ := Relation.TransGen.head'_iff.mp hcycle
  obtain ⟨last, -, hlast⟩ := Relation.TransGen.tail'_iff.mp hcycle
  exact absurd ((hbefore _ _ hfirst).1.symm.trans (hbefore _ _ hlast).2) (by decide)

/-- It raises, though there is no cycle. -/
theorem acyclic_raises : ¬ ∀ graph : TaskGraph, graph.Sorts := by
  intro hsorts
  have hraises : ∃ message, twiceGraph.topologicalOrder = .error message :=
    twiceGraph.raises_iff.mpr fun hboth => absurd hboth.2 (by decide)
  exact twiceGraph_acyclic ((hsorts twiceGraph).raises_iff.mp hraises)

end YoutubeFactory.AgentCore.TaskGraph
