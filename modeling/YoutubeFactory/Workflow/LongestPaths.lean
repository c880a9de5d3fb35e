import YoutubeFactory.Workflow.Graph

/-!
# Levels and longest paths

`WorkflowGraph.levels` loops until no node remains or none is ready.  The loop ends for every
graph (`loop_levelsFrom`).  When none is ready, every remaining node has an edge from another one,
so there is a cycle.  Otherwise each node is placed as soon as its sources are, and its level is
the length of the longest path that ends in it.
-/

namespace YoutubeFactory.Workflow

namespace WorkflowGraph

variable {V : Type} {graph : WorkflowGraph V}

/-! ## The loop -/

/-- The loop of `levels` ends with this result. -/
inductive LevelsLoop (graph : WorkflowGraph V) :
    List (String × Int) → Except GraphError (List (List (GraphNode V))) → Prop
  | done : LevelsLoop graph [] (.ok [])
  | stuck {remaining : List (String × Int)} (some_left : remaining ≠ [])
      (none_ready : ready remaining = []) : LevelsLoop graph remaining (.error .cycle)
  | round {remaining : List (String × Int)}
      {rest : Except GraphError (List (List (GraphNode V)))} (some_left : remaining ≠ [])
      (some_ready : ready remaining ≠ [])
      (loop : LevelsLoop graph ((ready remaining).foldl graph.place remaining) rest) :
      LevelsLoop graph remaining
        (rest.map fun levels => (ready remaining).filterMap graph.nodeAt :: levels)

/-- The next round starts with what is placed and the ready keys. -/
theorem foldl_place_ready (placed : List String) :
    (ready (graph.pending placed)).foldl graph.place (graph.pending placed) =
      graph.pending (placed ++ ready (graph.pending placed)) :=
  foldl_place_pending (nodup_ready_pending placed) fun _ hk => (mem_ready_pending.mp hk).2.1

/-- A round places a node. -/
theorem length_pending_lt {placed : List String} (h : ready (graph.pending placed) ≠ []) :
    (graph.pending (placed ++ ready (graph.pending placed))).length <
      (graph.pending placed).length := by
  obtain ⟨key, hkey⟩ := List.exists_mem_of_ne_nil _ h
  obtain ⟨hknown, hfree, -⟩ := mem_ready_pending.mp hkey
  obtain ⟨n, hn, rfl⟩ := List.mem_map.mp hknown
  have hfilter : (graph.nodes.filter fun n => n.key ∉ placed ++ ready (graph.pending placed)) =
      (graph.nodes.filter fun n => n.key ∉ placed).filter
        fun n => n.key ∉ ready (graph.pending placed) := by
    rw [List.filter_filter]
    refine List.filter_congr fun m _ => ?_
    simp [Bool.and_comm]
  unfold pending at hfilter hkey ⊢
  rw [List.length_map, List.length_map, hfilter]
  exact List.length_filter_lt_length_iff_exists.mpr
    ⟨n, List.mem_filter.mpr ⟨hn, by simpa using hfree⟩, by simpa using hkey⟩

/-- The loop ends, and the number of nodes is enough fuel for it. -/
theorem loop_levelsFrom : ∀ {fuel : Nat} {placed : List String},
    (graph.pending placed).length ≤ fuel →
      LevelsLoop graph (graph.pending placed) (graph.levelsFrom fuel (graph.pending placed)) := by
  intro fuel
  induction fuel with
  | zero =>
      intro placed hfuel
      rw [List.length_eq_zero_iff.mp (Nat.le_zero.mp hfuel)]
      exact .done
  | succ fuel ih =>
      intro placed hfuel
      rw [levelsFrom]
      split
      · next hnone =>
          rw [hnone]
          exact .done
      · next hleft =>
          split
          · next hstuck => exact .stuck hleft hstuck
          · next hready =>
              have hloop := ih (Nat.le_of_lt_succ
                (Nat.lt_of_lt_of_le (length_pending_lt hready) hfuel))
              rw [← foldl_place_ready] at hloop
              exact .round hleft hready hloop

theorem loop_levels (graph : WorkflowGraph V) :
    LevelsLoop graph graph.indegree graph.levels := by
  rw [levels_eq, indegree_eq_pending]
  refine loop_levelsFrom ?_
  unfold pending
  rw [List.length_map]
  exact List.length_filter_le _ _

/-! ## Cycles -/

/-- When no remaining key is ready, each has an edge from another. -/
theorem cycle_of_stuck {placed : List String} (hleft : graph.pending placed ≠ [])
    (hstuck : ready (graph.pending placed) = []) : ∃ k, Relation.TransGen graph.Edge k k := by
  refine @Layers.exists_cycle _ graph.Edge
    ((graph.nodes.filter fun n => n.key ∉ placed).map (·.key)) ?_ fun l hl => ?_
  · intro hnil
    exact hleft (List.map_eq_nil_iff.mpr (List.map_eq_nil_iff.mp hnil))
  · obtain ⟨n, hn, rfl⟩ := List.mem_map.mp hl
    obtain ⟨hknown, hfree⟩ := List.mem_filter.mp hn
    rw [decide_eq_true_eq] at hfree
    have hnot : n.key ∉ ready (graph.pending placed) := by
      rw [hstuck]
      exact List.not_mem_nil
    have hwaits : ∃ k, graph.Edge k n.key ∧ k ∉ placed := by
      by_contra hnone
      refine hnot (mem_ready_pending.mpr ⟨List.mem_map_of_mem hknown, hfree, fun k hk => ?_⟩)
      by_contra hk'
      exact hnone ⟨k, hk, hk'⟩
    obtain ⟨k, hedge, hk⟩ := hwaits
    obtain ⟨e, he, rfl, htarget⟩ := hedge
    obtain ⟨m, hm, hkey⟩ := List.mem_map.mp (graph.edges_known e he).1
    refine ⟨e.source, List.mem_map.mpr ⟨m, List.mem_filter.mpr ⟨hm, ?_⟩, hkey⟩,
      e, he, rfl, htarget⟩
    rw [decide_eq_true_eq, hkey]
    exact hk

/-- A loop that raises has met a cycle. -/
theorem cycle_of_error {remaining : List (String × Int)}
    {result : Except GraphError (List (List (GraphNode V)))}
    (h : LevelsLoop graph remaining result) :
    ∀ {placed : List String} {e : GraphError}, remaining = graph.pending placed →
      result = .error e → e = .cycle ∧ ∃ k, Relation.TransGen graph.Edge k k := by
  induction h with
  | done =>
      intro placed e _ he
      cases he
  | stuck hleft hstuck =>
      rintro placed e rfl he
      cases he
      exact ⟨rfl, cycle_of_stuck hleft hstuck⟩
  | round _ _ _ ih =>
      rintro placed e rfl he
      exact ih (foldl_place_ready placed) (Except.map_eq_error.mp he)

/-! ## Early levels -/

/-- Every level of a loop that returns holds all keys whose sources are placed. -/
theorem early_of_ok {remaining : List (String × Int)}
    {result : Except GraphError (List (List (GraphNode V)))}
    (h : LevelsLoop graph remaining result) :
    ∀ {placed : List String} {levels : List (List (GraphNode V))},
      remaining = graph.pending placed → result = .ok levels →
      Layers.Layered (·.key) graph.Edge placed levels →
      (∀ n ∈ levels.flatten, n ∈ graph.nodes) →
        Layers.Early (·.key) graph.Edge placed levels ∧ ∀ level ∈ levels, level ≠ [] := by
  induction h with
  | done =>
      intro placed levels _ hok _ _
      cases hok
      exact ⟨trivial, fun level hlevel => by cases hlevel⟩
  | stuck =>
      intro placed levels _ hok _ _
      cases hok
  | round hleft hready _ ih =>
      rintro placed levels rfl hok hlayered hknown
      obtain ⟨rest, hrest, rfl⟩ := Except.map_eq_ok.mp hok
      have hkeys : ((ready (graph.pending placed)).filterMap graph.nodeAt).map (·.key) =
          ready (graph.pending placed) :=
        map_key_filterMap_nodeAt fun k hk => (mem_ready_pending.mp hk).1
      have hlater : ∀ n ∈ rest.flatten, n ∈ graph.nodes := fun n hn =>
        hknown n (List.mem_flatten.mpr ((List.mem_flatten.mp hn).imp fun level hlevel =>
          ⟨List.mem_cons_of_mem _ hlevel.1, hlevel.2⟩))
      have hnext := hlayered.2.2
      obtain ⟨hearly, hnonempty⟩ := @ih (placed ++ ready (graph.pending placed)) _
        (foldl_place_ready placed) hrest (hkeys ▸ hnext) hlater
      rw [← hkeys] at hearly
      refine ⟨⟨fun n hn => ?_, hearly⟩, fun level hlevel => ?_⟩
      · -- a node of a later level was not ready in this round
        have hfree := hnext.notPlaced n hn
        rw [hkeys, List.mem_append, not_or] at hfree
        by_contra hnone
        refine hfree.2 (mem_ready_pending.mpr
          ⟨List.mem_map_of_mem (hlater n hn), hfree.1, fun k hk => ?_⟩)
        by_contra hk'
        exact hnone ⟨k, hk, hk'⟩
      · rcases List.mem_cons.mp hlevel with rfl | hlevel
        · intro hnil
          rw [hnil] at hkeys
          exact hready hkeys.symm
        · exact hnonempty level hlevel

/-! ## The layering -/

/-- `levels` ends for every graph.  It raises exactly if the edges have a cycle.  Otherwise every
node stands in exactly one level, no level is empty, and the index of a node's level is the length
of the longest path that ends in it. -/
theorem levels_longest_paths (graph : WorkflowGraph V) :
    LevelsLoop graph graph.indegree graph.levels ∧
      ((∃ e, graph.levels = .error e) ↔ ∃ k, Relation.TransGen graph.Edge k k) ∧
      ∀ levels, graph.levels = .ok levels →
        levels.flatten.Perm graph.nodes ∧ (∀ level ∈ levels, level ≠ []) ∧
          ∀ i level, levels[i]? = some level → ∀ n ∈ level,
            Layers.LongestPath graph.Edge i n.key := by
  have hloop := loop_levels graph
  have hindegree : graph.indegree = graph.pending [] := indegree_eq_pending
  have hlevels : ∀ levels, graph.levels = .ok levels →
      levels.flatten.Perm graph.nodes ∧ (∀ level ∈ levels, level ≠ []) ∧
        ∀ i level, levels[i]? = some level → ∀ n ∈ level,
          Layers.LongestPath graph.Edge i n.key := by
    intro levels hok
    obtain ⟨hlayered, hperm⟩ := levels_layered hok
    obtain ⟨hearly, hnonempty⟩ := early_of_ok hloop hindegree hok hlayered
      fun n hn => hperm.mem_iff.mp hn
    exact ⟨hperm, hnonempty, fun i level hi n hn => Layers.longest hlayered hearly hi hn⟩
  refine ⟨hloop, ⟨fun ⟨e, he⟩ => (cycle_of_error hloop hindegree he).2, ?_⟩, hlevels⟩
  rintro ⟨k, hcycle⟩
  cases hresult : graph.levels with
  | error e => exact ⟨e, rfl⟩
  | ok levels =>
      obtain ⟨hperm, -, hlongest⟩ := hlevels levels hresult
      -- a key on a cycle has an edge, so it is the key of a node
      have hknown : k ∈ graph.nodes.map (·.key) := by
        obtain ⟨j, -, e, he, -, rfl⟩ := Relation.TransGen.tail'_iff.mp hcycle
        exact (graph.edges_known e he).2
      obtain ⟨n, hn, rfl⟩ := List.mem_map.mp hknown
      obtain ⟨level, hlevel, hin⟩ := List.mem_flatten.mp (hperm.mem_iff.mpr hn)
      obtain ⟨i, hi⟩ := List.mem_iff_getElem?.mp hlevel
      exact absurd hcycle (hlongest i level hi n hin).no_cycle

end WorkflowGraph

end YoutubeFactory.Workflow
