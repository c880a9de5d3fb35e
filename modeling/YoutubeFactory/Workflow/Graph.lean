import YoutubeFactory.Lib.Except
import YoutubeFactory.Lib.Keyed
import YoutubeFactory.Lib.Layers
import YoutubeFactory.Python.Object
import Mathlib.Data.List.Sort

/-!
# Workflow graphs

`WorkflowGraph` of `app/core/workflow/engine.py`.  The constructor refuses duplicate
keys and edges to unknown nodes, so a graph carries both facts as fields.

`levels` takes away, round after round, the nodes whose incoming edges are all used
up.  Its remaining counts are those of `pending` (`place_pending`), and the levels it
returns are layered by the edges (`levels_layered`).
-/

namespace YoutubeFactory.Workflow

open Python

/-! ## Graphs -/

structure GraphNode (V : Type) where
  key : String
  type : String
  config : Dict V

structure GraphEdge where
  source : String
  target : String
  condition : Option String
deriving DecidableEq, Repr

/-- The `WorkflowError`s of the graph. -/
inductive GraphError where
  | duplicateKeys
  | unknownNode (source target : String)
  | cycle
deriving DecidableEq, Repr

def GraphError.message : GraphError → String
  | .duplicateKeys => "Duplicate node keys in workflow graph."
  | .unknownNode _ _ => "Edge references an unknown node."
  | .cycle => "Workflow graph contains a cycle."

/-- A validated graph, ready to execute. -/
structure WorkflowGraph (V : Type) where
  nodes : List (GraphNode V)
  edges : List GraphEdge
  keys_nodup : (nodes.map (·.key)).Nodup
  edges_known : ∀ e ∈ edges, e.source ∈ nodes.map (·.key) ∧ e.target ∈ nodes.map (·.key)

variable {V : Type}

/-- `WorkflowGraph.__init__` -/
def WorkflowGraph.init (nodes : List (GraphNode V)) (edges : List GraphEdge) :
    Except GraphError (WorkflowGraph V) :=
  if hkeys : (nodes.map (·.key)).Nodup then
    match hunknown : edges.find? fun e =>
        e.source ∉ nodes.map (·.key) ∨ e.target ∉ nodes.map (·.key) with
    | some e => .error (.unknownNode e.source e.target)
    | none =>
        .ok {
          nodes, edges
          keys_nodup := hkeys
          edges_known := fun e he => by
            have hknown := List.find?_eq_none.mp hunknown e he
            simpa [not_or] using hknown }
  else .error .duplicateKeys

namespace WorkflowGraph

variable (graph : WorkflowGraph V)

def incoming (key : String) : List GraphEdge := graph.edges.filter fun e => e.target = key

def outgoing (key : String) : List GraphEdge := graph.edges.filter fun e => e.source = key

/-- `self.nodes[key]` -/
def nodeAt (key : String) : Option (GraphNode V) := graph.nodes.find? fun n => n.key = key

/-! ## Levels -/

/-- The number of incoming edges of each node. -/
def indegree : List (String × Int) :=
  graph.nodes.map fun n => (n.key, ((graph.incoming n.key).length : Int))

end WorkflowGraph

/-- The keys without remaining edges, sorted. -/
def ready (remaining : List (String × Int)) : List String :=
  ((remaining.filter fun r => r.2 = 0).map Prod.fst).insertionSort fun s t => strLe s t

/-- `remaining[target] -= 1`, if it is there. -/
def decrement (remaining : List (String × Int)) (edge : GraphEdge) : List (String × Int) :=
  remaining.map fun r => if r.1 = edge.target then (r.1, r.2 - 1) else r

namespace WorkflowGraph

variable (graph : WorkflowGraph V)

/-- One ready key is taken away, and its outgoing edges are used up. -/
def place (remaining : List (String × Int)) (key : String) : List (String × Int) :=
  (graph.outgoing key).foldl decrement (remaining.filter fun r => r.1 ≠ key)

/-- The loop of `levels`.  The fuel is the number of nodes: every round places one. -/
def levelsFrom : Nat → List (String × Int) → Except GraphError (List (List (GraphNode V)))
  | 0, remaining => if remaining = [] then .ok [] else .error .cycle
  | fuel + 1, remaining =>
      if remaining = [] then .ok []
      else if ready remaining = [] then .error .cycle
      else do
        let rest ← levelsFrom fuel ((ready remaining).foldl graph.place remaining)
        return (ready remaining).filterMap graph.nodeAt :: rest

/-- `levels` -/
def levels : Except GraphError (List (List (GraphNode V))) := do
  let result ← graph.levelsFrom graph.nodes.length graph.indegree
  if result.flatten.length ≠ graph.nodes.length then .error .cycle
  else return result

/-- An edge leads from one key to the other. -/
def Edge (source target : String) : Prop :=
  ∃ e ∈ graph.edges, e.source = source ∧ e.target = target

/-! ## The remaining counts -/

/-- How many incoming edges of a node come from sources that are not placed. -/
def unplaced (placed : List String) (key : String) : Nat :=
  graph.edges.countP fun e => e.target = key ∧ e.source ∉ placed

/-- The remaining counts once some keys are placed. -/
def pending (placed : List String) : List (String × Int) :=
  (graph.nodes.filter fun n => n.key ∉ placed).map fun n =>
    (n.key, (graph.unplaced placed n.key : Int))

end WorkflowGraph

theorem foldl_decrement (edges : List GraphEdge) :
    ∀ remaining : List (String × Int), edges.foldl decrement remaining =
      remaining.map fun r =>
        (r.1, r.2 - ((edges.countP fun e => e.target = r.1 : Nat) : Int)) := by
  induction edges with
  | nil => intro remaining; simp
  | cons e edges ih =>
      intro remaining
      rw [List.foldl_cons, ih, decrement, List.map_map]
      refine List.map_congr_left fun r _ => ?_
      rw [Function.comp_apply, List.countP_cons]
      by_cases htarget : r.1 = e.target
      · rw [if_pos htarget]
        simp only [htarget, decide_true, if_true, Prod.mk.injEq, true_and]
        omega
      · rw [if_neg htarget]
        simp [Ne.symm htarget]

namespace WorkflowGraph

variable {graph : WorkflowGraph V}

theorem indegree_eq_pending : graph.indegree = graph.pending [] := by
  unfold indegree pending unplaced incoming
  simp [List.countP_eq_length_filter]

/-- Placing a key uses up its outgoing edges. -/
theorem unplaced_append {placed : List String} {key : String} (hkey : key ∉ placed)
    (target : String) :
    graph.unplaced placed target = graph.unplaced (placed ++ [key]) target +
      (graph.outgoing key).countP fun e => e.target = target := by
  unfold unplaced outgoing
  rw [List.countP_filter]
  induction graph.edges with
  | nil => rfl
  | cons e edges ih =>
      rw [List.countP_cons, List.countP_cons, List.countP_cons, ih]
      by_cases htarget : e.target = target
      · by_cases hsource : e.source = key
        · simp [htarget, hsource, hkey]
          omega
        · simp [htarget, hsource]
          omega
      · simp [htarget]

theorem place_pending {placed : List String} {key : String} (hkey : key ∉ placed) :
    graph.place (graph.pending placed) key = graph.pending (placed ++ [key]) := by
  unfold place
  rw [foldl_decrement]
  unfold pending
  rw [List.filter_map, List.map_map, List.filter_filter]
  have hfilter : (graph.nodes.filter fun n =>
      ((fun r : String × Int => decide (r.1 ≠ key)) ∘ fun n =>
        (n.key, (graph.unplaced placed n.key : Int))) n && decide (n.key ∉ placed)) =
      graph.nodes.filter fun n => n.key ∉ placed ++ [key] := by
    refine List.filter_congr fun n _ => ?_
    simp [and_comm]
  rw [hfilter]
  refine List.map_congr_left fun n _ => ?_
  rw [Function.comp_apply, unplaced_append hkey n.key]
  simp

theorem foldl_place_pending :
    ∀ {keys : List String} {placed : List String}, keys.Nodup → (∀ k ∈ keys, k ∉ placed) →
      keys.foldl graph.place (graph.pending placed) = graph.pending (placed ++ keys)
  | [], placed, _, _ => by rw [List.foldl_nil, List.append_nil]
  | key :: keys, placed, hnodup, hkeys => by
      rw [List.nodup_cons] at hnodup
      rw [List.foldl_cons, place_pending (hkeys key List.mem_cons_self),
        foldl_place_pending hnodup.2, List.append_assoc, List.singleton_append]
      intro k hk hplaced
      rcases List.mem_append.mp hplaced with hold | hnew
      · exact hkeys k (List.mem_cons_of_mem key hk) hold
      · rw [List.mem_singleton] at hnew
        exact hnodup.1 (hnew ▸ hk)

/-! ## The ready keys -/

theorem unplaced_eq_zero_iff {placed : List String} {key : String} :
    graph.unplaced placed key = 0 ↔ ∀ k, graph.Edge k key → k ∈ placed := by
  unfold unplaced Edge
  rw [List.countP_eq_zero]
  constructor
  · rintro h k ⟨e, he, rfl, rfl⟩
    simpa using h e he
  · intro h e he
    simpa using fun htarget => h e.source ⟨e, he, rfl, htarget⟩

theorem mem_ready_pending {placed : List String} {key : String} :
    key ∈ ready (graph.pending placed) ↔ key ∈ graph.nodes.map (·.key) ∧ key ∉ placed ∧
      ∀ k, graph.Edge k key → k ∈ placed := by
  rw [← unplaced_eq_zero_iff]
  unfold ready pending
  rw [List.mem_insertionSort]
  simp only [List.mem_map, List.mem_filter, decide_eq_true_eq]
  constructor
  · rintro ⟨_, ⟨⟨n, ⟨hn, hplaced⟩, rfl⟩, hzero⟩, rfl⟩
    exact ⟨⟨n, hn, rfl⟩, hplaced, by simpa using hzero⟩
  · rintro ⟨⟨n, hn, rfl⟩, hplaced, hzero⟩
    exact ⟨_, ⟨⟨n, ⟨hn, hplaced⟩, rfl⟩, by simpa using hzero⟩, rfl⟩

theorem nodup_ready_pending (placed : List String) : (ready (graph.pending placed)).Nodup := by
  unfold ready
  rw [(List.perm_insertionSort _ _).nodup_iff]
  refine ((List.filter_sublist.map Prod.fst).trans ?_).nodup graph.keys_nodup
  unfold pending
  rw [List.map_map]
  exact List.filter_sublist.map _

theorem nodeAt_eq_some {key : String} {n : GraphNode V} (h : graph.nodeAt key = some n) :
    n ∈ graph.nodes ∧ n.key = key :=
  ⟨List.mem_of_find?_eq_some h, by simpa using List.find?_some h⟩

theorem exists_nodeAt {key : String} (h : key ∈ graph.nodes.map (·.key)) :
    ∃ n, graph.nodeAt key = some n := by
  obtain ⟨n, hn, rfl⟩ := List.mem_map.mp h
  refine Option.isSome_iff_exists.mp (List.find?_isSome.mpr ⟨n, hn, by simp⟩)

/-- The nodes of known keys, in their order. -/
theorem map_key_filterMap_nodeAt :
    ∀ {keys : List String}, (∀ k ∈ keys, k ∈ graph.nodes.map (·.key)) →
      (keys.filterMap graph.nodeAt).map (·.key) = keys
  | [], _ => rfl
  | key :: keys, h => by
      rw [List.forall_mem_cons] at h
      obtain ⟨n, hn⟩ := exists_nodeAt h.1
      rw [List.filterMap_cons_some hn, List.map_cons, map_key_filterMap_nodeAt h.2,
        (nodeAt_eq_some hn).2]

/-! ## The levels -/

theorem layered_of_pending_nil {placed : List String} (h : graph.pending placed = []) :
    Layers.Layered (·.key) graph.Edge placed ([] : List (List (GraphNode V))) ∧
      (∀ n ∈ ([] : List (List (GraphNode V))).flatten, n ∈ graph.nodes) ∧
      ∀ k ∈ graph.nodes.map (·.key),
        k ∈ placed ++ ([] : List (List (GraphNode V))).flatten.map (·.key) := by
  refine ⟨trivial, fun n hn => absurd hn List.not_mem_nil, fun k hk => ?_⟩
  rw [List.flatten_nil, List.map_nil, List.append_nil]
  obtain ⟨n, hn, rfl⟩ := List.mem_map.mp hk
  have hnone := List.filter_eq_nil_iff.mp (List.map_eq_nil_iff.mp h) n hn
  simpa using hnone

/-- What the loop returns goes on top of what is placed, and places every node. -/
theorem levelsFrom_layered :
    ∀ {fuel : Nat} {placed : List String} {levels : List (List (GraphNode V))},
      graph.levelsFrom fuel (graph.pending placed) = .ok levels →
      Layers.Layered (·.key) graph.Edge placed levels ∧
        (∀ n ∈ levels.flatten, n ∈ graph.nodes) ∧
        ∀ k ∈ graph.nodes.map (·.key), k ∈ placed ++ levels.flatten.map (·.key) := by
  intro fuel
  induction fuel with
  | zero =>
      intro placed levels h
      rw [levelsFrom] at h
      split at h
      · next hpending =>
          cases h
          exact layered_of_pending_nil hpending
      · cases h
  | succ fuel ih =>
      intro placed levels h
      rw [levelsFrom] at h
      split at h
      · next hpending =>
          cases h
          exact layered_of_pending_nil hpending
      · split at h
        · cases h
        · have hready : ∀ k ∈ ready (graph.pending placed), k ∉ placed :=
            fun k hk => (mem_ready_pending.mp hk).2.1
          have hkeys : ((ready (graph.pending placed)).filterMap graph.nodeAt).map (·.key) =
              ready (graph.pending placed) :=
            map_key_filterMap_nodeAt fun k hk => (mem_ready_pending.mp hk).1
          rw [foldl_place_pending (nodup_ready_pending placed) hready] at h
          obtain ⟨rest, hrest, hlevels⟩ := Except.bind_eq_ok.mp h
          cases hlevels
          obtain ⟨hlayered, hknown, hall⟩ := ih hrest
          rw [← hkeys] at hlayered hall
          refine ⟨⟨?_, ?_, hlayered⟩, ?_, ?_⟩
          · rw [hkeys]
            exact nodup_ready_pending placed
          · intro n hn
            have hmem : n.key ∈ ready (graph.pending placed) := by
              rw [← hkeys]
              exact List.mem_map_of_mem hn
            exact (mem_ready_pending.mp hmem).2
          · intro n hn
            rw [List.flatten_cons, List.mem_append] at hn
            rcases hn with hfirst | hlater
            · obtain ⟨k, -, hk⟩ := List.mem_filterMap.mp hfirst
              exact (nodeAt_eq_some hk).1
            · exact hknown n hlater
          · intro k hk
            rw [List.flatten_cons, List.map_append, ← List.append_assoc]
            exact hall k hk

/-- The loop places every node once. -/
theorem levelsFrom_perm {fuel : Nat} {levels : List (List (GraphNode V))}
    (h : graph.levelsFrom fuel graph.indegree = .ok levels) :
    Layers.Layered (·.key) graph.Edge [] levels ∧ levels.flatten.Perm graph.nodes := by
  rw [indegree_eq_pending] at h
  obtain ⟨hlayered, hknown, hall⟩ := levelsFrom_layered h
  refine ⟨hlayered, (List.perm_ext_iff_of_nodup ?_ ?_).mpr fun n => ⟨hknown n, fun hn => ?_⟩⟩
  · exact hlayered.nodup_keys.of_map
  · exact graph.keys_nodup.of_map
  · exact (Keyed.key_mem_iff graph.keys_nodup hknown hn).mp
      (hall n.key (List.mem_map_of_mem hn))

/-- So the defensive count at the end finds all nodes. -/
theorem levels_eq : graph.levels = graph.levelsFrom graph.nodes.length graph.indegree := by
  rw [levels]
  cases hloop : graph.levelsFrom graph.nodes.length graph.indegree with
  | error e => rfl
  | ok result => exact if_neg (not_not.mpr (levelsFrom_perm hloop).2.length_eq)

/-- Every node stands in exactly one level, later than the sources of its edges. -/
theorem levels_layered {levels : List (List (GraphNode V))} (h : graph.levels = .ok levels) :
    Layers.Layered (·.key) graph.Edge [] levels ∧ levels.flatten.Perm graph.nodes :=
  levelsFrom_perm (levels_eq ▸ h)

end WorkflowGraph

end YoutubeFactory.Workflow
