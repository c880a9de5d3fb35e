import YoutubeFactory.Lib.Sorting
import YoutubeFactory.Python.Value
import YoutubeFactory.Workflow.Engine

/-!
# The order of the rows

Nodes and edges come from the database in no particular order.  The levels of a graph
are sorted by key, so they depend on the sets of rows only (`Reordered.levels`).
What depends on the order is `_is_reachable`: it stops at the first incoming edge
that holds, and an edge behind it that raises is not looked at.

The run is compared with the one in which an edge that holds decides before one that
raises (`Engine.runLenient`), which no order of rows changes.  Every order follows it
up to the first node with edges of both kinds (`Engine.follows_or_stops`), some order
follows it to the end (`Engine.exists_following`), and some order stops at that node
(`Engine.levels_stop`).
-/

namespace YoutubeFactory.Workflow

open Python

section

variable {V : Type}

/-! ## The levels -/

/-- The same rows in another order. -/
def Reordered (graph graph' : WorkflowGraph V) : Prop :=
  graph.nodes.Perm graph'.nodes ∧ graph.edges.Perm graph'.edges

/-- The rows of a valid graph make a valid graph in every order. -/
theorem init_reordered {nodes nodes' : List (GraphNode V)} {edges edges' : List GraphEdge}
    {graph : WorkflowGraph V} (h : WorkflowGraph.init nodes edges = .ok graph)
    (hnodes : nodes.Perm nodes') (hedges : edges.Perm edges') :
    ∃ graph', WorkflowGraph.init nodes' edges' = .ok graph' ∧ Reordered graph graph' := by
  unfold WorkflowGraph.init at h ⊢
  split at h
  · next hkeys =>
      rw [dif_pos ((hnodes.map _).nodup_iff.mp hkeys)]
      split at h
      · cases h
      · next hknown =>
          cases h
          split
          · next e hunknown =>
              have he := hedges.mem_iff.mpr (List.mem_of_find?_eq_some hunknown)
              have hnot := List.find?_eq_none.mp hknown e he
              have hsome := List.find?_some hunknown
              simp only [(hnodes.map (·.key)).mem_iff] at hnot
              exact absurd hsome hnot
          · exact ⟨_, rfl, hnodes, hedges⟩
  · cases h

namespace Reordered

variable {graph graph' : WorkflowGraph V}

theorem incoming (h : Reordered graph graph') (key : String) :
    (graph.incoming key).Perm (graph'.incoming key) := h.2.filter _

theorem nodeAt (h : Reordered graph graph') (key : String) :
    graph.nodeAt key = graph'.nodeAt key := by
  cases hnode : graph.nodeAt key with
  | none =>
      refine (List.find?_eq_none.mpr fun n hn => ?_).symm
      exact List.find?_eq_none.mp hnode n (h.1.mem_iff.mpr hn)
  | some n =>
      obtain ⟨hn, hkey⟩ := WorkflowGraph.nodeAt_eq_some hnode
      have hknown : key ∈ graph'.nodes.map (·.key) :=
        hkey ▸ List.mem_map_of_mem (h.1.mem_iff.mp hn)
      obtain ⟨m, hm⟩ := WorkflowGraph.exists_nodeAt hknown
      obtain ⟨hmem, hkey'⟩ := WorkflowGraph.nodeAt_eq_some hm
      rw [hm, List.inj_on_of_nodup_map graph'.keys_nodup hmem (h.1.mem_iff.mp hn)
        (hkey'.trans hkey.symm)]

theorem ready {remaining remaining' : List (String × Int)} (h : remaining.Perm remaining') :
    Workflow.ready remaining = Workflow.ready remaining' :=
  Sorting.insertionSort_eq_of_perm strLe_total (fun _ _ _ => strLe_trans)
    (fun _ _ _ _ => strLe_antisymm) ((h.filter _).map _)

theorem place (h : Reordered graph graph') {remaining remaining' : List (String × Int)}
    (hperm : remaining.Perm remaining') (key : String) :
    (graph.place remaining key).Perm (graph'.place remaining' key) := by
  unfold WorkflowGraph.place
  rw [foldl_decrement, foldl_decrement]
  have hcount : ∀ r : String × Int, (graph.outgoing key).countP (fun e => e.target = r.1) =
      (graph'.outgoing key).countP fun e => e.target = r.1 :=
    fun r => List.Perm.countP_eq _ (h.2.filter _)
  simp only [hcount]
  exact (hperm.filter _).map _

theorem foldl_place (h : Reordered graph graph') :
    ∀ (keys : List String) {remaining remaining' : List (String × Int)},
      remaining.Perm remaining' →
      (keys.foldl graph.place remaining).Perm (keys.foldl graph'.place remaining')
  | [], _, _, hperm => hperm
  | key :: keys, _, _, hperm => foldl_place h keys (h.place hperm key)

theorem levelsFrom (h : Reordered graph graph') :
    ∀ (fuel : Nat) {remaining remaining' : List (String × Int)}, remaining.Perm remaining' →
      graph.levelsFrom fuel remaining = graph'.levelsFrom fuel remaining' := by
  intro fuel
  induction fuel with
  | zero =>
      intro remaining remaining' hperm
      rw [WorkflowGraph.levelsFrom, WorkflowGraph.levelsFrom]
      exact if_congr
        ⟨fun hnil => (hnil ▸ hperm).nil_eq.symm, fun hnil => (hnil ▸ hperm).eq_nil⟩ rfl rfl
  | succ fuel ih =>
      intro remaining remaining' hperm
      have hnodeAt : graph.nodeAt = graph'.nodeAt := funext h.nodeAt
      rw [WorkflowGraph.levelsFrom, WorkflowGraph.levelsFrom, ready hperm,
        ih (h.foldl_place _ hperm), hnodeAt]
      exact if_congr
        ⟨fun hnil => (hnil ▸ hperm).nil_eq.symm, fun hnil => (hnil ▸ hperm).eq_nil⟩ rfl rfl

/-- The levels depend on the sets of nodes and edges only. -/
theorem levels (h : Reordered graph graph') : graph.levels = graph'.levels := by
  unfold WorkflowGraph.levels WorkflowGraph.indegree
  have hindegree : ∀ n : GraphNode V,
      (graph.incoming n.key).length = (graph'.incoming n.key).length :=
    fun n => (h.incoming n.key).length_eq
  simp only [hindegree, h.1.length_eq]
  rw [h.levelsFrom _ (h.1.map _)]

end Reordered

/-! ## Edges that hold and edges that raise -/

variable [PyObject V]

namespace Engine

variable (engine : Engine V) (graph : WorkflowGraph V)

/-- The source of the edge was not skipped, and its condition is true. -/
def holds (context : Context V) (skipped : List String) (e : GraphEdge) : Bool :=
  decide (e.source ∉ skipped) &&
    match evaluateCondition engine.parse e.condition context with
    | .ok b => b
    | .error _ => false

/-- The source of the edge was not skipped, and its condition raises. -/
def raises (context : Context V) (skipped : List String) (e : GraphEdge) : Bool :=
  decide (e.source ∉ skipped) &&
    match evaluateCondition engine.parse e.condition context with
    | .ok _ => false
    | .error _ => true

/-- An entry point, or a node with an edge that holds. -/
def someHolds (key : String) (context : Context V) (skipped : List String) : Bool :=
  (graph.incoming key).isEmpty || (graph.incoming key).any (engine.holds context skipped)

def someRaises (key : String) (context : Context V) (skipped : List String) : Bool :=
  (graph.incoming key).any (engine.raises context skipped)

/-! ## The lenient run -/

/-- The first loop over a level, where an edge that holds decides before one that
raises.  Which exception is raised depends on the order of the edges, as does the reason
of a skip. -/
def siftLenient : List (GraphNode V) → RunState V →
    Except (Raised V) (List (GraphNode V) × RunState V)
  | [], s => .ok ([], s)
  | node :: nodes, s =>
      if engine.someHolds graph node.key s.context s.skipped then
        (siftLenient nodes s).map fun (runnable, s') => (node :: runnable, s')
      else if engine.someRaises graph node.key s.context s.skipped then
        .error (.workflowError "" [])
      else siftLenient nodes (s.skip node none)

/-- A level after its first loop. -/
def runBatch (runnable : List (GraphNode V)) (s : RunState V) : Except (Raised V) (RunState V) :=
  if runnable.isEmpty then .ok s
  else settle (runnable.map fun node => (node, engine.runNode node s.context))
    { s with context := engine.left runnable s.context }

def levelLenient (level : List (GraphNode V)) (s : RunState V) :
    Except (Raised V) (RunState V) := do
  let (runnable, s') ← engine.siftLenient graph level s
  engine.runBatch runnable s'

def runLenient : List (List (GraphNode V)) → RunState V → Except (Raised V) (RunState V)
  | [], s => .ok s
  | level :: levels, s => do
      let s' ← engine.levelLenient graph level s
      runLenient levels s'

/-- No node of a level has edges of both kinds when it is looked at. -/
def SiftClear : List (GraphNode V) → RunState V → Prop
  | [], _ => True
  | node :: nodes, s =>
      if engine.someHolds graph node.key s.context s.skipped then
        engine.someRaises graph node.key s.context s.skipped = false ∧ SiftClear nodes s
      else engine.someRaises graph node.key s.context s.skipped = false →
        SiftClear nodes (s.skip node none)

/-- Nor does one in the levels after it. -/
def LevelsClear : List (List (GraphNode V)) → RunState V → Prop
  | [], _ => True
  | level :: levels, s =>
      engine.SiftClear graph level s ∧
        ∀ s', engine.levelLenient graph level s = .ok s' → LevelsClear levels s'

end Engine

/-- The state a run starts from. -/
def RunState.start (context : Context V) : RunState V := ⟨context, [], []⟩

/-- No node that a run looks at has, among its edges from nodes that were not skipped, one
that holds and one that raises. -/
def Clear (engine : Engine V) (graph : WorkflowGraph V) (context : Context V) : Prop :=
  ∀ levels, graph.levels = .ok levels → engine.LevelsClear graph levels (.start context)

/-- Even if an edge that holds decides, the run raises and no outcomes are attached. -/
def EndsBare (engine : Engine V) (graph : WorkflowGraph V) (context : Context V) : Prop :=
  ∃ levels e, graph.levels = .ok levels ∧
    engine.runLenient graph levels (.start context) = .error e ∧ e.outcomes = []

/-! ## States and results that differ in reasons only -/

/-- An outcome without the reason of a skip. -/
def NodeOutcome.plain (o : NodeOutcome V) : NodeOutcome V := { o with skipReason := none }

/-- What is compared of an outcome. -/
def NodeOutcome.brief (o : NodeOutcome V) : String × Nat × NodeRunStatus :=
  (o.key, o.iteration, o.status)

structure Like (s t : RunState V) : Prop where
  context : s.context = t.context
  skipped : s.skipped = t.skipped
  outcomes : s.outcomes.map NodeOutcome.plain = t.outcomes.map NodeOutcome.plain

/-- Both return, in like states, or both raise, with like outcomes. -/
def LikeResult : Except (Raised V) (RunState V) → Except (Raised V) (RunState V) → Prop
  | .ok s, .ok t => Like s t
  | .error e, .error f =>
      e.outcomes.map NodeOutcome.plain = f.outcomes.map NodeOutcome.plain
  | _, _ => False

/-- It raises, and no outcomes are attached. -/
def Bare {α : Type} (r : Except (Raised V) α) : Prop := ∃ e, r = .error e ∧ e.outcomes = []

omit [PyObject V] in
theorem brief_of_plain {os ps : List (NodeOutcome V)}
    (h : os.map NodeOutcome.plain = ps.map NodeOutcome.plain) :
    os.map NodeOutcome.brief = ps.map NodeOutcome.brief := by
  have hbrief : ∀ l : List (NodeOutcome V),
      l.map NodeOutcome.brief = (l.map NodeOutcome.plain).map NodeOutcome.brief := by
    intro l
    rw [List.map_map]
    rfl
  rw [hbrief os, hbrief ps, h]

theorem Like.skip {s t : RunState V} (h : Like s t) (node : GraphNode V)
    (reason reason' : Option String) : Like (s.skip node reason) (t.skip node reason') where
  context := h.context
  skipped := congrArg (node.key :: ·) h.skipped
  outcomes := by
    unfold RunState.skip
    rw [List.map_append, List.map_append, h.outcomes]
    rfl

theorem Like.record {s t : RunState V} (h : Like s t) (node : GraphNode V)
    (result : List (NodeOutcome V)) : Like (s.record node result) (t.record node result) where
  context := by
    unfold RunState.record
    rw [h.context]
  skipped := h.skipped
  outcomes := by
    unfold RunState.record
    rw [List.map_append, List.map_append, h.outcomes]

/-- Outcomes are copied, or not, whatever the reasons of the skips. -/
theorem asdictAll_plain : ∀ os : List (NodeOutcome V),
    (asdictAll os).map (List.map NodeOutcome.plain) = asdictAll (os.map NodeOutcome.plain)
  | [] => rfl
  | o :: os => by
      rw [List.map_cons, asdictAll, asdictAll, ← asdictAll_plain os]
      have houtput : o.plain.output = o.output := rfl
      rw [houtput]
      cases PyObject.deepcopyError? o.output with
      | some exc => rfl
      | none =>
          cases asdictAll os with
          | error exc => rfl
          | ok copied => rfl

theorem nodeFailed_like {s t : RunState V} (h : Like s t) (node : GraphNode V)
    (result : Raised V) :
    (nodeFailed s node result).outcomes.map NodeOutcome.plain =
      (nodeFailed t node result).outcomes.map NodeOutcome.plain := by
  have hcopied := asdictAll_plain (s.outcomes ++ [failed node result.text])
  rw [List.map_append, h.outcomes, ← List.map_append, ← asdictAll_plain] at hcopied
  unfold nodeFailed
  cases hs : asdictAll (s.outcomes ++ [failed node result.text]) with
  | error exc =>
      rw [hs] at hcopied
      rw [Except.map_eq_error.mp hcopied.symm]
  | ok copied =>
      rw [hs] at hcopied
      obtain ⟨copied', hcopied', heq⟩ := Except.map_eq_ok.mp hcopied.symm
      rw [hcopied']
      exact heq.symm

namespace Engine

theorem settle_like :
    ∀ (results : List (GraphNode V × Except (Raised V) (List (NodeOutcome V)))) {s t : RunState V},
      Like s t → LikeResult (settle results s) (settle results t)
  | [], _, _, h => h
  | (node, .error result) :: _, _, _, h => nodeFailed_like h node result
  | (node, .ok result) :: rest, _, _, h => settle_like rest (h.record node result)

variable {engine : Engine V}

theorem runBatch_like (runnable : List (GraphNode V)) {s t : RunState V} (h : Like s t) :
    LikeResult (engine.runBatch runnable s) (engine.runBatch runnable t) := by
  unfold runBatch
  rw [h.context]
  split
  · exact h
  · exact settle_like _ ⟨rfl, h.skipped, h.outcomes⟩

theorem runLevel_eq (graph : WorkflowGraph V) (level : List (GraphNode V)) (s : RunState V) :
    engine.runLevel graph level s =
      (engine.sift graph level s >>= fun p => engine.runBatch p.1 p.2) := rfl

end Engine

/-! ## One node -/

namespace Engine

variable {engine : Engine V} {graph graph' : WorkflowGraph V} {node : GraphNode V}
  {context : Context V} {skipped : List String}

theorem someHolds_reordered (h : Reordered graph graph') (key : String) :
    engine.someHolds graph key context skipped = engine.someHolds graph' key context skipped := by
  unfold someHolds
  rw [(h.incoming key).any_eq, (h.incoming key).isEmpty_eq]

theorem someRaises_reordered (h : Reordered graph graph') (key : String) :
    engine.someRaises graph key context skipped = engine.someRaises graph' key context skipped :=
  (h.incoming key).any_eq

/-- What an answer says about the edges. -/
theorem checkEdges_answer (node : GraphNode V) (context : Context V) (skipped : List String) :
    ∀ (edges : List GraphEdge) (unmet : List String),
      match engine.checkEdges node context skipped edges unmet with
      | .ok (true, _) => edges.any (engine.holds context skipped) = true
      | .ok (false, _) =>
          edges.any (engine.holds context skipped) = false ∧
            edges.any (engine.raises context skipped) = false
      | .error _ => edges.any (engine.raises context skipped) = true
  | [], _ => ⟨rfl, rfl⟩
  | e :: edges, unmet => by
      rw [checkEdges, List.any_cons, List.any_cons]
      unfold holds raises
      by_cases hskipped : e.source ∈ skipped
      · rw [if_pos hskipped]
        simp only [hskipped, not_true_eq_false, decide_false, Bool.false_and, Bool.false_or]
        exact checkEdges_answer node context skipped edges _
      · rw [if_neg hskipped]
        simp only [hskipped, not_false_eq_true, decide_true, Bool.true_and]
        cases hcondition : evaluateCondition engine.parse e.condition context with
        | error err => rfl
        | ok b =>
            cases b with
            | true => rfl
            | false => exact checkEdges_answer node context skipped edges _

theorem isReachable_answer (graph : WorkflowGraph V) (node : GraphNode V) (context : Context V)
    (skipped : List String) :
    match engine.isReachable graph node context skipped with
    | .ok (true, _) => engine.someHolds graph node.key context skipped = true
    | .ok (false, _) =>
        engine.someHolds graph node.key context skipped = false ∧
          engine.someRaises graph node.key context skipped = false
    | .error _ => engine.someRaises graph node.key context skipped = true := by
  unfold isReachable someHolds someRaises
  by_cases hentry : graph.incoming node.key = []
  · rw [if_pos hentry, hentry]
    rfl
  · rw [if_neg hentry]
    have hanswer := @checkEdges_answer V _ engine node context skipped (graph.incoming node.key) []
    have hempty : (graph.incoming node.key).isEmpty = false := by simpa using hentry
    rw [hempty]
    exact hanswer

theorem isReachable_of_holds (hholds : engine.someHolds graph node.key context skipped = true)
    (hraises : engine.someRaises graph node.key context skipped = false) :
    ∃ reason, engine.isReachable graph node context skipped = .ok (true, reason) := by
  have hanswer := @isReachable_answer V _ engine graph node context skipped
  cases hreachable : engine.isReachable graph node context skipped with
  | error e =>
      rw [hreachable] at hanswer
      exact absurd (hanswer.symm.trans hraises) Bool.true_eq_false.mp
  | ok answer =>
      obtain ⟨b, reason⟩ := answer
      rw [hreachable] at hanswer
      cases b with
      | true => exact ⟨reason, rfl⟩
      | false => exact absurd (hanswer.1.symm.trans hholds) Bool.false_eq_true.mp

theorem isReachable_of_raises (hholds : engine.someHolds graph node.key context skipped = false)
    (hraises : engine.someRaises graph node.key context skipped = true) :
    ∃ e, engine.isReachable graph node context skipped = .error e := by
  have hanswer := @isReachable_answer V _ engine graph node context skipped
  cases hreachable : engine.isReachable graph node context skipped with
  | error e => exact ⟨e, rfl⟩
  | ok answer =>
      obtain ⟨b, reason⟩ := answer
      rw [hreachable] at hanswer
      cases b with
      | true => exact absurd (hanswer.symm.trans hholds) Bool.true_eq_false.mp
      | false => exact absurd (hanswer.2.symm.trans hraises) Bool.false_eq_true.mp

theorem isReachable_of_neither (hholds : engine.someHolds graph node.key context skipped = false)
    (hraises : engine.someRaises graph node.key context skipped = false) :
    ∃ reason, engine.isReachable graph node context skipped = .ok (false, reason) := by
  have hanswer := @isReachable_answer V _ engine graph node context skipped
  cases hreachable : engine.isReachable graph node context skipped with
  | error e =>
      rw [hreachable] at hanswer
      exact absurd (hanswer.symm.trans hraises) Bool.true_eq_false.mp
  | ok answer =>
      obtain ⟨b, reason⟩ := answer
      rw [hreachable] at hanswer
      cases b with
      | true => exact absurd (hanswer.symm.trans hholds) Bool.true_eq_false.mp
      | false => exact ⟨reason, rfl⟩

/-! ## One level -/

/-- Both loops pick the same nodes, in like states, or both raise without outcomes. -/
def SiftLike : Except (Raised V) (List (GraphNode V) × RunState V) →
    Except (Raised V) (List (GraphNode V) × RunState V) → Prop
  | .ok (runnable, s), .ok (runnable', t) => runnable = runnable' ∧ Like s t
  | .error e, .error f => e.outcomes = [] ∧ f.outcomes = []
  | _, _ => False

omit [PyObject V] in
theorem SiftLike.cons {r l : Except (Raised V) (List (GraphNode V) × RunState V)}
    (h : SiftLike r l) (node : GraphNode V) :
    SiftLike (r.map fun (runnable, s) => (node :: runnable, s))
      (l.map fun (runnable, s) => (node :: runnable, s)) := by
  cases r with
  | error e =>
      cases l with
      | error f => exact h
      | ok q => exact h
  | ok p =>
      cases l with
      | error f => exact h
      | ok q => exact ⟨congrArg (node :: ·) h.1, h.2⟩

omit [PyObject V] in
theorem ofEval_outcomes (e : EvalError) : (Raised.ofEval e : Raised V).outcomes = [] := by
  cases e <;> rfl

/-- The first loop at a node that is reached. -/
theorem sift_reached {reason : Option String} {nodes : List (GraphNode V)} {s : RunState V}
    (h : engine.isReachable graph node s.context s.skipped = .ok (true, reason)) :
    engine.sift graph (node :: nodes) s =
      (engine.sift graph nodes s).map fun (runnable, s') => (node :: runnable, s') := by
  rw [sift, h]

theorem sift_unreached {reason : Option String} {nodes : List (GraphNode V)} {s : RunState V}
    (h : engine.isReachable graph node s.context s.skipped = .ok (false, reason)) :
    engine.sift graph (node :: nodes) s = engine.sift graph nodes (s.skip node reason) := by
  rw [sift, h]

theorem sift_raises {e : EvalError} {nodes : List (GraphNode V)} {s : RunState V}
    (h : engine.isReachable graph node s.context s.skipped = .error e) :
    Bare (engine.sift graph (node :: nodes) s) := by
  rw [sift, h]
  exact ⟨.ofEval e, rfl, ofEval_outcomes e⟩

/-- The first loop over a level, with the edges in another order: it goes as the lenient
one, or stops at a node with edges of both kinds. -/
theorem sift_follows (hgraph : Reordered graph graph') :
    ∀ (nodes : List (GraphNode V)) {s t : RunState V}, Like s t →
      SiftLike (engine.sift graph' nodes s) (engine.siftLenient graph nodes t) ∨
        (Bare (engine.sift graph' nodes s) ∧ ¬ engine.SiftClear graph nodes t)
  | [], _, _, h => .inl ⟨rfl, h⟩
  | node :: nodes, s, t, h => by
      rw [siftLenient, SiftClear]
      have hholds := @someHolds_reordered V _ engine _ _ t.context t.skipped hgraph node.key
      have hraises := @someRaises_reordered V _ engine _ _ t.context t.skipped hgraph node.key
      rw [hholds, hraises, ← h.context, ← h.skipped]
      by_cases hsome : engine.someHolds graph' node.key s.context s.skipped = true
      · rw [if_pos hsome, if_pos hsome]
        cases hreachable : engine.isReachable graph' node s.context s.skipped with
        | error e =>
            have hanswer := @isReachable_answer V _ engine graph' node s.context s.skipped
            rw [hreachable] at hanswer
            exact .inr ⟨sift_raises hreachable, fun hclear =>
              Bool.false_eq_true.mp (hclear.1.symm.trans hanswer)⟩
        | ok answer =>
            obtain ⟨b, reason⟩ := answer
            have hanswer := @isReachable_answer V _ engine graph' node s.context s.skipped
            rw [hreachable] at hanswer
            cases b with
            | false => exact absurd (hanswer.1.symm.trans hsome) Bool.false_eq_true.mp
            | true =>
                rw [sift_reached hreachable]
                rcases sift_follows hgraph nodes h with hfollows | ⟨⟨e, hbare, hnone⟩, hclear⟩
                · exact .inl (hfollows.cons node)
                · rw [hbare]
                  exact .inr ⟨⟨e, rfl, hnone⟩, fun hboth => hclear hboth.2⟩
      · rw [if_neg hsome, if_neg hsome]
        rw [Bool.not_eq_true] at hsome
        cases hsomeRaises : engine.someRaises graph' node.key s.context s.skipped with
        | true =>
            obtain ⟨e, hreachable⟩ := isReachable_of_raises hsome hsomeRaises
            rw [if_pos rfl, sift, hreachable]
            exact .inl ⟨ofEval_outcomes e, rfl⟩
        | false =>
            obtain ⟨reason, hreachable⟩ := isReachable_of_neither hsome hsomeRaises
            rw [if_neg Bool.false_ne_true, sift_unreached hreachable]
            rcases sift_follows hgraph nodes (h.skip node reason none) with
              hfollows | ⟨hbare, hclear⟩
            · exact .inl hfollows
            · exact .inr ⟨hbare, fun himp => hclear (himp rfl)⟩

/-! ## All levels -/

omit [PyObject V] in
theorem Bare.bind {α β : Type} {r : Except (Raised V) α} (h : Bare r)
    (f : α → Except (Raised V) β) : Bare (r >>= f) := by
  obtain ⟨e, rfl, hnone⟩ := h
  exact ⟨e, rfl, hnone⟩

/-- A level whose first loops go alike. -/
theorem runLevel_like {level : List (GraphNode V)} {s t : RunState V}
    (h : SiftLike (engine.sift graph' level s) (engine.siftLenient graph level t)) :
    LikeResult (engine.runLevel graph' level s) (engine.levelLenient graph level t) := by
  rw [levelLenient, runLevel_eq]
  cases hs : engine.sift graph' level s with
  | error e =>
      rw [hs] at h
      cases ht : engine.siftLenient graph level t with
      | error f =>
          rw [ht] at h
          show e.outcomes.map NodeOutcome.plain = f.outcomes.map NodeOutcome.plain
          rw [h.1, h.2]
      | ok q =>
          rw [ht] at h
          exact h.elim
  | ok p =>
      rw [hs] at h
      cases ht : engine.siftLenient graph level t with
      | error f =>
          rw [ht] at h
          exact h.elim
      | ok q =>
          obtain ⟨runnable, s'⟩ := p
          obtain ⟨runnable', t'⟩ := q
          rw [ht] at h
          obtain ⟨rfl, hlike⟩ := h
          exact runBatch_like runnable hlike

/-- Levels after one that goes alike. -/
theorem runLevels_cons_like {level : List (GraphNode V)} (levels : List (List (GraphNode V)))
    {s t : RunState V}
    (h : LikeResult (engine.runLevel graph' level s) (engine.levelLenient graph level t)) :
    LikeResult (engine.runLevels graph' (level :: levels) s)
        (engine.runLenient graph (level :: levels) t) ∨
      ∃ s' t', engine.runLevel graph' level s = .ok s' ∧
        engine.levelLenient graph level t = .ok t' ∧ Like s' t' ∧
        engine.runLevels graph' (level :: levels) s = engine.runLevels graph' levels s' ∧
        engine.runLenient graph (level :: levels) t = engine.runLenient graph levels t' := by
  rw [runLevels, runLenient]
  cases hs : engine.runLevel graph' level s with
  | error e =>
      rw [hs] at h
      cases ht : engine.levelLenient graph level t with
      | error f =>
          rw [ht] at h
          exact .inl h
      | ok t' =>
          rw [ht] at h
          exact h.elim
  | ok s' =>
      rw [hs] at h
      cases ht : engine.levelLenient graph level t with
      | error f =>
          rw [ht] at h
          exact h.elim
      | ok t' =>
          rw [ht] at h
          exact .inr ⟨s', t', rfl, rfl, h, rfl, rfl⟩

theorem bare_runLevels {level : List (GraphNode V)} {levels : List (List (GraphNode V))}
    {s : RunState V} (h : Bare (engine.sift graph' level s)) :
    Bare (engine.runLevels graph' (level :: levels) s) := by
  rw [runLevels, runLevel_eq]
  exact Bare.bind (Bare.bind h _) _

/-- The levels with the edges in another order: they go as the lenient run, or stop at a
node with edges of both kinds. -/
theorem follows_or_stops (hgraph : Reordered graph graph') :
    ∀ (levels : List (List (GraphNode V))) {s t : RunState V}, Like s t →
      LikeResult (engine.runLevels graph' levels s) (engine.runLenient graph levels t) ∨
        (Bare (engine.runLevels graph' levels s) ∧ ¬ engine.LevelsClear graph levels t)
  | [], _, _, h => .inl h
  | level :: levels, s, t, h => by
      rcases sift_follows hgraph level h with hsift | ⟨hbare, hclear⟩
      · rcases runLevels_cons_like levels (runLevel_like hsift) with
          hlike | ⟨s', t', -, ht, hlike, hs', ht'⟩
        · exact .inl hlike
        · rw [hs', ht']
          rcases follows_or_stops hgraph levels hlike with hfollows | ⟨hbare, hclear⟩
          · exact .inl hfollows
          · exact .inr ⟨hbare, fun hall => hclear (hall.2 t' ht)⟩
      · exact .inr ⟨bare_runLevels hbare, fun hall => hclear hall.1⟩

/-! ## An order that stops -/

/-- An edge that raises is the first of its node. -/
def RaisesFirst (engine : Engine V) (graph : WorkflowGraph V) (key : String) (context : Context V)
    (skipped : List String) : Prop :=
  ∃ e es, graph.incoming key = e :: es ∧ engine.raises context skipped e = true

theorem isReachable_of_raisesFirst (h : RaisesFirst engine graph node.key context skipped) :
    ∃ e, engine.isReachable graph node context skipped = .error e := by
  obtain ⟨e, es, hincoming, hraises⟩ := h
  unfold raises at hraises
  obtain ⟨hskipped, hraises⟩ := Bool.and_eq_true_iff.mp hraises
  unfold isReachable
  rw [hincoming, if_neg (List.cons_ne_nil e es), checkEdges, if_neg (of_decide_eq_true hskipped)]
  cases hcondition : evaluateCondition engine.parse e.condition context with
  | error err => exact ⟨err, rfl⟩
  | ok b =>
      rw [hcondition] at hraises
      cases hraises

/-- A level with a node that has edges of both kinds stops there, if one that raises is
the first. -/
theorem sift_stops : ∀ (nodes : List (GraphNode V)) {t : RunState V},
    ¬ engine.SiftClear graph nodes t →
    ∃ key context skipped, engine.someRaises graph key context skipped = true ∧
      ∀ {graph' : WorkflowGraph V} {s : RunState V}, Reordered graph graph' →
        RaisesFirst engine graph' key context skipped → Like s t →
          Bare (engine.sift graph' nodes s)
  | [], _, h => absurd trivial h
  | node :: nodes, t, h => by
      rw [SiftClear] at h
      cases hraises : engine.someRaises graph node.key t.context t.skipped with
      | true =>
          refine ⟨node.key, t.context, t.skipped, hraises, fun {graph' s} _ hfirst hlike => ?_⟩
          rw [← hlike.context, ← hlike.skipped] at hfirst
          obtain ⟨e, he⟩ := isReachable_of_raisesFirst hfirst
          exact sift_raises he
      | false =>
          cases hholds : engine.someHolds graph node.key t.context t.skipped with
          | true =>
              rw [if_pos hholds, hraises, and_iff_right rfl] at h
              obtain ⟨key, context, skipped, hsome, hstops⟩ := sift_stops nodes h
              refine ⟨key, context, skipped, hsome, fun {graph' s} hgraph hfirst hlike => ?_⟩
              rw [someHolds_reordered hgraph, ← hlike.context, ← hlike.skipped] at hholds
              rw [someRaises_reordered hgraph, ← hlike.context, ← hlike.skipped] at hraises
              obtain ⟨reason, hreachable⟩ := isReachable_of_holds hholds hraises
              obtain ⟨e, hbare, hnone⟩ := hstops hgraph hfirst hlike
              rw [sift_reached hreachable, hbare]
              exact ⟨e, rfl, hnone⟩
          | false =>
              rw [if_neg (hholds ▸ Bool.false_ne_true), Classical.not_imp] at h
              obtain ⟨key, context, skipped, hsome, hstops⟩ := sift_stops nodes h.2
              refine ⟨key, context, skipped, hsome, fun {graph' s} hgraph hfirst hlike => ?_⟩
              rw [someHolds_reordered hgraph, ← hlike.context, ← hlike.skipped] at hholds
              rw [someRaises_reordered hgraph, ← hlike.context, ← hlike.skipped] at hraises
              obtain ⟨reason, hreachable⟩ := isReachable_of_neither hholds hraises
              rw [sift_unreached hreachable]
              exact hstops hgraph hfirst (hlike.skip node reason none)

/-- The same for all levels. -/
theorem levels_stop : ∀ (levels : List (List (GraphNode V))) {t : RunState V},
    ¬ engine.LevelsClear graph levels t →
    ∃ key context skipped, engine.someRaises graph key context skipped = true ∧
      ∀ {graph' : WorkflowGraph V} {s : RunState V}, Reordered graph graph' →
        RaisesFirst engine graph' key context skipped → Like s t →
          Bare (engine.runLevels graph' levels s)
  | [], _, h => absurd trivial h
  | level :: levels, t, h => by
      by_cases hclear : engine.SiftClear graph level t
      · have hlater : ¬ ∀ t', engine.levelLenient graph level t = .ok t' →
            engine.LevelsClear graph levels t' := fun hall => h ⟨hclear, hall⟩
        push Not at hlater
        obtain ⟨t', ht, hlater⟩ := hlater
        obtain ⟨key, context, skipped, hsome, hstops⟩ := levels_stop levels hlater
        refine ⟨key, context, skipped, hsome, fun {graph' s} hgraph hfirst hlike => ?_⟩
        rcases sift_follows hgraph level hlike with hsift | ⟨-, hnot⟩
        · have hlevel := runLevel_like hsift
          rw [ht] at hlevel
          cases hs : engine.runLevel graph' level s with
          | error e =>
              rw [hs] at hlevel
              exact hlevel.elim
          | ok s' =>
              rw [hs] at hlevel
              rw [runLevels, hs]
              exact hstops hgraph hfirst hlevel
        · exact absurd hclear hnot
      · obtain ⟨key, context, skipped, hsome, hstops⟩ := sift_stops level hclear
        exact ⟨key, context, skipped, hsome, fun hgraph hfirst hlike =>
          bare_runLevels (hstops hgraph hfirst hlike)⟩

/-! ## An order that follows the lenient run -/

/-- The edges of a kind come before the others. -/
def KindFirst (first : GraphEdge → Bool) (edges : List GraphEdge) : Prop :=
  edges.Pairwise fun a b => first b = true → first a = true

/-- Where the edges that hold come first, a node with one is reached. -/
theorem isReachable_of_holdsFirst
    (hfirst : KindFirst (engine.holds context skipped) (graph.incoming node.key))
    (hholds : engine.someHolds graph node.key context skipped = true) :
    ∃ reason, engine.isReachable graph node context skipped = .ok (true, reason) := by
  unfold isReachable
  unfold someHolds at hholds
  cases hincoming : graph.incoming node.key with
  | nil => exact ⟨none, rfl⟩
  | cons e es =>
      rw [hincoming] at hholds hfirst
      have hhead : engine.holds context skipped e = true := by
        rw [List.isEmpty_cons, Bool.false_or] at hholds
        obtain ⟨f, hf, hf'⟩ := List.any_eq_true.mp hholds
        rcases List.mem_cons.mp hf with rfl | hf
        · exact hf'
        · exact (List.pairwise_cons.mp hfirst).1 f hf hf'
      unfold holds at hhead
      obtain ⟨hskipped, hhead⟩ := Bool.and_eq_true_iff.mp hhead
      rw [if_neg (List.cons_ne_nil e es), checkEdges, if_neg (of_decide_eq_true hskipped)]
      cases hcondition : evaluateCondition engine.parse e.condition context with
      | error err =>
          rw [hcondition] at hhead
          cases hhead
      | ok b =>
          rw [hcondition] at hhead
          have hb : b = true := hhead
          subst hb
          exact ⟨none, rfl⟩

omit [PyObject V] in
/-- A kind that agrees with another on the edges into a node. -/
theorem KindFirst.congr {first first' : GraphEdge → Bool} {key : String}
    (h : KindFirst first (graph.incoming key))
    (hsame : ∀ e : GraphEdge, e.target = key → first e = first' e) :
    KindFirst first' (graph.incoming key) := by
  refine h.imp_of_mem fun {a b} ha hb hab => ?_
  have htarget : ∀ e ∈ graph.incoming key, e.target = key := fun e he => by
    simpa using (List.mem_filter.mp he).2
  rw [← hsame a (htarget a ha), ← hsame b (htarget b hb)]
  exact hab

/-- For some kind of edges, a level goes as the lenient one wherever they come first. -/
theorem exists_sift_following :
    ∀ (nodes : List (GraphNode V)) (t : RunState V), (nodes.map (·.key)).Nodup →
      ∃ first : GraphEdge → Bool, ∀ {graph' : WorkflowGraph V} {s : RunState V},
        Reordered graph graph' → (∀ n ∈ nodes, KindFirst first (graph'.incoming n.key)) →
          Like s t → SiftLike (engine.sift graph' nodes s) (engine.siftLenient graph nodes t)
  | [], _, _ => ⟨fun _ => false, fun _ _ hlike => ⟨rfl, hlike⟩⟩
  | node :: nodes, t, hnodup => by
      rw [List.map_cons, List.nodup_cons] at hnodup
      obtain ⟨first, hfollows⟩ := exists_sift_following nodes
        (if engine.someHolds graph node.key t.context t.skipped then t else t.skip node none)
        hnodup.2
      refine ⟨fun e => if e.target = node.key then engine.holds t.context t.skipped e else first e,
        fun {graph' s} hgraph hfirst hlike => ?_⟩
      rw [List.forall_mem_cons] at hfirst
      have hhere : KindFirst (engine.holds s.context s.skipped) (graph'.incoming node.key) :=
        hfirst.1.congr fun e he => by rw [if_pos he, hlike.context, hlike.skipped]
      have hlater : ∀ n ∈ nodes, KindFirst first (graph'.incoming n.key) := by
        refine fun n hn => (hfirst.2 n hn).congr fun e he => if_neg fun heq => hnodup.1 ?_
        rw [← heq, he]
        exact List.mem_map_of_mem hn
      rw [siftLenient]
      have hsame := @someHolds_reordered V _ engine _ _ t.context t.skipped hgraph node.key
      rw [hsame, ← hlike.context, ← hlike.skipped] at hfollows ⊢
      by_cases hholds : engine.someHolds graph' node.key s.context s.skipped = true
      · obtain ⟨reason, hreachable⟩ := isReachable_of_holdsFirst hhere hholds
        rw [if_pos hholds, sift_reached hreachable]
        rw [if_pos hholds] at hfollows
        exact (hfollows hgraph hlater hlike).cons node
      · rw [if_neg hholds]
        rw [if_neg hholds] at hfollows
        rw [Bool.not_eq_true] at hholds
        rw [someRaises_reordered hgraph]
        cases hraises : engine.someRaises graph' node.key s.context s.skipped with
        | true =>
            obtain ⟨e, hreachable⟩ := isReachable_of_raises hholds hraises
            rw [if_pos rfl, sift, hreachable]
            exact ⟨ofEval_outcomes e, rfl⟩
        | false =>
            obtain ⟨reason, hreachable⟩ := isReachable_of_neither hholds hraises
            rw [if_neg Bool.false_ne_true, sift_unreached hreachable]
            exact hfollows hgraph hlater (hlike.skip node reason none)

/-- The same for all levels. -/
theorem exists_following :
    ∀ (levels : List (List (GraphNode V))) (t : RunState V),
      (levels.flatten.map (·.key)).Nodup →
      ∃ first : GraphEdge → Bool, ∀ {graph' : WorkflowGraph V} {s : RunState V},
        Reordered graph graph' →
          (∀ n ∈ levels.flatten, KindFirst first (graph'.incoming n.key)) →
            Like s t →
              LikeResult (engine.runLevels graph' levels s) (engine.runLenient graph levels t)
  | [], _, _ => ⟨fun _ => false, fun _ _ hlike => hlike⟩
  | level :: levels, t, hnodup => by
      rw [List.flatten_cons, List.map_append, List.nodup_append] at hnodup
      obtain ⟨hlevel, hlevels, hdisjoint⟩ := hnodup
      obtain ⟨firstHere, hhere⟩ := exists_sift_following level t hlevel
      obtain ⟨firstLater, hlater⟩ := exists_following levels
        (match engine.levelLenient graph level t with
          | .ok t' => t'
          | .error _ => t) hlevels
      refine ⟨fun e => if e.target ∈ level.map (·.key) then firstHere e else firstLater e,
        fun {graph' s} hgraph hfirst hlike => ?_⟩
      rw [List.flatten_cons] at hfirst
      have hfirstHere : ∀ n ∈ level, KindFirst firstHere (graph'.incoming n.key) := fun n hn =>
        (hfirst n (List.mem_append_left _ hn)).congr fun e he =>
          if_pos (he ▸ List.mem_map_of_mem hn)
      have hfirstLater : ∀ n ∈ levels.flatten, KindFirst firstLater (graph'.incoming n.key) :=
        fun n hn => (hfirst n (List.mem_append_right _ hn)).congr fun e he => if_neg fun hmem =>
          hdisjoint e.target hmem n.key (List.mem_map_of_mem hn) he
      rcases runLevels_cons_like levels (runLevel_like (hhere hgraph hfirstHere hlike)) with
        hdone | ⟨s', t', -, ht, hlike', hs', ht'⟩
      · exact hdone
      · rw [ht] at hlater
        rw [hs', ht']
        exact hlater hgraph hfirstLater hlike'

end Engine

/-! ## Putting edges first -/

omit [PyObject V] in
/-- The edges of a kind are put before the others. -/
theorem exists_kindFirst (graph : WorkflowGraph V) (first : GraphEdge → Bool) :
    ∃ graph', Reordered graph graph' ∧ ∀ key, Engine.KindFirst first (graph'.incoming key) := by
  have hperm :
      graph.edges.Perm (graph.edges.filter first ++ graph.edges.filter fun e => !first e) :=
    (List.filter_append_perm first graph.edges).symm
  refine ⟨⟨graph.nodes, graph.edges.filter first ++ graph.edges.filter fun e => !first e,
    graph.keys_nodup, fun e he => graph.edges_known e (hperm.mem_iff.mpr he)⟩,
    ⟨List.Perm.refl _, hperm⟩, fun key => ?_⟩
  refine List.Pairwise.filter _ (List.pairwise_append.mpr ⟨?_, ?_, ?_⟩)
  · exact List.pairwise_of_forall_mem_list fun a ha b _ _ => (List.mem_filter.mp ha).2
  · refine List.pairwise_of_forall_mem_list fun a _ b hb hfirst => ?_
    have hnot := (List.mem_filter.mp hb).2
    rw [hfirst] at hnot
    cases hnot
  · exact fun a ha b _ _ => (List.mem_filter.mp ha).2

/-- An edge that raises is put before the others. -/
theorem exists_raisesFirst {engine : Engine V} {graph : WorkflowGraph V} {key : String}
    {context : Context V} {skipped : List String}
    (h : engine.someRaises graph key context skipped = true) :
    ∃ graph', Reordered graph graph' ∧ Engine.RaisesFirst engine graph' key context skipped := by
  obtain ⟨e, he, hraises⟩ := List.any_eq_true.mp h
  obtain ⟨hmem, htarget⟩ := List.mem_filter.mp he
  have hperm : graph.edges.Perm (e :: graph.edges.erase e) := List.perm_cons_erase hmem
  refine ⟨⟨graph.nodes, e :: graph.edges.erase e, graph.keys_nodup,
    fun f hf => graph.edges_known f (hperm.mem_iff.mpr hf)⟩, ⟨List.Perm.refl _, hperm⟩, e, _,
    List.filter_cons_of_pos htarget, hraises⟩

/-! ## The result of a run -/

/-- Both succeed, with the same context, or both raise; the nodes, passes and statuses of the
outcomes are the same. -/
def SameResult : Except (Raised V) (Context V × List (NodeOutcome V)) →
    Except (Raised V) (Context V × List (NodeOutcome V)) → Prop
  | .ok (context, outcomes), .ok (context', outcomes') =>
      context = context' ∧
        (outcomes.map NodeOutcome.brief).Perm (outcomes'.map NodeOutcome.brief)
  | .error e, .error f =>
      (e.outcomes.map NodeOutcome.brief).Perm (f.outcomes.map NodeOutcome.brief)
  | _, _ => False

/-- What `run` returns of its variables. -/
def RunState.result (s : RunState V) : Context V × List (NodeOutcome V) := (s.context, s.outcomes)

theorem run_of_levels {engine : Engine V} {graph : WorkflowGraph V}
    {levels : List (List (GraphNode V))} (h : graph.levels = .ok levels) (context : Context V) :
    engine.run graph context =
      (engine.runLevels graph levels (.start context)).map RunState.result := by
  unfold Engine.run
  rw [h]
  show (engine.runLevels graph levels (.start context) >>= _) = _
  cases engine.runLevels graph levels (.start context) with
  | error e => rfl
  | ok s => rfl

omit [PyObject V] in
theorem sameResult_of_like {r r' l : Except (Raised V) (RunState V)} (h : LikeResult r l)
    (h' : LikeResult r' l) : SameResult (r.map RunState.result) (r'.map RunState.result) := by
  cases l with
  | error f =>
      cases r with
      | ok s => exact h.elim
      | error e =>
          cases r' with
          | ok s' => exact h'.elim
          | error e' => exact .of_eq ((brief_of_plain h).trans (brief_of_plain h').symm)
  | ok t =>
      cases r with
      | error e => exact h.elim
      | ok s =>
          cases r' with
          | error e' => exact h'.elim
          | ok s' =>
              exact ⟨h.context.trans h'.context.symm,
                .of_eq ((brief_of_plain h.outcomes).trans (brief_of_plain h'.outcomes).symm)⟩

omit [PyObject V] in
theorem sameResult_of_bare {r r' : Except (Raised V) (Context V × List (NodeOutcome V))}
    (h : Bare r) (h' : Bare r') : SameResult r r' := by
  obtain ⟨e, rfl, hnone⟩ := h
  obtain ⟨e', rfl, hnone'⟩ := h'
  show (e.outcomes.map NodeOutcome.brief).Perm (e'.outcomes.map NodeOutcome.brief)
  rw [hnone, hnone']

omit [PyObject V] in
theorem SameResult.bare_iff {r r' : Except (Raised V) (Context V × List (NodeOutcome V))}
    (h : SameResult r r') : Bare r ↔ Bare r' := by
  have hnil : ∀ {os os' : List (NodeOutcome V)},
      (os.map NodeOutcome.brief).Perm (os'.map NodeOutcome.brief) → (os = [] ↔ os' = []) := by
    intro os os' hperm
    rw [← List.length_eq_zero_iff, ← List.length_eq_zero_iff]
    have hlength := hperm.length_eq
    rw [List.length_map, List.length_map] at hlength
    rw [hlength]
  cases r with
  | error e =>
      cases r' with
      | ok p => exact h.elim
      | error f =>
          constructor
          · rintro ⟨_, heq, hnone⟩
            cases heq
            exact ⟨f, rfl, (hnil h).mp hnone⟩
          · rintro ⟨_, heq, hnone⟩
            cases heq
            exact ⟨e, rfl, (hnil h).mpr hnone⟩
  | ok p =>
      cases r' with
      | error f => exact h.elim
      | ok q => exact iff_of_false nofun nofun

omit [PyObject V] in
theorem LikeResult.bare_iff {r l : Except (Raised V) (RunState V)} (h : LikeResult r l) :
    Bare (r.map RunState.result) ↔ Bare l := by
  cases r with
  | error e =>
      cases l with
      | ok t => exact h.elim
      | error f =>
          have hnil : e.outcomes = [] ↔ f.outcomes = [] := by
            rw [← List.map_eq_nil_iff (f := NodeOutcome.plain), h, List.map_eq_nil_iff]
          constructor
          · rintro ⟨_, heq, hnone⟩
            cases heq
            exact ⟨f, rfl, hnil.mp hnone⟩
          · rintro ⟨_, heq, hnone⟩
            cases heq
            exact ⟨e, rfl, hnil.mpr hnone⟩
  | ok s =>
      cases l with
      | error f => exact h.elim
      | ok t => exact iff_of_false nofun nofun

/-- A run does not depend on the order of the rows exactly when it looks at no node with an
edge that holds and an edge that raises, or raises without outcomes anyway. -/
theorem row_order_irrelevant_iff (engine : Engine V) (graph : WorkflowGraph V)
    (context : Context V) :
    (∀ graph', Reordered graph graph' →
      SameResult (engine.run graph context) (engine.run graph' context)) ↔
    Clear engine graph context ∨ EndsBare engine graph context := by
  cases hlevels : graph.levels with
  | error e =>
      refine iff_of_true (fun graph' hgraph => ?_) (.inl fun levels h => ?_)
      · unfold Engine.run
        rw [← hgraph.levels, hlevels]
        exact .refl _
      · rw [hlevels] at h
        cases h
  | ok levels =>
      have hrun : ∀ graph', Reordered graph graph' → engine.run graph' context =
          (engine.runLevels graph' levels (.start context)).map RunState.result :=
        fun graph' hgraph => run_of_levels (hgraph.levels ▸ hlevels) context
      have hself : Reordered graph graph := ⟨List.Perm.refl _, List.Perm.refl _⟩
      have hstart : Like (RunState.start context : RunState V) (.start context) := ⟨rfl, rfl, rfl⟩
      have hclear :
          Clear engine graph context ↔ engine.LevelsClear graph levels (.start context) := by
        unfold Clear
        rw [hlevels]
        simp
      have hbare : EndsBare engine graph context ↔
          Bare (engine.runLenient graph levels (.start context)) := by
        unfold EndsBare Bare
        rw [hlevels]
        simp
      rw [hclear, hbare]
      constructor
      · intro hsame
        refine or_iff_not_imp_left.mpr fun hmixed => ?_
        -- One order stops without outcomes, another one follows the lenient run.
        obtain ⟨key, c, skipped, hraises, hstops⟩ := Engine.levels_stop levels hmixed
        obtain ⟨stopping, hstopping, hfirst⟩ := exists_raisesFirst hraises
        have hstopped := hstops hstopping hfirst hstart
        have hnodup : (levels.flatten.map (·.key)).Nodup :=
          (WorkflowGraph.levels_layered hlevels).1.nodup_keys
        obtain ⟨first, hfollows⟩ :=
          @Engine.exists_following V _ engine graph levels (.start context) hnodup
        obtain ⟨following, hfollowing, hkind⟩ := exists_kindFirst graph first
        have hfollowed := hfollows hfollowing (fun n _ => hkind n.key) hstart
        rw [← hfollowed.bare_iff, ← hrun following hfollowing,
          ← (hsame following hfollowing).bare_iff, (hsame stopping hstopping).bare_iff,
          hrun stopping hstopping]
        obtain ⟨e, he, hnone⟩ := hstopped
        exact ⟨e, by rw [he]; rfl, hnone⟩
      · rintro hcond graph' hgraph
        rw [hrun graph hself, hrun graph' hgraph]
        have hfollows := fun g hg =>
          @Engine.follows_or_stops V _ engine graph g hg levels _ _ hstart
        rcases hcond with hclear | hbare
        · have hlike := fun g hg => (hfollows g hg).resolve_right fun h => h.2 hclear
          exact sameResult_of_like (hlike graph hself) (hlike graph' hgraph)
        · have hall : ∀ g, Reordered graph g →
              Bare ((engine.runLevels g levels (.start context)).map RunState.result) := by
            intro g hg
            rcases hfollows g hg with hlike | ⟨⟨e, he, hnone⟩, -⟩
            · exact hlike.bare_iff.mpr hbare
            · exact ⟨e, by rw [he]; rfl, hnone⟩
          exact sameResult_of_bare (hall graph hself) (hall graph' hgraph)

end

/-! ## A join with a condition that raises -/

/-- `a` and `b` lead to `merge`, from `a` under no condition, from `b` under one that cannot
be parsed. -/
def brokenJoin (edges : List GraphEdge)
    (h : ∀ e ∈ edges, e.source ∈ ["a", "b", "merge"] ∧ e.target ∈ ["a", "b", "merge"]) :
    WorkflowGraph (Value Empty) where
  nodes := ["a", "b", "merge"].map fun key => ⟨key, "task", ∅⟩
  edges := edges
  keys_nodup := by decide
  edges_known := h

/-- Every handler answers the key of its node, and no condition can be parsed. -/
def strictEngine : Engine (Value Empty) where
  parse _ := .error "invalid syntax"
  handlers _ := some fun node _ _ => .ok (.str node.key)
  seen _ _ context := context
  left _ context := context

/-- The run returns with the edges in one order, and raises with them in the other. -/
theorem order_decides_run :
    let graph := brokenJoin [⟨"a", "merge", none⟩, ⟨"b", "merge", some "ok("⟩] (by decide)
    let graph' := brokenJoin [⟨"b", "merge", some "ok("⟩, ⟨"a", "merge", none⟩] (by decide)
    Reordered graph graph' ∧
      (∃ context outcomes, strictEngine.run graph ∅ = .ok (context, outcomes) ∧
        outcomes.map NodeOutcome.brief =
          [("a", 0, .succeeded), ("b", 0, .succeeded), ("merge", 0, .succeeded)]) ∧
      ∃ e, strictEngine.run graph' ∅ = .error e ∧ e.outcomes = [] :=
  ⟨⟨List.Perm.refl _, List.Perm.swap _ _ _⟩, ⟨_, _, rfl, rfl⟩, _, rfl, rfl⟩

end YoutubeFactory.Workflow
