import YoutubeFactory.Python.Value
import YoutubeFactory.Workflow.Engine

/-!
# What a completed run means

A run that returns has decided every node: skipped, with one outcome, or run.  The
invariant of the level loop is `Settled`: the nodes placed so far are decided, the
skipped set and the context are what their outcomes say.  One level extends it
(`Settled.level`) and adds that its nodes ran exactly when they were reached, which
later levels do not change (`settled_runLevels`).
-/

namespace YoutubeFactory.Workflow

open Python

section

variable {V : Type} [PyObject V]

/-! ## Reading outcomes -/

/-- The outcomes of one node. -/
def ofKey (outcomes : List (NodeOutcome V)) (key : String) : List (NodeOutcome V) :=
  outcomes.filter fun o => o.key = key

/-- The node has exactly one outcome, a skip. -/
def IsSkipped (outcomes : List (NodeOutcome V)) : Prop :=
  outcomes.map (·.status) = [.skipped]

/-- The node has outcomes, all of them successes. -/
def IsRun (outcomes : List (NodeOutcome V)) : Prop :=
  outcomes ≠ [] ∧ ∀ o ∈ outcomes, o.status = .succeeded

/-- The node of a key ran. -/
def Ran (outcomes : List (NodeOutcome V)) (key : String) : Prop :=
  ∃ o ∈ outcomes, o.key = key ∧ o.status = .succeeded

instance (outcomes : List (NodeOutcome V)) (key : String) : Decidable (Ran outcomes key) :=
  inferInstanceAs (Decidable (∃ o ∈ outcomes, o.key = key ∧ o.status = .succeeded))

/-- The output of the node's last outcome. -/
def lastOutput (outcomes : List (NodeOutcome V)) (key : String) : V :=
  ((ofKey outcomes key).getLast?.map (·.output)).getD PyObject.none

/-- The context with the outputs of those of the nodes that ran. -/
def overlay (context : Context V) (outcomes : List (NodeOutcome V))
    (nodes : List (GraphNode V)) : Context V :=
  nodes.foldl (fun c n =>
    if Ran outcomes n.key then c.insert n.key (lastOutput outcomes n.key) else c) context

/-- A node is reached: it is an entry point, or some incoming edge has a source that
ran and a condition that holds. -/
def Reached (parse : String → Except String (Node V)) (graph : WorkflowGraph V)
    (context : Context V) (ran : String → Prop) (key : String) : Prop :=
  (∀ e ∈ graph.edges, e.target ≠ key) ∨
    ∃ e ∈ graph.edges, e.target = key ∧ ran e.source ∧
      evaluateCondition parse e.condition context = .ok true

omit [PyObject V] in
theorem ofKey_append (xs ys : List (NodeOutcome V)) (key : String) :
    ofKey (xs ++ ys) key = ofKey xs key ++ ofKey ys key := List.filter_append ..

omit [PyObject V] in
theorem ofKey_eq_self {outcomes : List (NodeOutcome V)} {key : String}
    (h : ∀ o ∈ outcomes, o.key = key) : ofKey outcomes key = outcomes :=
  List.filter_eq_self.mpr fun o ho => by simpa using h o ho

omit [PyObject V] in
theorem ofKey_eq_nil {outcomes : List (NodeOutcome V)} {key : String}
    (h : key ∉ outcomes.map (·.key)) : ofKey outcomes key = [] :=
  List.filter_eq_nil_iff.mpr fun o ho => by
    have hne : o.key ≠ key := fun heq => h (heq ▸ List.mem_map_of_mem ho)
    simpa using hne

omit [PyObject V] in
theorem ran_iff_ofKey {outcomes : List (NodeOutcome V)} {key : String} :
    Ran outcomes key ↔ ∃ o ∈ ofKey outcomes key, o.status = .succeeded := by
  unfold Ran ofKey
  simp only [List.mem_filter, decide_eq_true_eq]
  constructor
  · rintro ⟨o, ho, hkey, hstatus⟩
    exact ⟨o, ⟨ho, hkey⟩, hstatus⟩
  · rintro ⟨o, ⟨ho, hkey⟩, hstatus⟩
    exact ⟨o, ho, hkey, hstatus⟩

omit [PyObject V] in
theorem IsRun.ran {outcomes : List (NodeOutcome V)} {key : String}
    (h : IsRun (ofKey outcomes key)) : Ran outcomes key := by
  obtain ⟨o, ho⟩ := List.exists_mem_of_ne_nil _ h.1
  exact ran_iff_ofKey.mpr ⟨o, ho, h.2 o ho⟩

omit [PyObject V] in
theorem IsSkipped.not_ran {outcomes : List (NodeOutcome V)} {key : String}
    (h : IsSkipped (ofKey outcomes key)) : ¬ Ran outcomes key := by
  rw [ran_iff_ofKey]
  rintro ⟨o, ho, hstatus⟩
  have hmem : o.status ∈ (ofKey outcomes key).map (·.status) := List.mem_map_of_mem ho
  rw [h, List.mem_singleton, hstatus] at hmem
  cases hmem

omit [PyObject V] in
theorem ran_congr {xs ys : List (NodeOutcome V)} {key : String}
    (h : ofKey xs key = ofKey ys key) : Ran xs key ↔ Ran ys key := by
  rw [ran_iff_ofKey, ran_iff_ofKey, h]

/-- An overlay only reads the outcomes of its nodes. -/
theorem overlay_congr {xs ys : List (NodeOutcome V)} :
    ∀ {nodes : List (GraphNode V)} {context : Context V},
      (∀ n ∈ nodes, ofKey xs n.key = ofKey ys n.key) →
      overlay context xs nodes = overlay context ys nodes
  | [], _, _ => rfl
  | n :: nodes, context, h => by
      rw [List.forall_mem_cons] at h
      have hn : (if Ran xs n.key then context.insert n.key (lastOutput xs n.key) else context) =
          if Ran ys n.key then context.insert n.key (lastOutput ys n.key) else context := by
        rw [lastOutput, lastOutput, h.1]
        exact if_congr (ran_congr h.1) rfl rfl
      unfold overlay
      rw [List.foldl_cons, List.foldl_cons, hn]
      exact overlay_congr h.2

theorem overlay_append (context : Context V) (outcomes : List (NodeOutcome V))
    (xs ys : List (GraphNode V)) :
    overlay context outcomes (xs ++ ys) = overlay (overlay context outcomes xs) outcomes ys :=
  List.foldl_append

/-! ## Nodes -/

namespace Engine

variable {engine : Engine V} {node : GraphNode V} {context : Context V}

theorem runPasses_ok :
    ∀ {items : List V} {index : Nat} {outcomes : List (NodeOutcome V)},
      engine.runPasses node context index items = .ok outcomes →
      ∀ o ∈ outcomes, o.key = node.key ∧ o.status = .succeeded
  | [], _, _, h => by
      cases h
      exact fun o ho => absurd ho List.not_mem_nil
  | item :: items, index, outcomes, h => by
      obtain ⟨output, -, h⟩ := Except.bind_eq_ok.mp h
      obtain ⟨rest, hrest, h⟩ := Except.bind_eq_ok.mp h
      cases h
      intro o ho
      rcases List.mem_cons.mp ho with rfl | ho
      · exact ⟨rfl, rfl⟩
      · exact runPasses_ok hrest o ho

omit [PyObject V] in
theorem setLastOutput_ok {collected : V} {key : String} :
    ∀ {outcomes : List (NodeOutcome V)},
      (∀ o ∈ outcomes, o.key = key ∧ o.status = .succeeded) →
      ∀ o ∈ setLastOutput collected outcomes, o.key = key ∧ o.status = .succeeded
  | [], _, o, ho => absurd ho List.not_mem_nil
  | [last], h, o, ho => by
      rw [setLastOutput, List.mem_singleton] at ho
      rw [ho]
      exact h last List.mem_cons_self
  | first :: second :: rest, h, o, ho => by
      rw [List.forall_mem_cons] at h
      have ho : o ∈ first :: setLastOutput collected (second :: rest) := ho
      rcases List.mem_cons.mp ho with rfl | ho
      · exact h.1
      · exact setLastOutput_ok h.2 o ho

omit [PyObject V] in
theorem setLastOutput_ne_nil {collected : V} :
    ∀ {outcomes : List (NodeOutcome V)}, outcomes ≠ [] → setLastOutput collected outcomes ≠ []
  | [], h => absurd rfl h
  | [_], _ => List.cons_ne_nil _ _
  | _ :: _ :: _, _ => List.cons_ne_nil _ _

/-- A node that returns has outcomes, all of them its own successes. -/
theorem runNode_ok {result : List (NodeOutcome V)} (h : engine.runNode node context = .ok result) :
    result ≠ [] ∧ ∀ o ∈ result, o.key = node.key ∧ o.status = .succeeded := by
  unfold runNode at h
  split at h
  · obtain ⟨items, -, h⟩ := Except.bind_eq_ok.mp h
    obtain ⟨outcomes, hpasses, h⟩ := Except.bind_eq_ok.mp h
    split at h
    · cases h
      exact ⟨List.cons_ne_nil _ _, fun o ho => List.mem_singleton.mp ho ▸ ⟨rfl, rfl⟩⟩
    · next hne =>
        cases h
        exact ⟨setLastOutput_ne_nil (by simpa using hne),
          setLastOutput_ok (runPasses_ok hpasses)⟩
  · obtain ⟨output, -, h⟩ := Except.bind_eq_ok.mp h
    cases h
    exact ⟨List.cons_ne_nil _ _, fun o ho => List.mem_singleton.mp ho ▸ ⟨rfl, rfl⟩⟩

end Engine

/-! ## Reachability -/

namespace Engine

variable (engine : Engine V) (graph : WorkflowGraph V)

/-- The answer of `_is_reachable`, where no condition raises. -/
def reaches (context : Context V) (skipped : List String) (key : String) : Bool :=
  (graph.incoming key).isEmpty || (graph.incoming key).any fun e =>
    decide (e.source ∉ skipped) &&
      decide (evaluateCondition engine.parse e.condition context = .ok true)

variable {engine graph} {node : GraphNode V} {context : Context V}

theorem checkEdges_ok {skipped : List String} :
    ∀ {edges : List GraphEdge} {unmet : List String} {b : Bool} {reason : Option String},
      engine.checkEdges node context skipped edges unmet = .ok (b, reason) →
      b = edges.any fun e => decide (e.source ∉ skipped) &&
        decide (evaluateCondition engine.parse e.condition context = .ok true)
  | [], _, _, _, h => by
      cases h
      rfl
  | e :: edges, unmet, b, reason, h => by
      rw [List.any_cons]
      rw [checkEdges] at h
      split at h
      · next hskipped =>
          rw [checkEdges_ok h]
          simp [hskipped]
      · next hran =>
          obtain ⟨holds, hcondition, h⟩ := Except.bind_eq_ok.mp h
          rw [hcondition]
          cases holds with
          | true =>
              cases h
              simp [hran]
          | false =>
              rw [checkEdges_ok h]
              simp

theorem isReachable_ok {skipped : List String} {b : Bool} {reason : Option String}
    (h : engine.isReachable graph node context skipped = .ok (b, reason)) :
    b = engine.reaches graph context skipped node.key := by
  unfold isReachable at h
  unfold reaches
  split at h
  · next hentry =>
      cases h
      simp [hentry]
  · next hincoming =>
      rw [← checkEdges_ok h]
      simp [hincoming]

theorem reaches_iff {skipped : List String} {key : String} :
    engine.reaches graph context skipped key = true ↔
      Reached engine.parse graph context (· ∉ skipped) key := by
  unfold reaches Reached WorkflowGraph.incoming
  rw [Bool.or_eq_true, List.any_eq_true, List.isEmpty_iff, List.filter_eq_nil_iff]
  simp only [List.mem_filter, decide_eq_true_eq, Bool.and_eq_true]
  refine or_congr Iff.rfl ⟨?_, ?_⟩
  · rintro ⟨e, ⟨he, htarget⟩, hsource, hcondition⟩
    exact ⟨e, he, htarget, hsource, hcondition⟩
  · rintro ⟨e, he, htarget, hsource, hcondition⟩
    exact ⟨e, ⟨he, htarget⟩, hsource, hcondition⟩

/-- Skipping a node that no edge comes from changes nothing. -/
theorem reaches_cons {skipped : List String} {key source : String}
    (h : ∀ e ∈ graph.edges, e.target = key → e.source ≠ source) :
    engine.reaches graph context (source :: skipped) key =
      engine.reaches graph context skipped key := by
  rw [Bool.eq_iff_iff, reaches_iff, reaches_iff]
  unfold Reached
  refine or_congr Iff.rfl (exists_congr fun e => and_congr_right fun he =>
    and_congr_right fun htarget => and_congr_left fun _ => ?_)
  simp [h e he htarget]

/-! ## One level -/

/-- The nodes that are not reached are skipped, in order, with one outcome each. -/
theorem sift_ok :
    ∀ {nodes runnable : List (GraphNode V)} {s s' : RunState V},
      engine.sift graph nodes s = .ok (runnable, s') →
      (∀ m ∈ nodes, ∀ n ∈ nodes, ¬ graph.Edge m.key n.key) →
      runnable = nodes.filter (fun n => engine.reaches graph s.context s.skipped n.key) ∧
        s'.context = s.context ∧
        ∃ skips : List (NodeOutcome V), s'.outcomes = s.outcomes ++ skips ∧
          (∀ o ∈ skips, o.status = .skipped) ∧
          skips.map (·.key) =
            (nodes.filter fun n =>
              !engine.reaches graph s.context s.skipped n.key).map (·.key) ∧
          ∀ k, k ∈ s'.skipped ↔ k ∈ s.skipped ∨ k ∈ skips.map (·.key)
  | [], _, _, _, h, _ => by
      cases h
      exact ⟨rfl, rfl, [], (List.append_nil _).symm, fun o ho => absurd ho List.not_mem_nil, rfl,
        fun k => by simp⟩
  | node :: nodes, runnable, s, s', h, hfree => by
      have hrest : ∀ m ∈ nodes, ∀ n ∈ nodes, ¬ graph.Edge m.key n.key := fun m hm n hn =>
        hfree m (List.mem_cons_of_mem _ hm) n (List.mem_cons_of_mem _ hn)
      rw [sift] at h
      split at h
      · cases h
      · next reason hreachable =>
          have hreaches := isReachable_ok hreachable
          obtain ⟨p, hsift, h⟩ := Except.map_eq_ok.mp h
          cases h
          obtain ⟨hrunnable, hcontext, skips, hskips⟩ := sift_ok hsift hrest
          refine ⟨?_, hcontext, skips, ?_⟩
          · rw [hrunnable, List.filter_cons]
            simp [← hreaches]
          · rw [List.filter_cons]
            simpa [← hreaches] using hskips
      · next reason hreachable =>
          have hreaches := isReachable_ok hreachable
          obtain ⟨hrunnable, hcontext, skips, houtcomes, hstatus, hkeys, hskipped⟩ :=
            sift_ok h hrest
          have hsame : ∀ n ∈ nodes,
              engine.reaches graph s.context (node.key :: s.skipped) n.key =
                engine.reaches graph s.context s.skipped n.key := by
            intro n hn
            refine reaches_cons fun e he htarget hsource => ?_
            exact hfree node List.mem_cons_self n (List.mem_cons_of_mem _ hn)
              ⟨e, he, hsource, htarget⟩
          refine ⟨?_, hcontext, skippedOutcome node reason :: skips, ?_, ?_, ?_, ?_⟩
          · rw [hrunnable, List.filter_cons_of_neg (by simp [← hreaches])]
            exact List.filter_congr hsame
          · rw [houtcomes]
            simp [RunState.skip]
          · exact List.forall_mem_cons.mpr ⟨rfl, hstatus⟩
          · rw [List.map_cons, hkeys, List.filter_cons_of_pos (by simp [← hreaches]), List.map_cons]
            refine congrArg (_ :: ·) (congrArg _ (List.filter_congr fun n hn => ?_))
            exact congrArg _ (hsame n hn)
          · intro k
            rw [hskipped]
            simp [RunState.skip, or_assoc, or_left_comm, skippedOutcome]

/-- The results of a batch that returns: the outcomes of its nodes are what they gave, and
their last outputs are in the context. -/
theorem settle_ok {result : GraphNode V → Except (Raised V) (List (NodeOutcome V))} :
    ∀ {runnable : List (GraphNode V)} {s s' : RunState V},
      settle (runnable.map fun n => (n, result n)) s = .ok s' →
      (runnable.map (·.key)).Nodup → (∀ n ∈ runnable, ofKey s.outcomes n.key = []) →
      (∀ n ∈ runnable, ∀ os, result n = .ok os → ∀ o ∈ os, o.key = n.key) →
      (∀ n ∈ runnable, result n = .ok (ofKey s'.outcomes n.key)) ∧
        (∀ k, k ∉ runnable.map (·.key) → ofKey s'.outcomes k = ofKey s.outcomes k) ∧
        s'.skipped = s.skipped ∧
        s'.context = runnable.foldl (fun c n => c.insert n.key (lastOutput s'.outcomes n.key))
          s.context
  | [], _, _, h, _, _, _ => by
      cases h
      exact ⟨fun n hn => absurd hn List.not_mem_nil, fun _ _ => rfl, rfl, rfl⟩
  | node :: runnable, s, s', h, hnodup, hfresh, hresult => by
      rw [List.map_cons, List.nodup_cons] at hnodup
      rw [List.forall_mem_cons] at hfresh
      rw [List.map_cons] at h
      cases hos : result node with
      | error e =>
          rw [hos, settle] at h
          cases h
      | ok os =>
          rw [hos, settle] at h
          have hown := hresult node List.mem_cons_self os hos
          have hothers : ∀ k, k ≠ node.key → ofKey (s.record node os).outcomes k =
              ofKey s.outcomes k := by
            intro k hk
            have hnone : ofKey os k = [] := by
              refine ofKey_eq_nil fun hmem => ?_
              obtain ⟨o, ho, rfl⟩ := List.mem_map.mp hmem
              exact hk (hown o ho)
            rw [RunState.record, ofKey_append, hnone, List.append_nil]
          have hmine : ofKey (s.record node os).outcomes node.key = os := by
            rw [RunState.record, ofKey_append, hfresh.1, ofKey_eq_self hown, List.nil_append]
          obtain ⟨hrun, hkept, hskipped, hcontext⟩ := settle_ok h hnodup.2
            (fun n hn => by
              rw [hothers n.key fun heq => hnodup.1 (heq ▸ List.mem_map_of_mem hn)]
              exact hfresh.2 n hn)
            fun n hn => hresult n (List.mem_cons_of_mem _ hn)
          have hnode : ofKey s'.outcomes node.key = os := by rw [hkept _ hnodup.1, hmine]
          refine ⟨List.forall_mem_cons.mpr ⟨?_, hrun⟩, ?_, hskipped, ?_⟩
          · rw [hnode, hos]
          · intro k hk
            rw [List.map_cons, List.mem_cons, not_or] at hk
            rw [hkept k hk.2, hothers k hk.1]
          · rw [hcontext, List.foldl_cons, lastOutput, hnode]
            rfl

/-- A batch that leaves the context alone: what is skipped, then what is run. -/
theorem runLevel_ok {level : List (GraphNode V)} {s s' : RunState V}
    (hleft : ∀ nodes c, engine.left nodes c = c) (h : engine.runLevel graph level s = .ok s') :
    ∃ runnable s₁, engine.sift graph level s = .ok (runnable, s₁) ∧
      settle (runnable.map fun n => (n, engine.runNode n s₁.context)) s₁ = .ok s' := by
  obtain ⟨⟨runnable, s₁⟩, hsift, h⟩ := Except.bind_eq_ok.mp h
  refine ⟨runnable, s₁, hsift, ?_⟩
  dsimp only at h
  split at h
  · next hempty =>
      cases h
      rw [List.isEmpty_iff.mp hempty]
      rfl
  · rwa [hleft] at h

end Engine

/-! ## The invariant -/

/-- What holds once some nodes are placed. -/
structure Settled (context : Context V) (placed : List (GraphNode V)) (s : RunState V) : Prop where
  verdict : ∀ n ∈ placed, IsSkipped (ofKey s.outcomes n.key) ∨ IsRun (ofKey s.outcomes n.key)
  fresh : ∀ k, k ∉ placed.map (·.key) → ofKey s.outcomes k = []
  skipped : ∀ k, k ∈ s.skipped ↔ k ∈ placed.map (·.key) ∧ ¬ Ran s.outcomes k
  context : s.context = overlay context s.outcomes placed

omit [PyObject V] in
theorem isSkipped_ofKey {skips : List (NodeOutcome V)} {key : String}
    (hnodup : (skips.map (·.key)).Nodup) (hstatus : ∀ o ∈ skips, o.status = .skipped)
    (hkey : key ∈ skips.map (·.key)) : IsSkipped (ofKey skips key) := by
  induction skips with
  | nil => exact absurd hkey List.not_mem_nil
  | cons o skips ih =>
      rw [List.map_cons, List.nodup_cons] at hnodup
      rw [List.forall_mem_cons] at hstatus
      rw [List.map_cons, List.mem_cons] at hkey
      by_cases ho : o.key = key
      · have hrest : ofKey skips key = [] := ofKey_eq_nil (ho ▸ hnodup.1)
        have hall : ofKey (o :: skips) key = [o] := by
          rw [ofKey, List.filter_cons, if_pos (by simpa using ho)]
          exact congrArg (o :: ·) hrest
        rw [hall, IsSkipped, List.map_singleton, hstatus.1]
      · have hall : ofKey (o :: skips) key = ofKey skips key := by
          rw [ofKey, List.filter_cons, if_neg (by simpa using ho)]
          rfl
        rw [hall]
        exact ih hnodup.2 hstatus.2 (hkey.resolve_left (Ne.symm ho))

/-- An overlay inserts the outputs of the nodes that ran. -/
theorem overlay_eq_foldl {outcomes : List (NodeOutcome V)} {p : GraphNode V → Bool} :
    ∀ {nodes : List (GraphNode V)}, (∀ n ∈ nodes, Ran outcomes n.key ↔ p n = true) →
      ∀ context : Context V, overlay context outcomes nodes = (nodes.filter p).foldl
        (fun c n => c.insert n.key (lastOutput outcomes n.key)) context
  | [], _, _ => rfl
  | n :: nodes, h, context => by
      rw [List.forall_mem_cons] at h
      have ih := overlay_eq_foldl h.2
      unfold overlay at ih ⊢
      rw [List.foldl_cons, ih, List.filter_cons]
      by_cases hp : p n = true
      · rw [if_pos (h.1.mpr hp), if_pos hp, List.foldl_cons]
      · rw [if_neg fun hran => hp (h.1.mp hran), if_neg hp]

/-- What one level does: it runs the nodes that are reached, skips the others and leaves
everything else alone. -/
structure LevelDone (engine : Engine V) (reached : GraphNode V → Bool)
    (level : List (GraphNode V)) (s s' : RunState V) : Prop where
  run : ∀ n ∈ level, reached n = true →
    engine.runNode n s.context = .ok (ofKey s'.outcomes n.key)
  skip : ∀ n ∈ level, reached n = false → IsSkipped (ofKey s'.outcomes n.key)
  kept : ∀ k, k ∉ level.map (·.key) → ofKey s'.outcomes k = ofKey s.outcomes k
  skipped : ∀ k, k ∈ s'.skipped ↔ k ∈ s.skipped ∨ ∃ n ∈ level, n.key = k ∧ reached n = false
  context : s'.context = (level.filter reached).foldl
    (fun c n => c.insert n.key (lastOutput s'.outcomes n.key)) s.context

theorem Engine.isRun_of_runNode {engine : Engine V} {node : GraphNode V} {context : Context V}
    {result : List (NodeOutcome V)} (h : engine.runNode node context = .ok result) :
    IsRun result :=
  ⟨(runNode_ok h).1, fun o ho => ((runNode_ok h).2 o ho).2⟩

section

variable {engine : Engine V} {reached : GraphNode V → Bool} {level : List (GraphNode V)}
  {s s' : RunState V} {n : GraphNode V}

theorem LevelDone.ran_iff (h : LevelDone engine reached level s s') (hn : n ∈ level) :
    Ran s'.outcomes n.key ↔ reached n = true := by
  cases hreached : reached n with
  | true => exact iff_of_true (Engine.isRun_of_runNode (h.run n hn hreached)).ran rfl
  | false => exact iff_of_false (h.skip n hn hreached).not_ran nofun

theorem LevelDone.verdict (h : LevelDone engine reached level s s') (hn : n ∈ level) :
    IsSkipped (ofKey s'.outcomes n.key) ∨ IsRun (ofKey s'.outcomes n.key) := by
  cases hreached : reached n with
  | true => exact .inr (Engine.isRun_of_runNode (h.run n hn hreached))
  | false => exact .inl (h.skip n hn hreached)

end

/-- A level without edges inside, whose nodes have no outcomes yet. -/
theorem runLevel_done {engine : Engine V} {graph : WorkflowGraph V}
    {level : List (GraphNode V)} {s s' : RunState V} (hnodup : (level.map (·.key)).Nodup)
    (hfree : ∀ m ∈ level, ∀ n ∈ level, ¬ graph.Edge m.key n.key)
    (hfresh : ∀ n ∈ level, ofKey s.outcomes n.key = [])
    (hleft : ∀ nodes c, engine.left nodes c = c) (hrun : engine.runLevel graph level s = .ok s') :
    LevelDone engine (fun n => engine.reaches graph s.context s.skipped n.key) level s s' := by
  obtain ⟨runnable, s₁, hsift, hsettle⟩ := Engine.runLevel_ok hleft hrun
  obtain ⟨hrunnable, hcontext₁, skips, houtcomes, hstatus, hkeys, hskipped₁⟩ :=
    Engine.sift_ok hsift hfree
  let p : GraphNode V → Bool := fun n => engine.reaches graph s.context s.skipped n.key
  have hrunnable : runnable = level.filter p := hrunnable
  have hkeys : skips.map (·.key) = (level.filter fun n => !p n).map (·.key) := hkeys
  have hrunnable_keys : ∀ n ∈ level, n.key ∈ runnable.map (·.key) ↔ p n = true := fun n hn => by
    rw [hrunnable]
    exact Keyed.key_mem_filter_iff hnodup hn
  have hskips_keys : ∀ n ∈ level, n.key ∈ skips.map (·.key) ↔ p n = false := fun n hn => by
    rw [hkeys, Keyed.key_mem_filter_iff hnodup hn]
    simp
  have hrunnable_sub : (runnable.map (·.key)).Sublist (level.map (·.key)) :=
    hrunnable ▸ List.filter_sublist.map _
  have hskips_sub : (skips.map (·.key)).Sublist (level.map (·.key)) :=
    hkeys ▸ List.filter_sublist.map _
  have hfresh₁ : ∀ n ∈ runnable, ofKey s₁.outcomes n.key = [] := by
    intro n hn
    obtain ⟨hmem, hp⟩ := List.mem_filter.mp (hrunnable ▸ hn)
    have hnoskip : n.key ∉ skips.map (·.key) := by rw [hskips_keys n hmem, hp]; exact nofun
    rw [houtcomes, ofKey_append, hfresh n hmem, ofKey_eq_nil hnoskip]
    rfl
  obtain ⟨hran, hkept, hskipped, hcontext⟩ := Engine.settle_ok hsettle
    (hrunnable_sub.nodup hnodup) hfresh₁ fun n _ os hos o ho =>
      ((Engine.runNode_ok hos).2 o ho).1
  refine ⟨fun n hn hp => ?_, fun n hn hp => ?_, fun k hk => ?_, fun k => ?_, ?_⟩
  · rw [← hcontext₁]
    exact hran n (hrunnable ▸ List.mem_filter.mpr ⟨hn, hp⟩)
  · have hnorun : n.key ∉ runnable.map (·.key) := by
      rw [hrunnable_keys n hn]
      exact ne_true_of_eq_false hp
    rw [hkept n.key hnorun, houtcomes, ofKey_append, hfresh n hn, List.nil_append]
    exact isSkipped_ofKey (hskips_sub.nodup hnodup) hstatus ((hskips_keys n hn).mpr hp)
  · have hnorun : k ∉ runnable.map (·.key) := fun hmem => hk (hrunnable_sub.subset hmem)
    have hnoskip : k ∉ skips.map (·.key) := fun hmem => hk (hskips_sub.subset hmem)
    rw [hkept k hnorun, houtcomes, ofKey_append, ofKey_eq_nil hnoskip, List.append_nil]
  · rw [hskipped, hskipped₁, hkeys]
    refine or_congr Iff.rfl ⟨fun hk => ?_, fun ⟨n, hn, hkey, hp⟩ => ?_⟩
    · obtain ⟨n, hn, hkey⟩ := List.mem_map.mp hk
      obtain ⟨hn, hp⟩ := List.mem_filter.mp hn
      exact ⟨n, hn, hkey, by simpa using hp⟩
    · exact List.mem_map.mpr ⟨n, List.mem_filter.mpr ⟨hn, by simpa using hp⟩, hkey⟩
  · rw [hcontext, hcontext₁, hrunnable]

/-- One level: its nodes are decided, by whether they are reached, and nothing changes
for the nodes placed before. -/
theorem Settled.level {engine : Engine V} {graph : WorkflowGraph V} {context : Context V}
    {placed level : List (GraphNode V)} {s s' : RunState V} (h : Settled context placed s)
    (hnodup : (level.map (·.key)).Nodup)
    (hlevel : ∀ n ∈ level, n.key ∉ placed.map (·.key) ∧
      ∀ k, graph.Edge k n.key → k ∈ placed.map (·.key))
    (hleft : ∀ nodes c, engine.left nodes c = c) (hrun : engine.runLevel graph level s = .ok s') :
    Settled context (placed ++ level) s' ∧
      (∀ k ∈ placed.map (·.key), ofKey s'.outcomes k = ofKey s.outcomes k) ∧
      ∀ n ∈ level,
        (Ran s'.outcomes n.key ↔ Reached engine.parse graph s.context (Ran s.outcomes) n.key) ∧
        (Ran s'.outcomes n.key →
          engine.runNode n s.context = .ok (ofKey s'.outcomes n.key)) := by
  obtain ⟨p, hp, hdone⟩ : ∃ p : GraphNode V → Bool,
      (∀ n, p n = engine.reaches graph s.context s.skipped n.key) ∧
        LevelDone engine p level s s' :=
    ⟨_, fun _ => rfl, runLevel_done hnodup
      (fun m hm n hn hedge => (hlevel m hm).1 ((hlevel n hn).2 m.key hedge))
      (fun n hn => h.fresh n.key (hlevel n hn).1) hleft hrun⟩
  have hplaced : ∀ k ∈ placed.map (·.key), k ∉ level.map (·.key) := by
    intro k hk hmem
    obtain ⟨n, hn, rfl⟩ := List.mem_map.mp hmem
    exact (hlevel n hn).1 hk
  refine ⟨⟨?_, ?_, ?_, ?_⟩, fun k hk => hdone.kept k (hplaced k hk), ?_⟩
  · intro n hn
    rcases List.mem_append.mp hn with hbefore | hhere
    · rw [hdone.kept n.key (hplaced n.key (List.mem_map_of_mem hbefore))]
      exact h.verdict n hbefore
    · exact hdone.verdict hhere
  · intro k hk
    rw [List.map_append, List.mem_append, not_or] at hk
    rw [hdone.kept k hk.2, h.fresh k hk.1]
  · intro k
    rw [hdone.skipped, h.skipped, List.map_append, List.mem_append]
    by_cases hk : k ∈ level.map (·.key)
    · obtain ⟨n, hn, rfl⟩ := List.mem_map.mp hk
      have hsame : (∃ m ∈ level, m.key = n.key ∧ p m = false) ↔ p n = false := by
        constructor
        · rintro ⟨m, -, hkey, hm⟩
          rwa [hp, hkey, ← hp] at hm
        · exact fun hreached => ⟨n, hn, rfl, hreached⟩
      rw [hsame, hdone.ran_iff hn]
      simp [(hlevel n hn).1, hk]
    · have hnone : ¬ ∃ m ∈ level, m.key = k ∧ p m = false := by
        rintro ⟨m, hm, rfl, -⟩
        exact hk (List.mem_map_of_mem hm)
      rw [ran_congr (hdone.kept k hk), or_iff_left hnone, or_iff_left hk]
  · have hbefore : overlay context s'.outcomes placed = overlay context s.outcomes placed :=
      overlay_congr fun n hn => hdone.kept n.key (hplaced n.key (List.mem_map_of_mem hn))
    rw [hdone.context, overlay_append, hbefore, h.context]
    exact (overlay_eq_foldl (fun n hn => hdone.ran_iff hn) _).symm
  · intro n hn
    refine ⟨?_, fun hran => hdone.run n hn ((hdone.ran_iff hn).mp hran)⟩
    rw [hdone.ran_iff hn, hp, Engine.reaches_iff]
    unfold Reached
    refine or_congr Iff.rfl (exists_congr fun e => and_congr_right fun he =>
      and_congr_right fun htarget => and_congr_left fun _ => ?_)
    have hsource : e.source ∈ placed.map (·.key) := (hlevel n hn).2 e.source ⟨e, he, rfl, htarget⟩
    show e.source ∉ s.skipped ↔ Ran s.outcomes e.source
    rw [h.skipped]
    simp [hsource]

theorem reached_congr {parse : String → Except String (Node V)} {graph : WorkflowGraph V}
    {context : Context V} {ran ran' : String → Prop} {key : String}
    (h : ∀ k, graph.Edge k key → (ran k ↔ ran' k)) :
    Reached parse graph context ran key ↔ Reached parse graph context ran' key :=
  or_congr Iff.rfl (exists_congr fun e => and_congr_right fun he => and_congr_right fun htarget =>
    and_congr_left fun _ => h e.source ⟨e, he, rfl, htarget⟩)

/-- The levels of a run that returns, one after the other. -/
theorem settled_runLevels {engine : Engine V} {graph : WorkflowGraph V} {context : Context V}
    (hleft : ∀ nodes c, engine.left nodes c = c) :
    ∀ {levels : List (List (GraphNode V))} {placed : List (GraphNode V)} {s s' : RunState V},
      Settled context placed s →
      Layers.Layered (·.key) graph.Edge (placed.map (·.key)) levels →
      engine.runLevels graph levels s = .ok s' →
      Settled context (placed ++ levels.flatten) s' ∧
        (∀ k ∈ placed.map (·.key), ofKey s'.outcomes k = ofKey s.outcomes k) ∧
        ∀ i level, levels[i]? = some level → ∀ n ∈ level,
          (Ran s'.outcomes n.key ↔ Reached engine.parse graph
            (overlay context s'.outcomes (placed ++ (levels.take i).flatten))
            (Ran s'.outcomes) n.key) ∧
          (Ran s'.outcomes n.key →
            engine.runNode n (overlay context s'.outcomes (placed ++ (levels.take i).flatten)) =
              .ok (ofKey s'.outcomes n.key))
  | [], placed, s, s', h, _, hrun => by
      cases hrun
      rw [List.flatten_nil, List.append_nil]
      exact ⟨h, fun _ _ => rfl, fun i level hlevel => by simp at hlevel⟩
  | first :: levels, placed, s, s', h, ⟨hnodup, hfirst, hlayered⟩, hrun => by
      obtain ⟨s₁, hlevel, hrest⟩ := Except.bind_eq_ok.mp hrun
      obtain ⟨hsettled, hkept, hreached⟩ := h.level hnodup hfirst hleft hlevel
      rw [← List.map_append] at hlayered
      obtain ⟨hdone, hkept', hlater⟩ := settled_runLevels hleft hsettled hlayered hrest
      have hsame : ∀ k ∈ placed.map (·.key), ofKey s'.outcomes k = ofKey s.outcomes k := by
        intro k hk
        rw [hkept' k (by rw [List.map_append]; exact List.mem_append_left _ hk), hkept k hk]
      rw [List.flatten_cons, ← List.append_assoc]
      refine ⟨hdone, hsame, fun i level hi n hn => ?_⟩
      cases i with
      | zero =>
          cases hi
          have hkey : n.key ∈ (placed ++ first).map (·.key) :=
            List.mem_map_of_mem (List.mem_append_right placed hn)
          rw [ran_congr (hkept' n.key hkey), hkept' n.key hkey, List.take_zero, List.flatten_nil,
            List.append_nil, overlay_congr fun m hm => hsame m.key (List.mem_map_of_mem hm),
            ← h.context]
          refine ⟨?_, (hreached n hn).2⟩
          rw [(hreached n hn).1]
          exact reached_congr fun k hk => (ran_congr (hsame k ((hfirst n hn).2 k hk))).symm
      | succ i =>
          rw [List.take_succ_cons, List.flatten_cons, ← List.append_assoc]
          exact hlater i level hi n hn

/-! ## The run -/

/-- A run that returns: every node is skipped once or has run, a node ran exactly when
it was reached in the context of the earlier levels, its outcomes are those of a run of the
node in that context, and the final context is the initial one with the last outputs of the
nodes that ran. -/
theorem run_semantics (engine : Engine V) (graph : WorkflowGraph V) (context : Context V)
    (hleft : ∀ nodes c, engine.left nodes c = c) {context' : Context V}
    {outcomes : List (NodeOutcome V)} (hrun : engine.run graph context = .ok (context', outcomes)) :
    ∃ levels, graph.levels = .ok levels ∧ levels.flatten.Perm graph.nodes ∧
      (∀ n ∈ graph.nodes, IsSkipped (ofKey outcomes n.key) ∨ IsRun (ofKey outcomes n.key)) ∧
      (∀ i level, levels[i]? = some level → ∀ n ∈ level,
        (Ran outcomes n.key ↔ Reached engine.parse graph
          (overlay context outcomes (levels.take i).flatten) (Ran outcomes) n.key) ∧
        (Ran outcomes n.key →
          engine.runNode n (overlay context outcomes (levels.take i).flatten) =
            .ok (ofKey outcomes n.key))) ∧
      context' = overlay context outcomes levels.flatten := by
  unfold Engine.run at hrun
  split at hrun
  · cases hrun
  · next levels hlevels =>
      obtain ⟨s, hlast, hrun⟩ := Except.bind_eq_ok.mp hrun
      cases hrun
      obtain ⟨hlayered, hperm⟩ := WorkflowGraph.levels_layered hlevels
      have hstart : Settled context [] ⟨context, [], []⟩ :=
        ⟨fun n hn => absurd hn List.not_mem_nil, fun _ _ => rfl,
          fun k => iff_of_false List.not_mem_nil fun h => absurd h.1 List.not_mem_nil, rfl⟩
      obtain ⟨hsettled, -, hreached⟩ := settled_runLevels hleft hstart hlayered hlast
      refine ⟨levels, hlevels, hperm, fun n hn => ?_, hreached, hsettled.context⟩
      exact hsettled.verdict n (hperm.mem_iff.mpr hn)

end

/-! ## A join with one branch pruned -/

/-- `start` leads to `a`, under a false condition, and to `b`; both lead to `merge`. -/
def mergeGraph : WorkflowGraph (Value Empty) where
  nodes := ["start", "a", "b", "merge"].map fun key => ⟨key, "task", ∅⟩
  edges := [⟨"start", "a", some "False"⟩, ⟨"start", "b", none⟩, ⟨"a", "merge", none⟩,
    ⟨"b", "merge", none⟩]
  keys_nodup := by decide
  edges_known := by decide

/-- Every handler answers the key of its node. -/
def keyEngine : Engine (Value Empty) where
  parse text :=
    if text = "False" then .ok (.expression (.constant (.bool false))) else .error "invalid syntax"
  handlers _ := some fun node _ _ => .ok (.str node.key)
  seen _ _ context := context
  left _ context := context

theorem merge_runs_semantics : ∃ context outcomes,
    keyEngine.run mergeGraph ∅ = .ok (context, outcomes) ∧
      outcomes.map (fun o => (o.key, o.status, o.output)) =
        [("start", .succeeded, .str "start"), ("a", .skipped, .none),
          ("b", .succeeded, .str "b"), ("merge", .succeeded, .str "merge")] ∧
      context.entries.map (fun e => (e.1, e.2)) =
        [("merge", .str "merge"), ("b", .str "b"), ("start", .str "start")] ∧
      ∃ levels, mergeGraph.levels = .ok levels ∧ levels.flatten.Perm mergeGraph.nodes ∧
        (∀ n ∈ mergeGraph.nodes,
          IsSkipped (ofKey outcomes n.key) ∨ IsRun (ofKey outcomes n.key)) ∧
        (∀ i level, levels[i]? = some level → ∀ n ∈ level,
          (Ran outcomes n.key ↔ Reached keyEngine.parse mergeGraph
            (overlay ∅ outcomes (levels.take i).flatten) (Ran outcomes) n.key) ∧
          (Ran outcomes n.key →
            keyEngine.runNode n (overlay ∅ outcomes (levels.take i).flatten) =
              .ok (ofKey outcomes n.key))) ∧
        context = overlay ∅ outcomes levels.flatten :=
  ⟨_, _, rfl, rfl, rfl, run_semantics keyEngine mergeGraph ∅ (fun _ _ => rfl) rfl⟩

end YoutubeFactory.Workflow
