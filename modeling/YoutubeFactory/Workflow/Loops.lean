import YoutubeFactory.Lib.ForEach
import YoutubeFactory.Python.Value
import YoutubeFactory.Workflow.Engine

/-!
# Loop nodes

`_run_loop` with handlers that write.  A handler is given a dictionary, whose keys it may rebind,
and may change everything that the run shares; so may the nodes that run beside it.  A pass gives
the handler a copy of the run context with the loop variables, and what the handler leaves in the
copy is dropped (`callOnCopy`).  The copy is shallow: the list that the loop goes through is shared,
and a handler that appends to it makes another pass (`LiveList`).

`Engine` asks a handler by the number of its pass and fixes the contexts and the items that the
passes find.  Every loop here that ends is such a loop (`exists_engine_runLoop`).
-/

namespace YoutubeFactory.Workflow

open Python

/-- What the nodes of a run share: the run context and everything else. -/
structure Shared (V σ : Type) where
  context : Context V
  rest : σ

/-- The list or tuple that a loop goes through.  Where the run shares it, a call may change it. -/
structure LiveList (V σ : Type) where
  /-- The items, now, of the list that had these in the first state. -/
  now : List V → Shared V σ → Shared V σ → List V
  start : ∀ items s, now items s s = items

/-- A handler.  The dictionary that it is given comes first in its state. -/
abbrev ScopedHandler (V σ : Type) := GraphNode V → EStateM PyErr (Context V × Shared V σ) V

section

variable {V σ : Type} [PyObject V]

/-! ## The loop -/

/-- `_handler_for` -/
def scopedHandlerFor (handlers : String → Option (ScopedHandler V σ)) (node : GraphNode V) :
    ScopedHandler V σ :=
  (handlers node.type).getD fun node =>
    pure (PyObject.ofDict [("node", PyObject.ofStr node.key), ("type", PyObject.ofStr node.type)])

/-- `handler(node, scope)` for a dictionary that nobody else has. -/
def callOnCopy (handler : ScopedHandler V σ) (node : GraphNode V) (scope : Context V) :
    EStateM (Raised V) (Shared V σ) V := fun s =>
  match (handler node).run (scope, s) with
  | .ok output (_, s') => .ok output s'
  | .error exc (_, s') => .error (.python exc) s'

/-- `dict(context)` with `item` and `index`. -/
def passScope (context : Context V) (index : Nat) (item : V) : Context V :=
  (context.insert "item" item).insert "index" (PyObject.ofInt index)

/-- One pass. -/
def pass (handler : ScopedHandler V σ) (node : GraphNode V) (index : Nat) (item : V) :
    EStateM (Raised V) (Shared V σ) V := do
  let s ← get
  callOnCopy handler node (passScope s.context index item)

/-- An engine with nothing beside the loop, which evaluates `over`. -/
def loneEngine (parse : String → Except String (Node V)) : Engine V where
  parse
  handlers _ := none
  seen _ _ context := context
  left _ context := context

/-- The outcomes of a loop from what its passes have returned. -/
def loopOutcomes (node : GraphNode V) (collected : List V) : List (NodeOutcome V) :=
  if collected.isEmpty then [succeeded node 0 (PyObject.ofList [])]
  else Engine.setLastOutput (PyObject.ofList collected) (collected.mapIdx (succeeded node))

/-- `_run_loop`, unless it goes on for longer than the fuel. -/
def runScopedLoop (parse : String → Except String (Node V))
    (handlers : String → Option (ScopedHandler V σ)) (live : LiveList V σ) (fuel : Nat)
    (node : GraphNode V) : EStateM (Raised V) (Shared V σ) (Option (List (NodeOutcome V))) := do
  let s ← get
  match (loneEngine parse).overItems node s.context with
  | .error e => throw e
  | .ok items =>
      let collected ← EStateM.enumerate (live.now items s)
        (pass (scopedHandlerFor handlers node) node) fuel 0
      return collected.map (loopOutcomes node)

/-- The `over` expression of the node yields a list or tuple of these items, and they are not too
many. -/
def OverYields (parse : String → Except String (Node V)) (node : GraphNode V)
    (context : Context V) (items : List V) : Prop :=
  ∃ source collection, (node.config.lookup "over").bind PyObject.str? = some source ∧
    strip source ≠ "" ∧ evaluate parse source context = .ok collection ∧
    PyObject.isNone collection = false ∧ PyObject.items? collection = some items ∧
    items.length ≤ MAX_LOOP_ITERATIONS

theorem OverYields.overItems {parse : String → Except String (Node V)} {node : GraphNode V}
    {context : Context V} {items : List V} (h : OverYields parse node context items) :
    (loneEngine parse).overItems node context = .ok items := by
  obtain ⟨source, collection, hover, hsource, hevaluate, hnone, hitems, hcount⟩ := h
  unfold Engine.overItems
  rw [hover]
  dsimp only
  rw [if_neg hsource]
  rw [show evaluate (loneEngine parse).parse source ((loneEngine parse).seen node none context) =
    .ok collection from hevaluate]
  dsimp only
  rw [if_neg (by rw [hnone]; exact Bool.false_ne_true), hitems]
  dsimp only
  rw [if_neg (Nat.not_lt.mpr hcount)]

/-- The loop, once its items are known. -/
theorem run_runScopedLoop (handlers : String → Option (ScopedHandler V σ)) (live : LiveList V σ)
    (fuel : Nat) {parse : String → Except String (Node V)} {node : GraphNode V} {items : List V}
    {s : Shared V σ} (h : (loneEngine parse).overItems node s.context = .ok items) :
    (runScopedLoop parse handlers live fuel node).run s =
      ((EStateM.enumerate (live.now items s) (pass (scopedHandlerFor handlers node) node) fuel 0
        >>= fun collected => pure (collected.map (loopOutcomes node))) :
          EStateM (Raised V) (Shared V σ) _).run s := by
  unfold runScopedLoop
  rw [EStateM.run_get_bind, h]

/-! ## What the outcomes say -/

omit [PyObject V] in
theorem length_setLastOutput {collected : V} :
    ∀ outcomes : List (NodeOutcome V),
      (Engine.setLastOutput collected outcomes).length = outcomes.length
  | [] => rfl
  | [_] => rfl
  | _ :: second :: rest => congrArg (· + 1) (length_setLastOutput (second :: rest))

omit [PyObject V] in
/-- Only the last outcome gets another output. -/
theorem getElem?_setLastOutput {collected : V} :
    ∀ (outcomes : List (NodeOutcome V)) (i : Nat),
      (Engine.setLastOutput collected outcomes)[i]? = outcomes[i]?.map fun o =>
        if i + 1 = outcomes.length then { o with output := collected } else o
  | [], _ => rfl
  | [_], 0 => rfl
  | [_], _ + 1 => rfl
  | _ :: _ :: _, 0 => by simp [Engine.setLastOutput]
  | first :: second :: rest, i + 1 => by
      show (first :: Engine.setLastOutput collected (second :: rest))[i + 1]? = _
      rw [List.getElem?_cons_succ, List.getElem?_cons_succ,
        getElem?_setLastOutput (second :: rest) i]
      simp

/-- The outcomes of a loop: one for each pass, with its output, except that the last one has the
list of all outputs; one with the empty list where there is no pass. -/
theorem getElem?_loopOutcomes {node : GraphNode V} {outputs : List V} {i : Nat} {output : V}
    (h : outputs[i]? = some output) :
    (loopOutcomes node outputs)[i]? = some (succeeded node i
      (if i + 1 = outputs.length then PyObject.ofList outputs else output)) := by
  unfold loopOutcomes
  cases outputs with
  | nil => cases h
  | cons first rest =>
      rw [List.isEmpty_cons, if_neg Bool.false_ne_true, getElem?_setLastOutput,
        List.getElem?_mapIdx, h, List.length_mapIdx]
      simp only [Option.map_some]
      split <;> rfl

theorem length_loopOutcomes (node : GraphNode V) (outputs : List V) :
    (loopOutcomes node outputs).length = max 1 outputs.length := by
  unfold loopOutcomes
  cases outputs with
  | nil => rfl
  | cons first rest =>
      rw [List.isEmpty_cons, if_neg Bool.false_ne_true, length_setLastOutput, List.length_mapIdx]
      simp

/-- The last outcome carries the value of the node. -/
theorem getLast?_loopOutcomes (node : GraphNode V) (outputs : List V) :
    (loopOutcomes node outputs).getLast?.map (·.output) = some (PyObject.ofList outputs) := by
  rw [List.getLast?_eq_getElem?, length_loopOutcomes]
  cases outputs with
  | nil => rfl
  | cons first rest =>
      have hlast : max 1 (first :: rest).length - 1 = rest.length := by simp
      have hget := List.getElem?_eq_getElem (l := first :: rest) (i := rest.length) (by simp)
      rw [hlast, getElem?_loopOutcomes hget, List.length_cons, if_pos rfl]
      rfl

/-! ## The results of a batch -/

/-- The results of other nodes leave the value of a key. -/
theorem settle_keeps :
    ∀ {batch : List (GraphNode V × Except (Raised V) (List (NodeOutcome V)))} {t t' : RunState V},
      Engine.settle batch t = .ok t' →
        (∀ key, key ∉ batch.map (·.1.key) → t'.context.lookup key = t.context.lookup key) ∧
          t.outcomes <+: t'.outcomes
  | [], _, _, h => by
      cases h
      exact ⟨fun _ _ => rfl, List.prefix_rfl⟩
  | (_, .error _) :: _, _, _, h => by cases h
  | (node, .ok result) :: rest, t, t', h => by
      have h : Engine.settle rest (t.record node result) = .ok t' := h
      obtain ⟨hlookup, houtcomes⟩ := settle_keeps h
      refine ⟨fun key hkey => ?_, (List.prefix_append _ _).trans houtcomes⟩
      rw [List.map_cons, List.mem_cons, not_or] at hkey
      rw [hlookup key hkey.2]
      exact AList.lookup_insert_ne hkey.1

/-- The value of a node is the output of its last outcome. -/
theorem settle_lookup {node : GraphNode V} {result : List (NodeOutcome V)} {value : V}
    (hvalue : result.getLast?.map (·.output) = some value) :
    ∀ {batch : List (GraphNode V × Except (Raised V) (List (NodeOutcome V)))} {t t' : RunState V},
      Engine.settle batch t = .ok t' → (batch.map (·.1.key)).Nodup → (node, .ok result) ∈ batch →
        t'.context.lookup node.key = some value ∧ result <:+: t'.outcomes
  | [], _, _, _, _, hmem => absurd hmem List.not_mem_nil
  | (_, .error _) :: _, _, _, h, _, _ => by cases h
  | (m, .ok os) :: rest, t, t', h, hnodup, hmem => by
      have h : Engine.settle rest (t.record m os) = .ok t' := h
      rw [List.map_cons, List.nodup_cons] at hnodup
      rcases List.mem_cons.mp hmem with heq | hmem
      · cases heq
        obtain ⟨hlookup, houtcomes⟩ := settle_keeps h
        refine ⟨?_, (List.suffix_append t.outcomes result).isInfix.trans houtcomes.isInfix⟩
        rw [hlookup node.key hnodup.1, RunState.record, hvalue]
        exact AList.lookup_insert ..
      · exact settle_lookup hvalue h hnodup.2 hmem

/-! ## The surrounding context -/

omit [PyObject V] in
/-- What a handler keeps of everything but its own dictionary, a call of it on a copy keeps,
whatever it leaves in the copy. -/
theorem keeps_callOnCopy {γ : Type} {view : Shared V σ → γ} {handler : ScopedHandler V σ}
    {node : GraphNode V} (h : EStateM.Keeps (fun t => view t.2) (handler node))
    (scope : Context V) : EStateM.Keeps view (callOnCopy handler node scope) := by
  intro s
  have hkept := h (scope, s)
  show view (callOnCopy handler node scope s).state = _
  unfold callOnCopy
  cases hrun : (handler node).run (scope, s) with
  | ok output t =>
      rw [hrun] at hkept
      exact hkept
  | error exc t =>
      rw [hrun] at hkept
      exact hkept

theorem keeps_pass {γ : Type} {view : Shared V σ → γ} {handler : ScopedHandler V σ}
    {node : GraphNode V} (h : EStateM.Keeps (fun t => view t.2) (handler node)) (index : Nat)
    (item : V) : EStateM.Keeps view (pass handler node index item) :=
  EStateM.Keeps.get_bind fun s => keeps_callOnCopy h _ s

/-- A loop whose handler changes no dictionary but its own leaves the context. -/
theorem keeps_runScopedLoop (parse : String → Except String (Node V))
    {handlers : String → Option (ScopedHandler V σ)} (live : LiveList V σ) (fuel : Nat)
    {node : GraphNode V}
    (h : EStateM.Keeps (fun t => t.2.context) (scopedHandlerFor handlers node node)) :
    EStateM.Keeps (fun s : Shared V σ => s.context)
      (runScopedLoop parse handlers live fuel node) := by
  refine EStateM.Keeps.get_bind fun s => ?_
  cases (loneEngine parse).overItems node s.context with
  | error e => rfl
  | ok items =>
      exact EStateM.Keeps.bind (EStateM.Keeps.enumerate (keeps_pass h) fuel 0)
        (fun _ => EStateM.Keeps.pure _) s

/-! ## The loop of the engine -/

/-- The passes are those of an engine that knows what they find and what the handler answers. -/
theorem exists_runPasses (handler : ScopedHandler V σ) (node : GraphNode V) (context : Context V) :
    ∀ (items : List V) (index : Nat) (s : Shared V σ),
      ∃ (found : Nat → Context V) (answers : Nat → Except PyErr V), ∀ engine : Engine V,
        (∀ i, index ≤ i → engine.seen node (some i) context = found i) →
        (∀ i, index ≤ i → ∀ scope, engine.handlerFor node node i scope = answers i) →
          engine.runPasses node context index items =
            ((EStateM.forEach (pass handler node) index items).run s).toExcept.map
              (·.mapIdx fun i => succeeded node (index + i)) := by
  intro items
  induction items with
  | nil => exact fun index s => ⟨fun _ => context, fun _ => .ok PyObject.none, fun _ _ _ => rfl⟩
  | cons item items ih =>
      intro index s
      have hpass : (pass handler node index item).run s =
          callOnCopy handler node (passScope s.context index item) s := rfl
      unfold callOnCopy at hpass
      cases hcall : (handler node).run (passScope s.context index item, s) with
      | error exc t =>
          rw [hcall] at hpass
          refine ⟨fun _ => s.context, fun _ => .error exc, fun engine _ hanswers => ?_⟩
          rw [Engine.runPasses, Engine.call, hanswers index (Nat.le_refl _)]
          rw [show (EStateM.forEach (pass handler node) index (item :: items)).run s = _ from
            EStateM.run_bind_of_error hpass]
          rfl
      | ok output t =>
          rw [hcall] at hpass
          obtain ⟨found, answers, hrest⟩ := ih (index + 1) t.2
          refine ⟨fun i => if i = index then s.context else found i,
            fun i => if i = index then .ok output else answers i, fun engine hseen hanswers => ?_⟩
          have hne : ∀ i, index + 1 ≤ i → i ≠ index := fun i hi => by omega
          have hrest := hrest engine
            (fun i hi => (hseen i (Nat.le_of_succ_le hi)).trans (if_neg (hne i hi)))
            fun i hi scope => (hanswers i (Nat.le_of_succ_le hi) scope).trans (if_neg (hne i hi))
          rw [Engine.runPasses, Engine.call, hanswers index (Nat.le_refl _), hrest,
            EStateM.run_forEach_cons hpass]
          dsimp only
          rw [if_pos rfl]
          cases hloop : (EStateM.forEach (pass handler node) (index + 1) items).run t.2 with
          | error e s' =>
              rw [EStateM.run_bind_of_error hloop]
              rfl
          | ok outputs s' =>
              rw [EStateM.run_bind_of_ok hloop]
              show Except.ok (succeeded node index output :: outputs.mapIdx _) =
                Except.ok ((output :: outputs).mapIdx _)
              rw [List.mapIdx_cons]
              simp [Nat.add_comm, Nat.add_left_comm]

omit [PyObject V] in
theorem map_output_mapIdx (node : GraphNode V) (outputs : List V) :
    (outputs.mapIdx (succeeded node)).map (·.output) = outputs := by
  refine List.ext_getElem? fun i => ?_
  rw [List.getElem?_map, List.getElem?_mapIdx]
  cases outputs[i]? <;> rfl

omit [PyObject V] in
/-- A loop over a list that begins as these items goes over some items, over none where there are
none. -/
theorem run_enumerate_live {ε α : Type} (live : LiveList V σ)
    (body : Nat → V → EStateM ε (Shared V σ) α) (fuel : Nat) (items : List V) (s : Shared V σ) :
    (∃ s', (EStateM.enumerate (live.now items s) body fuel 0).run s = .ok none s') ∨
      ∃ listed, (items = [] → listed = []) ∧
        (EStateM.enumerate (live.now items s) body fuel 0).run s =
          ((EStateM.forEach body 0 listed >>= fun outputs => pure (some outputs)) :
            EStateM ε (Shared V σ) (Option (List α))).run s := by
  by_cases hempty : items = []
  · cases fuel with
    | zero => exact .inl ⟨s, rfl⟩
    | succ fuel =>
        refine .inr ⟨[], fun _ => rfl, ?_⟩
        rw [EStateM.enumerate, EStateM.run_get_bind, live.start, hempty]
        rfl
  · rcases EStateM.run_enumerate (live.now items s) body fuel 0 s with h | ⟨listed, h⟩
    · exact .inl h
    · exact .inr ⟨listed, fun h => absurd h hempty, h⟩

/-- A loop that ends is the loop of an engine that fixes what its passes find and what the handler
answers in them. -/
theorem exists_engine_runLoop (parse : String → Except String (Node V))
    (handlers : String → Option (ScopedHandler V σ)) (live : LiveList V σ) (fuel : Nat)
    (node : GraphNode V) (s : Shared V σ) :
    (∃ s', (runScopedLoop parse handlers live fuel node).run s = .ok none s') ∨
      ∃ engine : Engine V, engine.parse = parse ∧ (engine.runLoop node s.context).map some =
        ((runScopedLoop parse handlers live fuel node).run s).toExcept := by
  cases hitems : (loneEngine parse).overItems node s.context with
  | error e =>
      refine .inr ⟨loneEngine parse, rfl, ?_⟩
      unfold Engine.runLoop Engine.loopItems runScopedLoop
      rw [hitems, EStateM.run_get_bind, hitems]
      rfl
  | ok items =>
      rw [run_runScopedLoop handlers live fuel hitems]
      rcases run_enumerate_live live (pass (scopedHandlerFor handlers node) node) fuel items s with
        ⟨s', hrun⟩ | ⟨listed, hempty, hrun⟩
      · refine .inl ⟨s', ?_⟩
        rw [EStateM.run_bind_of_ok hrun]
        rfl
      obtain ⟨found, answers, hpasses⟩ :=
        exists_runPasses (scopedHandlerFor handlers node) node s.context listed 0 s
      let engine : Engine V :=
        { parse
          handlers := fun _ => some fun _ i _ => answers i
          seen := fun _ i? context => (i?.map found).getD context
          left := fun _ context => context
          listed := fun _ _ => listed }
      have hloop : engine.loopItems node s.context = .ok listed := by
        have hover : engine.overItems node s.context = .ok items := hitems
        rw [Engine.loopItems, hover, Except.ok_map]
        split
        · next h => rw [hempty (List.isEmpty_iff.mp h)]
        · rfl
      have hpasses := hpasses engine (fun _ _ => rfl) fun _ _ _ => rfl
      simp only [Nat.zero_add] at hpasses
      refine .inr ⟨engine, rfl, ?_⟩
      rw [Engine.runLoop, hloop, Except.ok_bind, hpasses]
      cases hcalls :
          (EStateM.forEach (pass (scopedHandlerFor handlers node) node) 0 listed).run s with
      | error e s' =>
          rw [EStateM.run_bind_of_error hcalls] at hrun
          rw [EStateM.run_bind_of_error hrun]
          rfl
      | ok outputs s' =>
          rw [EStateM.run_bind_of_ok hcalls] at hrun
          rw [EStateM.run_bind_of_ok hrun]
          cases outputs with
          | nil => rfl
          | cons first rest =>
              have hsome : ((first :: rest).mapIdx (succeeded node)).isEmpty = false := by simp
              rw [EStateM.Result.toExcept, Except.ok_map, Except.ok_bind, hsome,
                if_neg Bool.false_ne_true, map_output_mapIdx]
              rfl

/-! ## Every pass is recorded -/

/-- What a loop records when its passes have returned these outputs. -/
structure LoopRecorded (node : GraphNode V) (outputs : List V)
    (outcomes : List (NodeOutcome V)) : Prop where
  length : outcomes.length = max 1 outputs.length
  /-- An outcome for each pass; the last one has the list of all outputs. -/
  passes : ∀ i output, outputs[i]? = some output → outcomes[i]? = some (succeeded node i
    (if i + 1 = outputs.length then PyObject.ofList outputs else output))
  nothing : outputs = [] → outcomes = [succeeded node 0 (PyObject.ofList [])]
  /-- The list is the value of the node once the results of its batch are recorded. -/
  published : ∀ {batch : List (GraphNode V × Except (Raised V) (List (NodeOutcome V)))}
    {t t' : RunState V}, Engine.settle batch t = .ok t' → (batch.map (·.1.key)).Nodup →
      (node, .ok outcomes) ∈ batch →
        t'.context.lookup node.key = some (PyObject.ofList outputs) ∧ outcomes <:+: t'.outcomes

theorem loopRecorded (node : GraphNode V) (outputs : List V) :
    LoopRecorded node outputs (loopOutcomes node outputs) where
  length := length_loopOutcomes node outputs
  passes _ _ h := getElem?_loopOutcomes h
  nothing h := by rw [h]; rfl
  published hsettle hnodup hmem :=
    settle_lookup (getLast?_loopOutcomes node outputs) hsettle hnodup hmem

/-- A loop node whose handler leaves the list of the loop alone calls it once for each item, in
order, each time on a copy of the run context with the item and the index.  If every pass returns,
the outcomes record the passes and the list of their outputs is published; otherwise the loop ends
with the first pass that raises.  What a handler leaves in its copy never reaches the run
context. -/
theorem loop_records_passes (parse : String → Except String (Node V))
    (handlers : String → Option (ScopedHandler V σ)) (live : LiveList V σ) (node : GraphNode V)
    (s : Shared V σ) {items : List V} (hover : OverYields parse node s.context items)
    (hleaves : EStateM.Keeps (fun t => live.now items s t.2) (scopedHandlerFor handlers node node))
    {fuel : Nat} (hfuel : items.length < fuel) :
    ((∃ outputs s',
        EStateM.Calls (pass (scopedHandlerFor handlers node) node) 0 items s outputs s' ∧
        ∃ outcomes, (runScopedLoop parse handlers live fuel node).run s = .ok (some outcomes) s' ∧
          LoopRecorded node outputs outcomes) ∨
      ∃ done item rest outputs s₁ e s', items = done ++ item :: rest ∧
        EStateM.Calls (pass (scopedHandlerFor handlers node) node) 0 done s outputs s₁ ∧
        (pass (scopedHandlerFor handlers node) node done.length item).run s₁ = .error e s' ∧
        (runScopedLoop parse handlers live fuel node).run s = .error e s') ∧
      (EStateM.Keeps (fun t => t.2.context) (scopedHandlerFor handlers node node) →
        ((runScopedLoop parse handlers live fuel node).run s).state.context = s.context) := by
  refine ⟨?_, fun hkeeps => keeps_runScopedLoop parse live fuel hkeeps s⟩
  have hloop := run_runScopedLoop handlers live fuel hover.overItems
  have hpasses := EStateM.run_enumerate_of_keeps (keeps_pass hleaves) fuel 0 s
    (by rw [live.start]; exact hfuel)
  rw [live.start, List.drop_zero] at hpasses
  rcases EStateM.run_forEach (pass (scopedHandlerFor handlers node) node) items 0 s with
    ⟨outputs, s', hcalls, hrun⟩ |
    ⟨done, item, rest, outputs, s₁, e, s', hitems, hcalls, hlast, hrun⟩
  · rw [EStateM.run_bind_of_ok hrun] at hpasses
    rw [EStateM.run_bind_of_ok hpasses] at hloop
    exact .inl ⟨outputs, s', hcalls, loopOutcomes node outputs, hloop, loopRecorded node outputs⟩
  · rw [EStateM.run_bind_of_error hrun] at hpasses
    rw [EStateM.run_bind_of_error hpasses] at hloop
    rw [Nat.zero_add] at hlast
    exact .inr ⟨done, item, rest, outputs, s₁, e, s', hitems, hcalls, hlast, hloop⟩

end

/-! ## A loop over two numbers -/

/-- A handler that rebinds its item and answers what it was. -/
def rebinding : ScopedHandler (Value Empty) Unit := fun _ => do
  let (scope, _) ← get
  modify fun s => (s.1.insert "item" .none, s.2)
  return (scope.lookup "item").getD .none

def eachNode : GraphNode (Value Empty) where
  key := "each"
  type := "loop"
  config := AList.singleton "over" (.str "xs")

def parseName : String → Except String (Node (Value Empty)) := fun text => .ok (.name text)

def twoNumbers : Shared (Value Empty) Unit where
  context := AList.singleton "xs" (.list [.int 1, .int 2])
  rest := ()

theorem twoNumbers_yield :
    OverYields parseName eachNode twoNumbers.context [.int 1, .int 2] :=
  ⟨"xs", .list [.int 1, .int 2], rfl, by decide, rfl, rfl, rfl, by decide⟩

/-- The list `xs` of a run context. -/
def listOfContext (context : Context (Value Empty)) : List (Value Empty) :=
  ((context.lookup "xs").bind PyObject.items?).getD []

/-- The list `xs` of the run context, to which a handler may append. -/
def contextList : LiveList (Value Empty) Unit where
  now items s t := items ++ (listOfContext t.context).drop (listOfContext s.context).length
  start items s := by rw [List.drop_length, List.append_nil]

/-- A handler that answers its item, after `scope["xs"].append(3)` in the first pass: its copy and
the run context share the list. -/
def appending : ScopedHandler (Value Empty) Unit := fun _ => do
  let (scope, shared) ← get
  match scope.lookup "index" with
  | some (.int 0) =>
      let xs := Value.list (listOfContext shared.context ++ [.int 3])
      set (scope.insert "xs" xs, { shared with context := shared.context.insert "xs" xs })
  | _ => pure ()
  return (scope.lookup "item").getD .none

/-- The outcome of the last pass has the list of both outputs instead of its own; and where the
handler appends to the list, a third pass follows the two. -/
theorem last_output_overwritten :
    (∃ outcomes : List (NodeOutcome (Value Empty)),
      OverYields parseName eachNode twoNumbers.context [.int 1, .int 2] ∧
      EStateM.Calls (pass rebinding eachNode) 0 [.int 1, .int 2] twoNumbers [.int 1, .int 2]
        twoNumbers ∧
      (runScopedLoop parseName (fun _ => some rebinding) contextList 1001 eachNode).run twoNumbers =
        .ok (some outcomes) twoNumbers ∧
      outcomes.map (fun o => (o.iteration, o.output)) =
        [(0, .int 1), (1, .list [.int 1, .int 2])] ∧
      ¬ ∀ (i : Nat) (output : Value Empty), [.int 1, .int 2][i]? = some output →
        ∃ o, outcomes[i]? = some o ∧ o.output = output) ∧
    ∃ outcomes s', (runScopedLoop parseName (fun _ => some appending) contextList 1001
        eachNode).run twoNumbers = .ok (some outcomes) s' ∧
      outcomes.map (fun o => (o.iteration, o.output)) =
        [(0, .int 1), (1, .int 2), (2, .list [.int 1, .int 2, .int 3])] := by
  refine ⟨⟨_, twoNumbers_yield, .cons rfl (.cons rfl .nil), rfl, rfl, fun h => ?_⟩,
    _, _, rfl, rfl⟩
  obtain ⟨o, ho, houtput⟩ := h 1 (.int 2) rfl
  cases ho
  cases houtput

/-- Both passes answer their item, and the loop records them. -/
theorem two_numbers_recorded :
    (∃ outcomes,
      EStateM.Calls (pass rebinding eachNode) 0 [.int 1, .int 2] twoNumbers [.int 1, .int 2]
        twoNumbers ∧
      (runScopedLoop parseName (fun _ => some rebinding) contextList 1001 eachNode).run
        twoNumbers = .ok (some outcomes) twoNumbers ∧
      LoopRecorded eachNode [.int 1, .int 2] outcomes) ∧
      ((runScopedLoop parseName (fun _ => some rebinding) contextList 1001 eachNode).run
        twoNumbers).state.context = twoNumbers.context := by
  have hfuel : [Value.int 1, (.int 2 : Value Empty)].length < 1001 := by decide
  obtain ⟨hloop, hcontext⟩ := loop_records_passes parseName (fun _ => some rebinding) contextList
    eachNode twoNumbers twoNumbers_yield (fun _ => rfl) hfuel
  refine ⟨?_, hcontext fun _ => rfl⟩
  rcases hloop with ⟨outputs, s', hcalls, outcomes, hrun, hrecorded⟩ |
    ⟨_, _, _, _, _, _, _, _, _, _, hrun⟩
  · have hanswers : outputs = [.int 1, .int 2] ∧ s' = twoNumbers := by
      cases hcalls with
      | cons first rest =>
          cases first
          cases rest with
          | cons second rest =>
              cases second
              cases rest
              exact ⟨rfl, rfl⟩
    obtain ⟨rfl, rfl⟩ := hanswers
    exact ⟨outcomes, hcalls, hrun, hrecorded⟩
  · cases hrun

end YoutubeFactory.Workflow
