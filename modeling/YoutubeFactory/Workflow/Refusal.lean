import YoutubeFactory.Workflow.Expressions
import YoutubeFactory.Python.Value

/-!
# Refusal of constructs outside the language

`evaluate` has no check of its own that an expression stays inside the language.
A forbidden node is refused when the walk reaches it, so whether an expression
with one is refused depends on what the walk does before.

Two things keep the walk from a forbidden node.  A comparison stops at its first
link that fails, and leaves the comparators after it unvisited.  And an operator
may raise an exception that no handler of the evaluator catches.  `walk` lists
the operator steps of an evaluation.  `WalkStep.Smooth` says that a step does
neither.  When every step is smooth the walk visits the whole tree
(`evaluateNode_refused`), and an expression with a forbidden node is refused.
-/

namespace YoutubeFactory.Workflow

open Python

/-! ## The permitted set -/

section Permitted

variable {V : Type}

mutual

/-- Every node of the tree has a case in `_evaluate` and every operator is in its
table. -/
def Node.permitted : Node V → Bool
  | .expression body => body.permitted
  | .constant _ => true
  | .name _ => true
  | .subscript value slice => value.permitted && slice.permitted
  | .boolOp _ values => permittedAll values
  | .unaryOp op operand => (unaryTable op).isSome && operand.permitted
  | .binOp op left right => (binaryTable op).isSome && (left.permitted && right.permitted)
  | .compare left links => left.permitted && permittedLinks links
  | .list elts => permittedAll elts
  | .tuple elts => permittedAll elts
  | .unsupported _ _ => false

def permittedAll : List (Node V) → Bool
  | [] => true
  | node :: nodes => node.permitted && permittedAll nodes

def permittedLinks : List (CmpOperator × Node V) → Bool
  | [] => true
  | (op, comparator) :: links =>
      (compareTable op).isSome && (comparator.permitted && permittedLinks links)

end

end Permitted

/-! ## The steps of a walk -/

section

variable {V : Type} [PyObject V]

/-- An operator applied by the walk, with its operands.  A link of a comparison
carries the links still to come. -/
inductive WalkStep (V : Type) where
  | subscript (container key : V)
  | boolOp (op : BoolOperator) (values : List V)
  | unary (function : Unary) (operand : V)
  | binary (op : Operator) (function : Binary) (left right : V)
  | link (compare : Comparison) (left right : V) (rest : List (CmpOperator × Node V))

/-- No exception of the operator escapes the evaluator, and a comparison does not
stop in front of a forbidden construct. -/
def WalkStep.Smooth : WalkStep V → Prop
  | .subscript container key => ∀ exc, Workflow.subscript container key ≠ .error (.raised exc)
  | .boolOp op values => ∀ exc, applyBoolOp op values ≠ .error (.raised exc)
  | .unary function operand => ∀ exc, PyObject.unary function operand ≠ .error exc
  | .binary op function left right =>
      ∀ exc, applyBinary op function left right ≠ .error (.raised exc)
  | .link compare left right rest =>
      (∀ exc, applyCompare compare left right ≠ .error (.raised exc)) ∧
      (permittedLinks rest = false → applyCompare compare left right = .ok true)

/-- What comes after a sub-evaluation, if it gives a value. -/
def following {α β : Type} (r : Except EvalError α) (next : α → List β) : List β :=
  match r with
  | .ok a => next a
  | .error _ => []

mutual

/-- The steps `evaluateNode` takes, in order. -/
def walk (context : Context V) (depth : Nat) (node : Node V) : List (WalkStep V) :=
  if depth > MAX_DEPTH then []
  else
    match node with
    | .expression body => walk context (depth + 1) body
    | .constant _ => []
    | .name _ => []
    | .subscript value slice =>
        walk context (depth + 1) value ++
          following (evaluateNode context (depth + 1) value) fun container =>
            walk context (depth + 1) slice ++
              following (evaluateNode context (depth + 1) slice) fun key =>
                [.subscript container key]
    | .boolOp op values =>
        walkNodes context (depth + 1) values ++
          following (evaluateNodes context (depth + 1) values) fun vs => [.boolOp op vs]
    | .unaryOp op operand =>
        match unaryTable op with
        | none => []
        | some unary =>
            walk context (depth + 1) operand ++
              following (evaluateNode context (depth + 1) operand) fun v => [.unary unary v]
    | .binOp op left right =>
        match binaryTable op with
        | none => []
        | some binary =>
            walk context (depth + 1) left ++
              following (evaluateNode context (depth + 1) left) fun l =>
                walk context (depth + 1) right ++
                  following (evaluateNode context (depth + 1) right) fun r =>
                    [.binary op binary l r]
    | .compare left links =>
        walk context (depth + 1) left ++
          following (evaluateNode context (depth + 1) left) fun l =>
            walkLinks context (depth + 1) l links
    | .list elts => walkNodes context (depth + 1) elts
    | .tuple elts => walkNodes context (depth + 1) elts
    | .unsupported _ _ => []

/-- The steps of `evaluateNodes`. -/
def walkNodes (context : Context V) (depth : Nat) : List (Node V) → List (WalkStep V)
  | [] => []
  | node :: nodes =>
      walk context depth node ++
        following (evaluateNode context depth node) fun _ => walkNodes context depth nodes

/-- The steps of `evaluateLinks`. -/
def walkLinks (context : Context V) (depth : Nat) (left : V) :
    List (CmpOperator × Node V) → List (WalkStep V)
  | [] => []
  | (op, comparator) :: links =>
      match compareTable op with
      | none => []
      | some compare =>
          walk context depth comparator ++
            following (evaluateNode context depth comparator) fun right =>
              .link compare left right links ::
                following (applyCompare compare left right) fun b =>
                  if b then walkLinks context depth right links else []

end

/-! ## Results that refuse what is not permitted -/

/-- A result that is not an escaping exception, and is a value only if what it was
computed from is permitted. -/
def Refuses {α : Type} (permitted : Bool) : Except EvalError α → Prop
  | .ok _ => permitted = true
  | .error (.expressionError _) => True
  | .error (.raised _) => False

theorem Refuses.throw {α : Type} (p : Bool) (msg : String) :
    Refuses p (.error (.expressionError msg) : Except EvalError α) := trivial

/-- A computation that goes on after a value refuses what either part refuses. -/
theorem Refuses.bind {α β : Type} {p q : Bool} {r : Except EvalError α}
    {f : α → Except EvalError β} (hr : Refuses p r) (hf : ∀ a, r = .ok a → Refuses q (f a)) :
    Refuses (p && q) (r >>= f) := by
  cases r with
  | ok a =>
      have hp : p = true := hr
      subst hp
      exact hf a rfl
  | error e =>
      cases e with
      | expressionError msg => trivial
      | raised exc => exact hr.elim

/-- The last part of a computation may be a step, which is permitted by itself. -/
theorem Refuses.bind_step {α β : Type} {p : Bool} {r : Except EvalError α}
    {f : α → Except EvalError β} (hr : Refuses p r) (hf : ∀ a, r = .ok a → Refuses true (f a)) :
    Refuses p (r >>= f) := by
  have h := hr.bind hf
  rwa [Bool.and_true] at h

/-- A step no exception escapes from. -/
theorem Refuses.of_not_raised {α : Type} {r : Except EvalError α}
    (h : ∀ exc, r ≠ .error (.raised exc)) : Refuses true r := by
  cases r with
  | ok a => rfl
  | error e =>
      cases e with
      | expressionError msg => trivial
      | raised exc => exact absurd rfl (h exc)

theorem Refuses.uncaught {α : Type} {r : Except PyErr α} (h : ∀ exc, r ≠ .error exc) :
    Refuses true (uncaught r) := by
  cases r with
  | ok a => rfl
  | error exc => exact absurd rfl (h exc)

/-- A refusing result of something forbidden is an `ExpressionError`. -/
theorem Refuses.expressionError {α : Type} {r : Except EvalError α} (h : Refuses false r) :
    ∃ msg, r = .error (.expressionError msg) := by
  cases r with
  | ok a => cases h
  | error e =>
      cases e with
      | expressionError msg => exact ⟨msg, rfl⟩
      | raised exc => exact h.elim

/-! ## A smooth walk visits the whole tree -/

theorem following_ok {α β : Type} (a : α) (next : α → List β) :
    following (.ok a) next = next a := rfl

/-- Below the depth limit the walk looks at the node; past it, it refuses anything. -/
theorem refuses_unless_deep {context : Context V} {node : Node V} {depth : Nat}
    (h : ¬ depth > MAX_DEPTH → Refuses node.permitted (evaluateNode context depth node)) :
    Refuses node.permitted (evaluateNode context depth node) := by
  by_cases hd : depth > MAX_DEPTH
  · rw [evaluateNode.eq_def, if_pos hd]
    exact .throw _ _
  · exact h hd

mutual

theorem evaluateNode_refused (context : Context V) : ∀ (node : Node V) (depth : Nat),
    (∀ s ∈ walk context depth node, s.Smooth) →
      Refuses node.permitted (evaluateNode context depth node)
  | .expression body, depth, h => refuses_unless_deep fun hd => by
      rw [walk, if_neg hd] at h
      rw [evaluateNode, if_neg hd, Node.permitted]
      exact evaluateNode_refused context body _ h
  | .constant value, depth, _ => refuses_unless_deep fun hd => by
      rw [evaluateNode, if_neg hd]
      rfl
  | .name id, depth, _ => refuses_unless_deep fun hd => by
      rw [evaluateNode, if_neg hd]
      rfl
  | .subscript value slice, depth, h => refuses_unless_deep fun hd => by
      rw [walk, if_neg hd, List.forall_mem_append] at h
      rw [evaluateNode, if_neg hd, Node.permitted]
      refine .bind (evaluateNode_refused context value _ h.1) fun container hc => ?_
      rw [hc, following_ok, List.forall_mem_append] at h
      refine .bind_step (evaluateNode_refused context slice _ h.2.1) fun key hk => ?_
      rw [hk, following_ok, List.forall_mem_singleton] at h
      exact .of_not_raised h.2.2
  | .boolOp op values, depth, h => refuses_unless_deep fun hd => by
      rw [walk, if_neg hd, List.forall_mem_append] at h
      rw [evaluateNode, if_neg hd, Node.permitted]
      refine .bind_step (evaluateNodes_refused context values _ h.1) fun vs hvs => ?_
      rw [hvs, following_ok, List.forall_mem_singleton] at h
      exact .of_not_raised h.2
  | .unaryOp op operand, depth, h => refuses_unless_deep fun hd => by
      rw [walk, if_neg hd] at h
      rw [evaluateNode, if_neg hd, Node.permitted]
      cases ht : unaryTable op with
      | none => exact .throw _ _
      | some function =>
          rw [ht, List.forall_mem_append] at h
          refine .bind_step (evaluateNode_refused context operand _ h.1) fun v hv => ?_
          rw [hv, following_ok, List.forall_mem_singleton] at h
          exact .uncaught h.2
  | .binOp op left right, depth, h => refuses_unless_deep fun hd => by
      rw [walk, if_neg hd] at h
      rw [evaluateNode, if_neg hd, Node.permitted]
      cases ht : binaryTable op with
      | none => exact .throw _ _
      | some function =>
          rw [ht, List.forall_mem_append] at h
          simp only [Option.isSome_some, Bool.true_and]
          refine .bind (evaluateNode_refused context left _ h.1) fun l hl => ?_
          rw [hl, following_ok, List.forall_mem_append] at h
          refine .bind_step (evaluateNode_refused context right _ h.2.1) fun r hr => ?_
          rw [hr, following_ok, List.forall_mem_singleton] at h
          exact .of_not_raised h.2.2
  | .compare left links, depth, h => refuses_unless_deep fun hd => by
      rw [walk, if_neg hd, List.forall_mem_append] at h
      rw [evaluateNode, if_neg hd, Node.permitted]
      refine .bind (evaluateNode_refused context left _ h.1) fun l hl => ?_
      rw [hl, following_ok] at h
      exact .bind_step (evaluateLinks_refused context links _ l h.2) fun _ _ => rfl
  | .list elts, depth, h => refuses_unless_deep fun hd => by
      rw [walk, if_neg hd] at h
      rw [evaluateNode, if_neg hd, Node.permitted]
      exact .bind_step (evaluateNodes_refused context elts _ h) fun _ _ => rfl
  | .tuple elts, depth, h => refuses_unless_deep fun hd => by
      rw [walk, if_neg hd] at h
      rw [evaluateNode, if_neg hd, Node.permitted]
      exact .bind_step (evaluateNodes_refused context elts _ h) fun _ _ => rfl
  | .unsupported kind children, depth, _ => refuses_unless_deep fun hd => by
      rw [evaluateNode, if_neg hd]
      exact .throw _ _

theorem evaluateNodes_refused (context : Context V) : ∀ (nodes : List (Node V)) (depth : Nat),
    (∀ s ∈ walkNodes context depth nodes, s.Smooth) →
      Refuses (permittedAll nodes) (evaluateNodes context depth nodes)
  | [], _, _ => rfl
  | node :: nodes, depth, h => by
      rw [walkNodes, List.forall_mem_append] at h
      rw [evaluateNodes, permittedAll]
      refine .bind (evaluateNode_refused context node _ h.1) fun v hv => ?_
      rw [hv, following_ok] at h
      exact .bind_step (evaluateNodes_refused context nodes _ h.2) fun _ _ => rfl

/-- A smooth link that fails has nothing forbidden after it. -/
theorem evaluateLinks_refused (context : Context V) :
    ∀ (links : List (CmpOperator × Node V)) (depth : Nat) (left : V),
      (∀ s ∈ walkLinks context depth left links, s.Smooth) →
        Refuses (permittedLinks links) (evaluateLinks context depth left links)
  | [], _, _, _ => rfl
  | (op, comparator) :: links, depth, left, h => by
      rw [walkLinks] at h
      rw [evaluateLinks, permittedLinks]
      cases ht : compareTable op with
      | none => exact .throw _ _
      | some function =>
          rw [ht, List.forall_mem_append] at h
          simp only [Option.isSome_some, Bool.true_and]
          refine .bind (evaluateNode_refused context comparator _ h.1) fun right hr => ?_
          rw [hr, following_ok, List.forall_mem_cons] at h
          obtain ⟨-, ⟨hraise, hstop⟩, hrest⟩ := h
          cases hc : applyCompare function left right with
          | error e =>
              cases e with
              | expressionError msg => exact .throw _ _
              | raised exc => exact absurd hc (hraise exc)
          | ok b =>
              rw [hc, following_ok] at hrest
              cases b with
              | true => exact evaluateLinks_refused context links _ right hrest
              | false =>
                  cases hp : permittedLinks links with
                  | true => rfl
                  | false => rw [hstop hp] at hc; cases hc

end

/-- An expression with a forbidden construct is refused when it is too long to be
walked, or every step of its evaluation is smooth. -/
theorem evaluate_refuses_forbidden (parse : String → Except String (Node V))
    (expression : String) (context : Context V) (tree : Node V)
    (hparse : parse (strip expression) = .ok tree) (hforbidden : tree.permitted = false)
    (hsmooth : expression.length ≤ MAX_LENGTH → ∀ s ∈ walk context 0 tree, s.Smooth) :
    ∃ msg, evaluate parse expression context = .error (.expressionError msg) := by
  unfold evaluate
  split
  · exact ⟨_, rfl⟩
  · next hlength =>
    rw [hparse]
    have hrefused := evaluateNode_refused context tree 0 (hsmooth (not_lt.mp hlength))
    rw [hforbidden] at hrefused
    exact hrefused.expressionError

end

/-- `1 < 2 < f()` and `1 > 2 > f()`: the two sides of the call in a comparison. -/
def chainedCall (op : CmpOperator) : Node (Value Empty) :=
  .expression (.compare (.constant (.int 1))
    [(op, .constant (.int 2)), (op, .unsupported .call [.name "f"])])

/-- The first link of `1 < 2 < f()` holds, so the walk reaches the call. -/
theorem evaluate_refuses_chainedCall :
    ∃ msg, evaluate (fun _ => .ok (chainedCall .lt)) "1 < 2 < f()" ∅ =
      .error (.expressionError msg) := by
  refine evaluate_refuses_forbidden _ _ ∅ (chainedCall .lt) rfl rfl fun _ => ?_
  have hwalk : walk ∅ 0 (chainedCall .lt) =
      [.link .lt (.int 1) (.int 2) [(.lt, .unsupported .call [.name "f"])]] := rfl
  have hlink : applyCompare .lt (.int 1 : Value Empty) (.int 2) = .ok true := rfl
  rw [hwalk, List.forall_mem_singleton]
  refine ⟨fun exc h => ?_, fun _ => hlink⟩
  rw [hlink] at h
  cases h

/-- The first link of `1 > 2 > f()` fails, and the call is accepted. -/
theorem evaluate_accepts_chainedCall :
    (chainedCall .gt).permitted = false ∧
      evaluate (fun _ => .ok (chainedCall .gt)) "1 > 2 > f()" ∅ = .ok (.bool false) :=
  ⟨rfl, rfl⟩

end YoutubeFactory.Workflow
