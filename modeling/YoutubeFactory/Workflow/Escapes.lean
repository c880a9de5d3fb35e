import YoutubeFactory.Python.Failures
import YoutubeFactory.Workflow.Agreement
import YoutubeFactory.Workflow.Refusal

/-!
# Exceptions that escape

The evaluator turns some exceptions of the operators into values or into `ExpressionError`, and
each of its cases handles other classes: a unary operator is not guarded at all, an arithmetic one
against division by zero and unfit types only.  An evaluation ends with another exception exactly
if it applies an operator that raises one past its guard (`evaluateNode_raises_iff`).
`WalkStep.Escapes` says on which operands this happens.
-/

namespace YoutubeFactory.Workflow

open Python

/-! ## Parsing -/

/-- What `ast.parse` raises. -/
inductive ParseError where
  | syntaxError (message : String)
  | raised (exc : PyErr)
deriving DecidableEq, Repr

section

variable {V : Type} [PyObject V]

/-- `evaluate`, with a parser that may raise more than `SyntaxError`. -/
def evaluateSource (parse : String → Except ParseError (Node V)) (expression : String)
    (context : Context V) : Except EvalError V :=
  if expression.length > MAX_LENGTH then
    .error (.expressionError "Expression is too long.")
  else
    match parse (strip expression) with
    | .error (.syntaxError msg) => .error (.expressionError s!"Invalid expression: {msg}")
    | .error (.raised exc) => .error (.raised exc)
    | .ok tree => evaluateNode context 0 tree

theorem evaluateSource_mapError (parse : String → Except String (Node V)) (expression : String)
    (context : Context V) :
    evaluateSource (fun text => (parse text).mapError .syntaxError) expression context =
      evaluate parse expression context := by
  unfold evaluateSource evaluate
  split
  · rfl
  · dsimp only
    cases parse (strip expression) with
    | error msg => rfl
    | ok tree => rfl

/-! ## Evaluations that end with another exception -/

/-- An exception that is no `ExpressionError`. -/
def Escaped {α : Type} (r : Except EvalError α) : Prop := ∃ exc, r = .error (.raised exc)

omit [PyObject V] in
@[simp] theorem not_escaped_ok {α : Type} (a : α) : ¬ Escaped (.ok a) := nofun

omit [PyObject V] in
@[simp] theorem not_escaped_expressionError {α : Type} (msg : String) :
    ¬ Escaped (.error (.expressionError msg) : Except EvalError α) := nofun

theorem escaped_bind {α β : Type} {r : Except EvalError α} {f : α → Except EvalError β} :
    Escaped (r >>= f) ↔ Escaped r ∨ ∃ a, r = .ok a ∧ Escaped (f a) := by
  cases r with
  | error e => simp [Escaped]
  | ok a => simp

theorem escaped_bind_pure {α β : Type} {r : Except EvalError α} {f : α → β} :
    Escaped (r >>= fun a => pure (f a)) ↔ Escaped r := by
  simp [escaped_bind]

/-- What `evaluate` does on a value or an `ExpressionError`. -/
theorem not_escaped_iff {α : Type} {r : Except EvalError α} :
    ¬ Escaped r ↔ (∃ a, r = .ok a) ∨ ∃ msg, r = .error (.expressionError msg) := by
  rcases r with (msg | exc) | a
  · simp
  · simp [Escaped]
  · simp

/-- A step whose operator raises past the guard of its case. -/
def WalkStep.Raises : WalkStep V → Prop
  | .subscript container key => Escaped (Workflow.subscript container key)
  | .boolOp op values => Escaped (applyBoolOp op values)
  | .unary function operand => Escaped (uncaught (PyObject.unary function operand))
  | .binary op function left right => Escaped (applyBinary op function left right)
  | .link compare left right _ => Escaped (applyCompare compare left right)

omit [PyObject V] in
theorem exists_mem_following {α : Type} {r : Except EvalError α} {next : α → List (WalkStep V)}
    {p : WalkStep V → Prop} :
    (∃ s ∈ following r next, p s) ↔ ∃ a, r = .ok a ∧ ∃ s ∈ next a, p s := by
  cases r with
  | error e => simp [following]
  | ok a => simp [following]

theorem exists_mem_append {α : Type} {xs ys : List α} {p : α → Prop} :
    (∃ x ∈ xs ++ ys, p x) ↔ (∃ x ∈ xs, p x) ∨ ∃ y ∈ ys, p y := by
  simp only [List.mem_append, or_and_right, exists_or]

mutual

/-- An evaluation ends with another exception exactly if one of its steps raises it. -/
theorem evaluateNode_raises_iff (context : Context V) : ∀ (node : Node V) (depth : Nat),
    Escaped (evaluateNode context depth node) ↔ ∃ s ∈ walk context depth node, s.Raises
  | node, depth => by
      by_cases hd : depth > MAX_DEPTH
      · rw [evaluateNode.eq_def, walk.eq_def, if_pos hd, if_pos hd]
        simp
      · cases node with
        | expression body =>
            rw [evaluateNode, walk, if_neg hd, if_neg hd]
            exact evaluateNode_raises_iff context body _
        | constant value =>
            rw [evaluateNode, walk, if_neg hd, if_neg hd]
            simp
        | name id =>
            rw [evaluateNode, walk, if_neg hd, if_neg hd]
            simp
        | subscript value slice =>
            rw [evaluateNode, walk, if_neg hd, if_neg hd]
            simp only [escaped_bind, exists_mem_append, exists_mem_following,
              evaluateNode_raises_iff context value, evaluateNode_raises_iff context slice,
              List.mem_singleton, exists_eq_left, WalkStep.Raises]
        | boolOp op values =>
            rw [evaluateNode, walk, if_neg hd, if_neg hd]
            simp only [escaped_bind, exists_mem_append, exists_mem_following,
              evaluateNodes_raises_iff context values, List.mem_singleton, exists_eq_left,
              WalkStep.Raises]
        | unaryOp op operand =>
            rw [evaluateNode, walk, if_neg hd, if_neg hd]
            cases unaryTable op with
            | none => simp
            | some function =>
                simp only [escaped_bind, exists_mem_append, exists_mem_following,
                  evaluateNode_raises_iff context operand, List.mem_singleton, exists_eq_left,
                  WalkStep.Raises]
        | binOp op left right =>
            rw [evaluateNode, walk, if_neg hd, if_neg hd]
            cases binaryTable op with
            | none => simp
            | some function =>
                simp only [escaped_bind, exists_mem_append, exists_mem_following,
                  evaluateNode_raises_iff context left, evaluateNode_raises_iff context right,
                  List.mem_singleton, exists_eq_left, WalkStep.Raises]
        | compare left links =>
            rw [evaluateNode, walk, if_neg hd, if_neg hd]
            simp only [escaped_bind, exists_mem_append, exists_mem_following,
              evaluateNode_raises_iff context left, evaluateLinks_raises_iff context links,
              Except.pure_eq_ok, not_escaped_ok, and_false, exists_false, or_false]
        | list elts =>
            rw [evaluateNode, walk, if_neg hd, if_neg hd, escaped_bind_pure]
            exact evaluateNodes_raises_iff context elts _
        | tuple elts =>
            rw [evaluateNode, walk, if_neg hd, if_neg hd, escaped_bind_pure]
            exact evaluateNodes_raises_iff context elts _
        | unsupported kind children =>
            rw [evaluateNode, walk, if_neg hd, if_neg hd]
            simp

theorem evaluateNodes_raises_iff (context : Context V) : ∀ (nodes : List (Node V)) (depth : Nat),
    Escaped (evaluateNodes context depth nodes) ↔ ∃ s ∈ walkNodes context depth nodes, s.Raises
  | [], _ => by simp [evaluateNodes, walkNodes]
  | node :: nodes, depth => by
      rw [evaluateNodes, walkNodes]
      simp only [escaped_bind, exists_mem_append, exists_mem_following,
        evaluateNode_raises_iff context node, evaluateNodes_raises_iff context nodes,
        Except.pure_eq_ok, not_escaped_ok, and_false, exists_false, or_false]

theorem evaluateLinks_raises_iff (context : Context V) :
    ∀ (links : List (CmpOperator × Node V)) (depth : Nat) (left : V),
      Escaped (evaluateLinks context depth left links) ↔
        ∃ s ∈ walkLinks context depth left links, s.Raises
  | [], _, _ => by simp [evaluateLinks, walkLinks]
  | (op, comparator) :: links, depth, left => by
      rw [evaluateLinks, walkLinks]
      cases compareTable op with
      | none => simp
      | some function =>
          simp only [escaped_bind, exists_mem_append, exists_mem_following,
            evaluateNode_raises_iff context comparator, List.mem_cons, or_and_right, exists_or,
            exists_eq_left, WalkStep.Raises]
          refine or_congr Iff.rfl (exists_congr fun right => and_congr_right fun _ =>
            or_congr Iff.rfl (exists_congr fun b => and_congr_right fun _ => ?_))
          cases b with
          | true => exact evaluateLinks_raises_iff context links _ right
          | false => simp

end

end

/-! ## The steps -/

section

variable {F : Type} [Inexact F] [Formatting F]

omit [Formatting F] in
theorem escaped_unary_iff {function : Unary} {v : Value F} :
    Escaped (uncaught (Value.unary function v)) ↔ function ≠ .not ∧ toInexact? v = none := by
  have hnumber : ∀ w : Value F, ¬ Escaped (uncaught (.ok w)) := not_escaped_ok
  have hother : ∀ exc, Escaped (uncaught (.error exc : Except PyErr (Value F))) := fun exc =>
    ⟨exc, rfl⟩
  cases function with
  | not => exact iff_of_false (by rw [unary_not]; exact hnumber _) fun h => h.1 rfl
  | neg =>
      cases v with
      | bool b => exact iff_of_false (hnumber _) fun h => by cases h.2
      | int i => exact iff_of_false (hnumber _) fun h => by cases h.2
      | inexact x => exact iff_of_false (hnumber _) fun h => by cases h.2
      | _ => exact iff_of_true (hother _) ⟨nofun, rfl⟩
  | pos =>
      cases v with
      | bool b => exact iff_of_false (hnumber _) fun h => by cases h.2
      | int i => exact iff_of_false (hnumber _) fun h => by cases h.2
      | inexact x => exact iff_of_false (hnumber _) fun h => by cases h.2
      | _ => exact iff_of_true (hother _) ⟨nofun, rfl⟩

/-- An exponent is tested without an exception. -/
theorem exponentRefused_ok (v : Value F) : ∃ b, exponentRefused v = .ok b := by
  cases v with
  | bool b => exact ⟨_, rfl⟩
  | int i => exact ⟨_, rfl⟩
  | inexact x =>
      unfold exponentRefused
      split
      · exact ⟨_, rfl⟩
      · exact ⟨_, rfl⟩
  | _ => exact ⟨_, rfl⟩

omit [Inexact F] [Formatting F] in
theorem escaped_guardBinary_iff {r : Except PyErr (Value F)} :
    Escaped (guardBinary r) ↔ Fails r := by
  unfold guardBinary Fails
  cases r with
  | ok v => exact iff_of_false (not_escaped_ok v) nofun
  | error exc =>
      dsimp only
      split
      · next hkind =>
          refine iff_of_false (not_escaped_expressionError _) fun ⟨_, h, hzero, _⟩ => ?_
          cases h
          exact hzero hkind
      · next hkind =>
          refine iff_of_false (not_escaped_expressionError _) fun ⟨_, h, _, htype⟩ => ?_
          cases h
          exact htype hkind
      · next hzero htype => exact iff_of_true ⟨exc, rfl⟩ ⟨exc, rfl, hzero, htype⟩

theorem escaped_binary_iff {op : Operator} {function : Binary} {l r : Value F} :
    Escaped (applyBinary op function l r) ↔
      (op = .pow → exponentRefused r = .ok false) ∧ BinaryFails function l r := by
  have happly : Escaped (guardBinary (PyObject.binary function l r)) ↔ BinaryFails function l r :=
    escaped_guardBinary_iff.trans fails_binary_iff
  unfold applyBinary
  by_cases hop : op = .pow
  · obtain ⟨refused, hrefused⟩ := exponentRefused_ok r
    rw [if_pos hop, hrefused]
    cases refused with
    | true => exact iff_of_false (not_escaped_expressionError _) fun h => by cases h.1 hop
    | false => exact happly.trans ⟨fun h => ⟨fun _ => rfl, h⟩, And.right⟩
  · rw [if_neg hop]
    exact happly.trans ⟨fun h => ⟨fun hpow => absurd hpow hop, h⟩, And.right⟩

theorem escaped_applyCompare_iff {compare : Comparison} {l r : Value F} :
    Escaped (applyCompare compare l r) ↔
      ∃ exc, Value.compare compare l r = .error exc ∧ exc.kind ≠ .typeError := by
  have hcompare : PyObject.compare compare l r = Value.compare compare l r := rfl
  unfold applyCompare
  rw [hcompare]
  cases Value.compare compare l r with
  | ok b => exact iff_of_false (not_escaped_ok b) nofun
  | error exc =>
      dsimp only
      split
      · next hkind =>
          refine iff_of_false (not_escaped_ok false) fun ⟨_, h, htype⟩ => ?_
          cases h
          exact htype hkind
      · next hkind => exact iff_of_true ⟨exc, rfl⟩ ⟨exc, rfl, hkind⟩

/-- A link of a comparison raises past its guard only for an integer that is no byte. -/
theorem escaped_compare_iff (hplain : ComparesPlainly F) {compare : Comparison} {l r : Value F} :
    Escaped (applyCompare compare l r) ↔ (compare = .isIn ∨ compare = .notIn) ∧
      ∃ bs i, r = .bytes bs ∧ l.asInt? = some i ∧ ¬ (0 ≤ i ∧ i < 256) := by
  rw [escaped_applyCompare_iff]
  have hequal : ∀ b : Bool, ¬ ∃ exc, (.ok b : Except PyErr Bool) = .error exc ∧
      exc.kind ≠ .typeError := fun b => nofun
  have horder : ∀ op, ¬ ∃ exc, Value.order op l r = .error exc ∧ exc.kind ≠ .typeError :=
    fun op ⟨exc, h, htype⟩ => htype (order_error hplain l r h)
  cases compare with
  | eq => exact iff_of_false (hequal _) fun h => by rcases h.1 with h | h <;> cases h
  | ne => exact iff_of_false (hequal _) fun h => by rcases h.1 with h | h <;> cases h
  | lt => exact iff_of_false (horder .lt) fun h => by rcases h.1 with h | h <;> cases h
  | le => exact iff_of_false (horder .le) fun h => by rcases h.1 with h | h <;> cases h
  | gt => exact iff_of_false (horder .gt) fun h => by rcases h.1 with h | h <;> cases h
  | ge => exact iff_of_false (horder .ge) fun h => by rcases h.1 with h | h <;> cases h
  | isIn =>
      rw [Value.compare, contains_error_iff]
      simp
  | notIn =>
      simp only [Value.compare, Except.map_eq_error, contains_error_iff]
      simp

/-- The subscripts of a container raise only what the evaluator handles. -/
theorem not_escaped_subscript (container key : Value F) :
    ¬ Escaped (Workflow.subscript container key) := by
  have hgetitem : PyObject.getitem container key = Value.getitem container key := rfl
  unfold Workflow.subscript
  rw [hgetitem]
  cases hitem : Value.getitem container key with
  | ok v => exact not_escaped_ok v
  | error exc =>
      dsimp only
      rw [if_pos (getitem_error hitem)]
      exact not_escaped_ok _

/-- The operands on which an operator raises past the guard of its case. -/
def WalkStep.Escapes : WalkStep (Value F) → Prop
  | .subscript _ _ => False
  | .boolOp _ _ => False
  | .unary function operand => function ≠ .not ∧ toInexact? operand = none
  | .binary op function left right =>
      (op = .pow → exponentRefused right = .ok false) ∧ BinaryFails function left right
  | .link compare left right _ => (compare = .isIn ∨ compare = .notIn) ∧
      ∃ bs i, right = .bytes bs ∧ left.asInt? = some i ∧ ¬ (0 ≤ i ∧ i < 256)

theorem WalkStep.raises_iff (hplain : ComparesPlainly F) (s : WalkStep (Value F)) :
    s.Raises ↔ s.Escapes := by
  cases s with
  | subscript container key => exact iff_of_false (not_escaped_subscript container key) id
  | boolOp op values =>
      refine iff_of_false (fun h => ?_) id
      rw [WalkStep.Raises, applyBoolOp_value] at h
      exact not_escaped_ok _ h
  | unary function operand => exact escaped_unary_iff
  | binary op function left right => exact escaped_binary_iff
  | link compare left right rest => exact escaped_compare_iff hplain

/-! ## Evaluations that fail only with `ExpressionError` -/

/-- The text is too long or no expression, or no operator that its evaluation reaches gets
operands on which it raises past the guard of its case. -/
def Contained (parse : String → Except ParseError (Node (Value F))) (expression : String)
    (context : Context (Value F)) : Prop :=
  expression.length > MAX_LENGTH ∨
    (∃ msg, parse (strip expression) = .error (.syntaxError msg)) ∨
      ∃ tree, parse (strip expression) = .ok tree ∧ ∀ s ∈ walk context 0 tree, ¬ s.Escapes

/-- `evaluate` returns a value or raises `ExpressionError` exactly on contained expressions. -/
theorem evaluate_only_expressionError_iff (hplain : ComparesPlainly F)
    (parse : String → Except ParseError (Node (Value F))) (expression : String)
    (context : Context (Value F)) :
    ((∃ v, evaluateSource parse expression context = .ok v) ∨
      ∃ msg, evaluateSource parse expression context = .error (.expressionError msg)) ↔
      Contained parse expression context := by
  rw [← not_escaped_iff]
  unfold evaluateSource Contained
  by_cases hlong : expression.length > MAX_LENGTH
  · rw [if_pos hlong]
    exact iff_of_true (not_escaped_expressionError _) (.inl hlong)
  · rw [if_neg hlong, or_iff_right hlong]
    rcases parse (strip expression) with (msg | exc) | tree
    · exact iff_of_true (not_escaped_expressionError _) (.inl ⟨msg, rfl⟩)
    · refine iff_of_false (fun h => h ⟨exc, rfl⟩) ?_
      rintro (⟨msg, h⟩ | ⟨tree, h, -⟩) <;> cases h
    · have hraises := evaluateNode_raises_iff context tree 0
      simp only [WalkStep.raises_iff hplain] at hraises
      dsimp only
      rw [hraises]
      push Not
      exact ⟨fun h => .inr ⟨tree, rfl, h⟩, fun h => by
        rcases h with ⟨msg, h⟩ | ⟨_, h, hall⟩
        · cases h
        · cases h
          exact hall⟩

end

/-! ## Bytes and texts -/

/-- `byte in b'az'` -/
def byteMembership : Node (Value Empty) :=
  .expression (.compare (.name "byte") [(.isIn, .constant (.bytes [97, 122]))])

theorem byteMembership_contained :
    (∃ v, evaluateSource (fun _ => .ok byteMembership) "byte in b'az'"
      (AList.singleton "byte" (.int 97)) = .ok v) ∨
      ∃ msg, evaluateSource (fun _ => .ok byteMembership) "byte in b'az'"
        (AList.singleton "byte" (.int 97)) = .error (.expressionError msg) := by
  refine (evaluate_only_expressionError_iff ⟨nofun, nofun⟩ _ _ _).mpr
    (.inr (.inr ⟨byteMembership, rfl, fun s hs => ?_⟩))
  have hwalk : walk (AList.singleton "byte" (.int 97)) 0 byteMembership =
      [.link .isIn (.int 97) (.bytes [97, 122]) []] := rfl
  rw [hwalk, List.mem_singleton] at hs
  subst hs
  rintro ⟨-, bs, i, -, hi, hno⟩
  cases hi
  exact hno (by decide)

/-- `-'a'`, `300 in b''` and `'a' * 9223372036854775808` -/
theorem exceptions_escape :
    evaluateSource (fun _ => .ok (.expression (.unaryOp .uSub
      (.constant (.str "a" : Value Empty))))) "-'a'" ∅ =
        .error (.raised ⟨.typeError, "bad operand type for unary -: 'str'"⟩) ∧
      evaluateSource (fun _ => .ok (.expression (.compare (.constant (.int 300 : Value Empty))
        [(.isIn, .constant (.bytes []))]))) "300 in b''" ∅ =
          .error (.raised ⟨.valueError, "byte must be in range(0, 256)"⟩) ∧
      evaluateSource (fun _ => .ok (.expression (.binOp .mult (.constant (.str "a" : Value Empty))
        (.constant (.int 9223372036854775808))))) "'a' * 9223372036854775808" ∅ =
          .error (.raised ⟨.overflowError, "cannot fit 'int' into an index-sized integer"⟩) :=
  ⟨rfl, rfl, rfl⟩

end YoutubeFactory.Workflow
