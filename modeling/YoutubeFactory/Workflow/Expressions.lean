import YoutubeFactory.Lib.Except
import YoutubeFactory.Python.Object

/-!
# The workflow expression language

`app/core/workflow/expressions.py`.  A condition is parsed to a Python AST and
walked by `_evaluate` (`evaluateNode` here), which accepts a fixed set of node
types and of operators and raises `ExpressionError` on anything else.

Python's own parser is not part of the repository.  It is the argument `parse`
of `evaluate`, from the stripped text to a tree or to the message of the
`SyntaxError`.

The tree is Python's `ast`, except that the parallel lists `ops` and
`comparators` of a comparison are one list of links: the source zips them with
`strict=True`.  A node outside the language keeps its class and its children.
-/

namespace YoutubeFactory.Workflow

open Python

/-! ## Limits -/

/-- Largest allowed exponent. -/
def MAX_EXPONENT : Nat := 64

/-- Guards against a deeply nested expression exhausting the C stack. -/
def MAX_DEPTH : Nat := 25

def MAX_LENGTH : Nat := 1000

/-! ## Syntax -/

inductive BoolOperator where
  | and | or
deriving DecidableEq, Repr

inductive UnaryOperator where
  | not | uSub | uAdd | invert
deriving DecidableEq, Repr

inductive Operator where
  | add | sub | mult | div | floorDiv | mod | pow
  | matMult | lShift | rShift | bitOr | bitXor | bitAnd
deriving DecidableEq, Repr

inductive CmpOperator where
  | eq | notEq | lt | ltE | gt | gtE | is | isNot | isIn | notIn
deriving DecidableEq, Repr

/-- The expression node classes `_evaluate` has no case for. -/
inductive UnsupportedKind where
  | namedExpr | lambda | ifExp | dict | set | listComp | setComp | dictComp | generatorExp
  | await | yield | yieldFrom | call | formattedValue | joinedStr | attribute | starred | slice
deriving DecidableEq, Repr

/-- An AST node.  `V` is the type of the objects constants hold. -/
inductive Node (V : Type) where
  | expression (body : Node V)
  | constant (value : V)
  | name (id : String)
  | subscript (value slice : Node V)
  | boolOp (op : BoolOperator) (values : List (Node V))
  | unaryOp (op : UnaryOperator) (operand : Node V)
  | binOp (op : Operator) (left right : Node V)
  | compare (left : Node V) (links : List (CmpOperator × Node V))
  | list (elts : List (Node V))
  | tuple (elts : List (Node V))
  | unsupported (kind : UnsupportedKind) (children : List (Node V))

/-- `type(node.op).__name__` for a unary operator. -/
def UnaryOperator.typeName : UnaryOperator → String
  | .not => "Not" | .uSub => "USub" | .uAdd => "UAdd" | .invert => "Invert"

/-- `type(node.op).__name__` for a binary operator. -/
def Operator.typeName : Operator → String
  | .add => "Add" | .sub => "Sub" | .mult => "Mult" | .div => "Div" | .floorDiv => "FloorDiv"
  | .mod => "Mod" | .pow => "Pow" | .matMult => "MatMult" | .lShift => "LShift"
  | .rShift => "RShift" | .bitOr => "BitOr" | .bitXor => "BitXor" | .bitAnd => "BitAnd"

/-- `type(op).__name__` for a comparison operator. -/
def CmpOperator.typeName : CmpOperator → String
  | .eq => "Eq" | .notEq => "NotEq" | .lt => "Lt" | .ltE => "LtE" | .gt => "Gt" | .gtE => "GtE"
  | .is => "Is" | .isNot => "IsNot" | .isIn => "In" | .notIn => "NotIn"

/-- `type(node).__name__` for a node outside the language. -/
def UnsupportedKind.typeName : UnsupportedKind → String
  | .namedExpr => "NamedExpr" | .lambda => "Lambda" | .ifExp => "IfExp" | .dict => "Dict"
  | .set => "Set" | .listComp => "ListComp" | .setComp => "SetComp" | .dictComp => "DictComp"
  | .generatorExp => "GeneratorExp" | .await => "Await" | .yield => "Yield"
  | .yieldFrom => "YieldFrom" | .call => "Call" | .formattedValue => "FormattedValue"
  | .joinedStr => "JoinedStr" | .attribute => "Attribute" | .starred => "Starred"
  | .slice => "Slice"

section

variable {V : Type}

mutual

/-- How much deeper than the node its deepest descendant is. -/
def Node.height : Node V → Nat
  | .expression body => body.height + 1
  | .constant _ => 0
  | .name _ => 0
  | .subscript value slice => max value.height slice.height + 1
  | .boolOp _ values => heightAll values + 1
  | .unaryOp _ operand => operand.height + 1
  | .binOp _ left right => max left.height right.height + 1
  | .compare left links => max left.height (heightLinks links) + 1
  | .list elts => heightAll elts + 1
  | .tuple elts => heightAll elts + 1
  | .unsupported _ _ => 0

def heightAll : List (Node V) → Nat
  | [] => 0
  | node :: nodes => max node.height (heightAll nodes)

def heightLinks : List (CmpOperator × Node V) → Nat
  | [] => 0
  | (_, comparator) :: links => max comparator.height (heightLinks links)

end

end

/-! ## The operator tables -/

/-- `_BINARY` -/
def binaryTable : Operator → Option Binary
  | .add => some .add
  | .sub => some .sub
  | .mult => some .mul
  | .div => some .truediv
  | .floorDiv => some .floordiv
  | .mod => some .mod
  | .pow => some .pow
  | _ => none

/-- `_COMPARE` -/
def compareTable : CmpOperator → Option Comparison
  | .eq => some .eq
  | .notEq => some .ne
  | .lt => some .lt
  | .ltE => some .le
  | .gt => some .gt
  | .gtE => some .ge
  | .isIn => some .isIn
  | .notIn => some .notIn
  | _ => none

/-- `_UNARY` -/
def unaryTable : UnaryOperator → Option Unary
  | .not => some .not
  | .uSub => some .neg
  | .uAdd => some .pos
  | .invert => none

/-! ## Evaluation -/

/-- What evaluation raises: `ExpressionError` with its message, or an exception
of an operator that no handler of the evaluator turns into one. -/
inductive EvalError where
  | expressionError (message : String)
  | raised (exc : PyErr)
deriving DecidableEq, Repr

section

variable {V : Type} [PyObject V]

/-- An operator call outside every `try`: its exception goes through. -/
def uncaught {α : Type} : Except PyErr α → Except EvalError α
  | .ok a => .ok a
  | .error exc => .error (.raised exc)

/-- `container[key]`, where a missing or impossible key is `None`. -/
def subscript (container key : V) : Except EvalError V :=
  match PyObject.getitem container key with
  | .ok v => .ok v
  | .error exc =>
      if exc.kind = .keyError ∨ exc.kind = .indexError ∨ exc.kind = .typeError then
        .ok PyObject.none
      else .error (.raised exc)

/-- `all(values)`.  The values are computed already; `all` only tests them. -/
def allTrue : List V → Except PyErr Bool
  | [] => .ok true
  | v :: vs => do if ← PyObject.truth v then allTrue vs else return false

/-- `any(values)` -/
def anyTrue : List V → Except PyErr Bool
  | [] => .ok false
  | v :: vs => do if ← PyObject.truth v then return true else anyTrue vs

/-- The value of a `BoolOp` from the values of its operands. -/
def applyBoolOp (op : BoolOperator) (values : List V) : Except EvalError V :=
  match op with
  | .and => (uncaught (allTrue values)).map PyObject.ofBool
  | .or => (uncaught (anyTrue values)).map PyObject.ofBool

/-- The exponent guard: `not isinstance(right, int | float) or abs(right) > MAX_EXPONENT`. -/
def exponentRefused (right : V) : Except EvalError Bool :=
  if PyObject.isNumber right then uncaught (PyObject.absExceeds right MAX_EXPONENT)
  else .ok true

/-- The two `except` clauses around `binary(left, right)`. -/
def guardBinary : Except PyErr V → Except EvalError V
  | .ok v => .ok v
  | .error exc =>
      match exc.kind with
      | .zeroDivisionError => .error (.expressionError "Division by zero.")
      | .typeError => .error (.expressionError s!"Unsupported operand types: {exc.text}")
      | _ => .error (.raised exc)

/-- The last step of the `BinOp` case, both operands being evaluated. -/
def applyBinary (op : Operator) (binary : Binary) (left right : V) : Except EvalError V := do
  if op = .pow then
    if ← exponentRefused right then
      throw (.expressionError s!"Exponent must be at most {MAX_EXPONENT}.")
  guardBinary (PyObject.binary binary left right)

/-- One link of a comparison.  Operands that cannot be ordered compare as false. -/
def applyCompare (compare : Comparison) (left right : V) : Except EvalError Bool :=
  match PyObject.compare compare left right with
  | .ok b => .ok b
  | .error exc => if exc.kind = .typeError then .ok false else .error (.raised exc)

mutual

/-- `_evaluate` -/
def evaluateNode (context : Context V) (depth : Nat) (node : Node V) : Except EvalError V :=
  if depth > MAX_DEPTH then
    .error (.expressionError "Expression nests too deeply.")
  else
    match node with
    | .expression body => evaluateNode context (depth + 1) body
    | .constant value => .ok value
    -- An unknown name is None.
    | .name id => .ok ((context.lookup id).getD PyObject.none)
    | .subscript value slice => do
        let container ← evaluateNode context (depth + 1) value
        let key ← evaluateNode context (depth + 1) slice
        subscript container key
    | .boolOp op values => do
        let vs ← evaluateNodes context (depth + 1) values
        applyBoolOp op vs
    | .unaryOp op operand =>
        match unaryTable op with
        | none => .error (.expressionError s!"Unsupported operator: {op.typeName}")
        | some unary => do
            let v ← evaluateNode context (depth + 1) operand
            uncaught (PyObject.unary unary v)
    | .binOp op left right =>
        match binaryTable op with
        | none => .error (.expressionError s!"Unsupported operator: {op.typeName}")
        | some binary => do
            let l ← evaluateNode context (depth + 1) left
            let r ← evaluateNode context (depth + 1) right
            applyBinary op binary l r
    | .compare left links => do
        let l ← evaluateNode context (depth + 1) left
        let b ← evaluateLinks context (depth + 1) l links
        return PyObject.ofBool b
    | .list elts => do
        let vs ← evaluateNodes context (depth + 1) elts
        return PyObject.ofList vs
    | .tuple elts => do
        let vs ← evaluateNodes context (depth + 1) elts
        return PyObject.ofTuple vs
    | .unsupported kind _ =>
        .error (.expressionError s!"Unsupported expression element: {kind.typeName}")

/-- The list comprehensions of `_evaluate`: every node, left to right. -/
def evaluateNodes (context : Context V) (depth : Nat) :
    List (Node V) → Except EvalError (List V)
  | [] => return []
  | node :: nodes => do
      let v ← evaluateNode context depth node
      let vs ← evaluateNodes context depth nodes
      return v :: vs

/-- The loop of the `Compare` case, with the left operand of the next link. -/
def evaluateLinks (context : Context V) (depth : Nat) (left : V) :
    List (CmpOperator × Node V) → Except EvalError Bool
  | [] => return true
  | (op, comparator) :: links =>
      match compareTable op with
      | none => .error (.expressionError s!"Unsupported comparison: {op.typeName}")
      | some compare => do
          let right ← evaluateNode context depth comparator
          -- A link that fails ends the walk: the comparators after it are not visited.
          if ← applyCompare compare left right then evaluateLinks context depth right links
          else return false

end

/-- `evaluate` -/
def evaluate (parse : String → Except String (Node V)) (expression : String)
    (context : Context V) : Except EvalError V :=
  if expression.length > MAX_LENGTH then
    .error (.expressionError "Expression is too long.")
  else
    match parse (strip expression) with
    | .error msg => .error (.expressionError s!"Invalid expression: {msg}")
    | .ok tree => evaluateNode context 0 tree

/-- `evaluate_condition`: an absent or blank condition is true. -/
def evaluateCondition (parse : String → Except String (Node V)) (expression : Option String)
    (context : Context V) : Except EvalError Bool := do
  match expression with
  | none => return true
  | some text =>
      if strip text = "" then return true
      let v ← evaluate parse text context
      uncaught (PyObject.truth v)

/-! ## Nodes that give a value -/

omit [PyObject V] in
theorem ok_of_not_deep {depth : Nat} {e : EvalError} {x : Except EvalError V} {v : V} :
    (if depth > MAX_DEPTH then .error e else x) = .ok v ↔ depth ≤ MAX_DEPTH ∧ x = .ok v := by
  split
  · next hd => exact iff_of_false nofun fun h => Nat.not_le.mpr hd h.1
  · next hd => exact (and_iff_right (Nat.not_lt.mp hd)).symm

variable {context : Context V} {depth : Nat} {v : V}

theorem evaluateNode_expression_eq_ok {body : Node V} :
    evaluateNode context depth (.expression body) = .ok v ↔
      depth ≤ MAX_DEPTH ∧ evaluateNode context (depth + 1) body = .ok v :=
  ok_of_not_deep

theorem evaluateNode_constant_eq_ok {value : V} :
    evaluateNode context depth (.constant value) = .ok v ↔ depth ≤ MAX_DEPTH ∧ value = v := by
  refine ok_of_not_deep.trans (and_congr_right fun _ => ?_)
  rw [Except.ok.injEq]

theorem evaluateNode_subscript_eq_ok {value slice : Node V} :
    evaluateNode context depth (.subscript value slice) = .ok v ↔
      depth ≤ MAX_DEPTH ∧ ∃ container, evaluateNode context (depth + 1) value = .ok container ∧
        ∃ key, evaluateNode context (depth + 1) slice = .ok key ∧
          subscript container key = .ok v := by
  refine ok_of_not_deep.trans (and_congr_right fun _ => ?_)
  simp only [Except.bind_eq_ok]

theorem evaluateNode_boolOp_eq_ok {op : BoolOperator} {values : List (Node V)} :
    evaluateNode context depth (.boolOp op values) = .ok v ↔
      depth ≤ MAX_DEPTH ∧ ∃ vs, evaluateNodes context (depth + 1) values = .ok vs ∧
        applyBoolOp op vs = .ok v := by
  refine ok_of_not_deep.trans (and_congr_right fun _ => ?_)
  simp only [Except.bind_eq_ok]

theorem evaluateNode_unaryOp_eq_ok {op : UnaryOperator} {operand : Node V} :
    evaluateNode context depth (.unaryOp op operand) = .ok v ↔
      depth ≤ MAX_DEPTH ∧ ∃ function, unaryTable op = some function ∧
        ∃ x, evaluateNode context (depth + 1) operand = .ok x ∧
          uncaught (PyObject.unary function x) = .ok v := by
  refine ok_of_not_deep.trans (and_congr_right fun _ => ?_)
  cases unaryTable op with
  | none => simp
  | some function => simp [Except.bind_eq_ok]

theorem evaluateNode_binOp_eq_ok {op : Operator} {left right : Node V} :
    evaluateNode context depth (.binOp op left right) = .ok v ↔
      depth ≤ MAX_DEPTH ∧ ∃ function, binaryTable op = some function ∧
        ∃ l, evaluateNode context (depth + 1) left = .ok l ∧
          ∃ r, evaluateNode context (depth + 1) right = .ok r ∧
            applyBinary op function l r = .ok v := by
  refine ok_of_not_deep.trans (and_congr_right fun _ => ?_)
  cases binaryTable op with
  | none => simp
  | some function => simp [Except.bind_eq_ok]

theorem evaluateNode_compare_eq_ok {left : Node V} {links : List (CmpOperator × Node V)} :
    evaluateNode context depth (.compare left links) = .ok v ↔
      depth ≤ MAX_DEPTH ∧ ∃ l, evaluateNode context (depth + 1) left = .ok l ∧
        ∃ b, evaluateLinks context (depth + 1) l links = .ok b ∧ PyObject.ofBool b = v := by
  refine ok_of_not_deep.trans (and_congr_right fun _ => ?_)
  simp only [Except.bind_eq_ok, Except.pure_eq_ok, Except.ok.injEq]

theorem evaluateNode_list_eq_ok {elts : List (Node V)} :
    evaluateNode context depth (.list elts) = .ok v ↔
      depth ≤ MAX_DEPTH ∧ ∃ vs, evaluateNodes context (depth + 1) elts = .ok vs ∧
        PyObject.ofList vs = v := by
  refine ok_of_not_deep.trans (and_congr_right fun _ => ?_)
  simp only [Except.bind_eq_ok, Except.pure_eq_ok, Except.ok.injEq]

theorem evaluateNode_tuple_eq_ok {elts : List (Node V)} :
    evaluateNode context depth (.tuple elts) = .ok v ↔
      depth ≤ MAX_DEPTH ∧ ∃ vs, evaluateNodes context (depth + 1) elts = .ok vs ∧
        PyObject.ofTuple vs = v := by
  refine ok_of_not_deep.trans (and_congr_right fun _ => ?_)
  simp only [Except.bind_eq_ok, Except.pure_eq_ok, Except.ok.injEq]

/-- An element outside the language has no value. -/
theorem evaluateNode_unsupported_ne_ok {kind : UnsupportedKind} {children : List (Node V)} :
    evaluateNode context depth (.unsupported kind children) ≠ .ok v := by
  intro h
  cases (ok_of_not_deep.mp h).2

theorem evaluateNodes_cons_eq_ok {node : Node V} {nodes : List (Node V)} {vs : List V} :
    evaluateNodes context depth (node :: nodes) = .ok vs ↔
      ∃ v, evaluateNode context depth node = .ok v ∧
        ∃ rest, evaluateNodes context depth nodes = .ok rest ∧ v :: rest = vs := by
  simp only [evaluateNodes, Except.bind_eq_ok, Except.pure_eq_ok, Except.ok.injEq]

end

end YoutubeFactory.Workflow
