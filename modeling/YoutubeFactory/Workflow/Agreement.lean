import YoutubeFactory.Lib.Except
import YoutubeFactory.Workflow.Expressions
import YoutubeFactory.Python.Value

/-!
# Agreement with ordinary Python evaluation

`pyEval` is Python's own meaning of the language: `and` and `or` return an
operand and do not look at the operands after it, a name must be bound, and an
operator that raises has no value.

The evaluator differs from it in one construct.  Its `BoolOp` case evaluates
every operand and returns `all` or `any` of their truth values.  So it agrees on
the truth value of an `and` or `or` when no operand that Python skips makes it
raise, and on the value when Python's is a boolean too.  `Regular` says that every
`and` and `or` of an expression is of this kind, and that exponents stay within the
limit.
-/

namespace YoutubeFactory.Workflow

open Python

variable {F : Type} [Inexact F] [Formatting F]

/-! ## Python's semantics -/

/-- A construct the reference semantics gives no meaning to. -/
def outsideLanguage : PyErr := ⟨.other "outside the language", ""⟩

mutual

/-- Ordinary Python evaluation. -/
def pyEval (context : Context (Value F)) : Node (Value F) → Except PyErr (Value F)
  | .expression body => pyEval context body
  | .constant value => .ok value
  | .name id =>
      match context.lookup id with
      | some v => .ok v
      | none => .error ⟨.nameError, s!"name '{id}' is not defined"⟩
  | .subscript value slice => do
      let container ← pyEval context value
      let key ← pyEval context slice
      Value.getitem container key
  | .boolOp op values => pyBoolOp context op values
  | .unaryOp op operand =>
      match unaryTable op with
      | none => .error outsideLanguage
      | some function => do
          let v ← pyEval context operand
          Value.unary function v
  | .binOp op left right =>
      match binaryTable op with
      | none => .error outsideLanguage
      | some function => do
          let l ← pyEval context left
          let r ← pyEval context right
          Value.binary function l r
  | .compare left links => do
      let l ← pyEval context left
      let b ← pyLinks context l links
      return .bool b
  | .list elts => do
      let vs ← pyEvals context elts
      return .list vs
  | .tuple elts => do
      let vs ← pyEvals context elts
      return .tuple vs
  | .unsupported _ _ => .error outsideLanguage

def pyEvals (context : Context (Value F)) : List (Node (Value F)) → Except PyErr (List (Value F))
  | [] => .ok []
  | node :: nodes => do
      let v ← pyEval context node
      let vs ← pyEvals context nodes
      return v :: vs

/-- `and` and `or` return the operand that decides, or the last one. -/
def pyBoolOp (context : Context (Value F)) (op : BoolOperator) :
    List (Node (Value F)) → Except PyErr (Value F)
  | [] => .ok (.bool (op = .and))
  | [node] => pyEval context node
  | node :: next :: nodes => do
      let v ← pyEval context node
      if v.truth = decide (op = .and) then pyBoolOp context op (next :: nodes) else .ok v

/-- A chain of comparisons stops at the first that is false. -/
def pyLinks (context : Context (Value F)) (left : Value F) :
    List (CmpOperator × Node (Value F)) → Except PyErr Bool
  | [] => .ok true
  | (op, comparator) :: links =>
      match compareTable op with
      | none => .error outsideLanguage
      | some function => do
          let right ← pyEval context comparator
          if ← Value.compare function left right then pyLinks context right links
          else return false

end

/-! ## The expressions the evaluator agrees on -/

/-- A value of type `bool`. -/
def IsBool (v : Value F) : Prop := ∃ b, v = .bool b

mutual

/-- No operand of an `and` or `or` that Python skips makes the evaluator raise, an
`and` or `or` that is used for more than its truth value is a boolean, and every
exponent is within the limit.  `truthOnly` says that only the truth value of the
node is used. -/
def Regular (context : Context (Value F)) (truthOnly : Bool) (depth : Nat) :
    Node (Value F) → Prop
  | .expression body => Regular context truthOnly (depth + 1) body
  | .constant _ => True
  | .name _ => True
  | .subscript value slice =>
      Regular context false (depth + 1) value ∧ Regular context false (depth + 1) slice
  | .boolOp op values =>
      RegularOperands context op (depth + 1) values ∧
        (truthOnly = false → ∀ v, pyBoolOp context op values = .ok v → IsBool v)
  | .unaryOp op operand => Regular context (op = .not) (depth + 1) operand
  | .binOp op left right =>
      Regular context false (depth + 1) left ∧ Regular context false (depth + 1) right ∧
        (op = .pow → ∀ r, pyEval context right = .ok r → exponentRefused r = .ok false)
  | .compare left links =>
      Regular context false (depth + 1) left ∧
        ∀ l, pyEval context left = .ok l → RegularLinks context (depth + 1) l links
  | .list elts => RegularAll context (depth + 1) elts
  | .tuple elts => RegularAll context (depth + 1) elts
  | .unsupported _ _ => True

def RegularAll (context : Context (Value F)) (depth : Nat) : List (Node (Value F)) → Prop
  | [] => True
  | node :: nodes => Regular context false depth node ∧ RegularAll context depth nodes

/-- The operands after the one that decides are those Python skips. -/
def RegularOperands (context : Context (Value F)) (op : BoolOperator) (depth : Nat) :
    List (Node (Value F)) → Prop
  | [] => True
  | [node] => Regular context true depth node
  | node :: next :: nodes =>
      Regular context true depth node ∧
        ∀ v, pyEval context node = .ok v →
          if v.truth = decide (op = .and) then RegularOperands context op depth (next :: nodes)
          else ∃ ws, evaluateNodes context depth (next :: nodes) = .ok ws

def RegularLinks (context : Context (Value F)) (depth : Nat) (left : Value F) :
    List (CmpOperator × Node (Value F)) → Prop
  | [] => True
  | (op, comparator) :: links =>
      Regular context false depth comparator ∧
        ∀ function right, compareTable op = some function →
          pyEval context comparator = .ok right →
            Value.compare function left right = .ok true →
              RegularLinks context depth right links

end

/-! ## Boolean values -/

omit [Formatting F] in
theorem unary_not (v : Value F) : Value.unary .not v = .ok (.bool (!v.truth)) := by
  cases v <;> rfl

omit [Formatting F] in
/-- A boolean is its own truth value. -/
theorem IsBool.eq_bool {v : Value F} (h : IsBool v) : v = .bool v.truth := by
  obtain ⟨b, rfl⟩ := h
  rfl

/-! ## The truth of `and` and `or` -/

theorem allTrue_value : ∀ vs : List (Value F), allTrue vs = .ok (vs.all Value.truth)
  | [] => rfl
  | v :: vs => by
      have ht : PyObject.truth v = .ok v.truth := rfl
      rw [allTrue, ht, Except.ok_bind, List.all_cons]
      cases v.truth with
      | true => exact allTrue_value vs
      | false => rfl

theorem anyTrue_value : ∀ vs : List (Value F), anyTrue vs = .ok (vs.any Value.truth)
  | [] => rfl
  | v :: vs => by
      have ht : PyObject.truth v = .ok v.truth := rfl
      rw [anyTrue, ht, Except.ok_bind, List.any_cons]
      cases v.truth with
      | true => rfl
      | false => exact anyTrue_value vs

/-- The truth value of `and` or `or` over operands that are all evaluated. -/
def boolOpTruth (op : BoolOperator) (vs : List (Value F)) : Bool :=
  match op with
  | .and => vs.all Value.truth
  | .or => vs.any Value.truth

theorem applyBoolOp_value (op : BoolOperator) (vs : List (Value F)) :
    applyBoolOp op vs = .ok (.bool (boolOpTruth op vs)) := by
  cases op with
  | and => simp only [applyBoolOp, allTrue_value]; rfl
  | or => simp only [applyBoolOp, anyTrue_value]; rfl

omit [Formatting F] in
/-- An operand that does not decide leaves the truth value to the others. -/
theorem boolOpTruth_cons_of_undecided {op : BoolOperator} {v : Value F} {vs : List (Value F)}
    (h : v.truth = decide (op = .and)) : boolOpTruth op (v :: vs) = boolOpTruth op vs := by
  cases op with
  | and => simp [boolOpTruth, show v.truth = true by simpa using h]
  | or => simp [boolOpTruth, show v.truth = false by simpa using h]

omit [Formatting F] in
/-- An operand that decides gives the truth value. -/
theorem boolOpTruth_cons_of_decided {op : BoolOperator} {v : Value F} {vs : List (Value F)}
    (h : v.truth ≠ decide (op = .and)) : boolOpTruth op (v :: vs) = v.truth := by
  cases op with
  | and => simp [boolOpTruth, show v.truth = false by simpa using h]
  | or => simp [boolOpTruth, show v.truth = true by simpa using h]

omit [Formatting F] in
theorem boolOpTruth_singleton (op : BoolOperator) (v : Value F) :
    boolOpTruth op [v] = v.truth := by
  cases op with
  | and => simp [boolOpTruth]
  | or => simp [boolOpTruth]

/-! ## The agreement -/

/-- The result is a value with the truth value of `v`, and is `v` unless only the
truth value is used. -/
def AgreesWith (truthOnly : Bool) (v : Value F) (r : Except EvalError (Value F)) : Prop :=
  ∃ w, r = .ok w ∧ w.truth = v.truth ∧ (truthOnly = false → w = v)

omit [Formatting F] in
theorem AgreesWith.of_eq {truthOnly : Bool} {v : Value F} {r : Except EvalError (Value F)}
    (h : r = .ok v) : AgreesWith truthOnly v r :=
  ⟨v, h, rfl, fun _ => rfl⟩

omit [Formatting F] in
theorem AgreesWith.eq {v : Value F} {r : Except EvalError (Value F)}
    (h : AgreesWith false v r) : r = .ok v := by
  obtain ⟨w, hw, -, he⟩ := h
  rw [hw, he rfl]

theorem subscript_of_getitem {container key v : Value F}
    (h : Value.getitem container key = .ok v) : subscript container key = .ok v := by
  have hg : PyObject.getitem container key = .ok v := h
  rw [subscript, hg]

/-- An operator within the exponent limit gives the value Python gives. -/
theorem applyBinary_of_ok {op : Operator} {function : Binary} {l r v : Value F}
    (hexp : op = .pow → exponentRefused r = .ok false)
    (h : Value.binary function l r = .ok v) : applyBinary op function l r = .ok v := by
  have hb : PyObject.binary function l r = .ok v := h
  rw [applyBinary, hb]
  split
  · rename_i hpow
    rw [hexp hpow]
    rfl
  · rfl

theorem applyCompare_of_ok {function : Comparison} {l r : Value F} {b : Bool}
    (h : Value.compare function l r = .ok b) : applyCompare function l r = .ok b := by
  have hc : PyObject.compare function l r = .ok b := h
  rw [applyCompare, hc]

/-- The operators see the values of their operands; `not` sees the truth value only. -/
theorem uncaught_unary_of_ok {op : UnaryOperator} {function : Unary} {x w v : Value F}
    (ht : unaryTable op = some function) (htruth : w.truth = x.truth)
    (hvalue : decide (op = .not) = false → w = x) (h : Value.unary function x = .ok v) :
    uncaught (PyObject.unary function w) = .ok v := by
  by_cases hnot : op = .not
  · subst hnot
    cases ht
    rw [unary_not] at h
    cases h
    have hu : PyObject.unary Unary.not w = .ok (.bool (!w.truth)) := unary_not w
    rw [hu, htruth]
    rfl
  · have hu : PyObject.unary function w = .ok v := by
      rw [hvalue (by simpa using hnot)]
      exact h
    rw [hu]
    rfl

/-! ### Nodes that Python gives a value -/

section

variable {context : Context (Value F)} {v : Value F}

theorem pyEval_name_eq_ok {id : String} :
    pyEval context (.name id) = .ok v ↔ context.lookup id = some v := by
  rw [pyEval]
  cases context.lookup id with
  | none => simp
  | some x => simp

theorem pyEval_unaryOp_eq_ok {op : UnaryOperator} {operand : Node (Value F)} :
    pyEval context (.unaryOp op operand) = .ok v ↔
      ∃ function, unaryTable op = some function ∧
        ∃ x, pyEval context operand = .ok x ∧ Value.unary function x = .ok v := by
  rw [pyEval]
  cases unaryTable op with
  | none => simp
  | some function => simp [Except.bind_eq_ok]

theorem pyEval_binOp_eq_ok {op : Operator} {left right : Node (Value F)} :
    pyEval context (.binOp op left right) = .ok v ↔
      ∃ function, binaryTable op = some function ∧
        ∃ l, pyEval context left = .ok l ∧
          ∃ r, pyEval context right = .ok r ∧ Value.binary function l r = .ok v := by
  rw [pyEval]
  cases binaryTable op with
  | none => simp
  | some function => simp [Except.bind_eq_ok]

end

mutual

/-- Where Python gives a value, the evaluator gives one that agrees with it. -/
theorem evaluateNode_agrees (context : Context (Value F)) :
    ∀ (node : Node (Value F)) (truthOnly : Bool) (depth : Nat) {v : Value F},
      depth + node.height ≤ MAX_DEPTH → Regular context truthOnly depth node →
        pyEval context node = .ok v → AgreesWith truthOnly v (evaluateNode context depth node)
  | .expression body, truthOnly, depth, v, hd, hr, h => by
      rw [Node.height] at hd
      rw [Regular] at hr
      rw [pyEval] at h
      rw [evaluateNode, if_neg (by omega)]
      exact evaluateNode_agrees context body truthOnly (depth + 1) (by omega) hr h
  | .constant value, truthOnly, depth, v, hd, _, h => by
      rw [pyEval] at h
      exact .of_eq (evaluateNode_constant_eq_ok.mpr ⟨by omega, Except.ok.inj h⟩)
  | .name id, truthOnly, depth, v, hd, _, h => by
      refine .of_eq ?_
      rw [evaluateNode, if_neg (by omega), pyEval_name_eq_ok.mp h]
      rfl
  | .subscript value slice, truthOnly, depth, v, hd, hr, h => by
      rw [Node.height] at hd
      rw [Regular] at hr
      rw [pyEval] at h
      obtain ⟨container, hc, h⟩ := Except.bind_eq_ok.mp h
      obtain ⟨key, hk, h⟩ := Except.bind_eq_ok.mp h
      have hcontainer := evaluateNode_agrees context value false (depth + 1) (by omega) hr.1 hc
      have hkey := evaluateNode_agrees context slice false (depth + 1) (by omega) hr.2 hk
      exact .of_eq (evaluateNode_subscript_eq_ok.mpr ⟨by omega, container, hcontainer.eq, key,
        hkey.eq, subscript_of_getitem h⟩)
  | .boolOp op values, truthOnly, depth, v, hd, hr, h => by
      rw [Node.height] at hd
      rw [Regular] at hr
      rw [pyEval] at h
      obtain ⟨ws, hws, htruth⟩ :=
        evaluateOperands_agrees context op values (depth + 1) (by omega) hr.1 h
      refine ⟨.bool (boolOpTruth op ws), ?_, htruth, fun hvalue => ?_⟩
      · exact evaluateNode_boolOp_eq_ok.mpr ⟨by omega, ws, hws, applyBoolOp_value op ws⟩
      · rw [(hr.2 hvalue v h).eq_bool, htruth]
  | .unaryOp op operand, truthOnly, depth, v, hd, hr, h => by
      rw [Node.height] at hd
      rw [Regular] at hr
      obtain ⟨function, ht, x, hx, h⟩ := pyEval_unaryOp_eq_ok.mp h
      obtain ⟨w, hw, htruth, hvalue⟩ :=
        evaluateNode_agrees context operand _ (depth + 1) (by omega) hr hx
      exact .of_eq (evaluateNode_unaryOp_eq_ok.mpr ⟨by omega, function, ht, w, hw,
        uncaught_unary_of_ok ht htruth hvalue h⟩)
  | .binOp op left right, truthOnly, depth, v, hd, hr, h => by
      rw [Node.height] at hd
      rw [Regular] at hr
      obtain ⟨function, ht, l, hl, r, hright, h⟩ := pyEval_binOp_eq_ok.mp h
      have hleft := evaluateNode_agrees context left false (depth + 1) (by omega) hr.1 hl
      have hright' := evaluateNode_agrees context right false (depth + 1) (by omega) hr.2.1 hright
      exact .of_eq (evaluateNode_binOp_eq_ok.mpr ⟨by omega, function, ht, l, hleft.eq, r,
        hright'.eq, applyBinary_of_ok (fun hpow => hr.2.2 hpow r hright) h⟩)
  | .compare left links, truthOnly, depth, v, hd, hr, h => by
      rw [Node.height] at hd
      rw [Regular] at hr
      rw [pyEval] at h
      obtain ⟨l, hl, h⟩ := Except.bind_eq_ok.mp h
      obtain ⟨b, hb, h⟩ := Except.bind_eq_ok.mp h
      have hleft := evaluateNode_agrees context left false (depth + 1) (by omega) hr.1 hl
      have hlinks := evaluateLinks_agrees context links l (depth + 1) (by omega) (hr.2 l hl) hb
      exact .of_eq (evaluateNode_compare_eq_ok.mpr ⟨by omega, l, hleft.eq, b, hlinks,
        Except.ok.inj h⟩)
  | .list elts, truthOnly, depth, v, hd, hr, h => by
      rw [Node.height] at hd
      rw [Regular] at hr
      rw [pyEval] at h
      obtain ⟨vs, hvs, h⟩ := Except.bind_eq_ok.mp h
      have helts := evaluateNodes_agrees context elts (depth + 1) (by omega) hr hvs
      exact .of_eq (evaluateNode_list_eq_ok.mpr ⟨by omega, vs, helts, Except.ok.inj h⟩)
  | .tuple elts, truthOnly, depth, v, hd, hr, h => by
      rw [Node.height] at hd
      rw [Regular] at hr
      rw [pyEval] at h
      obtain ⟨vs, hvs, h⟩ := Except.bind_eq_ok.mp h
      have helts := evaluateNodes_agrees context elts (depth + 1) (by omega) hr hvs
      exact .of_eq (evaluateNode_tuple_eq_ok.mpr ⟨by omega, vs, helts, Except.ok.inj h⟩)
  | .unsupported _ _, _, _, _, _, _, h => by
      rw [pyEval] at h
      cases h

/-- The items of a list or tuple display. -/
theorem evaluateNodes_agrees (context : Context (Value F)) :
    ∀ (nodes : List (Node (Value F))) (depth : Nat) {vs : List (Value F)},
      depth + heightAll nodes ≤ MAX_DEPTH → RegularAll context depth nodes →
        pyEvals context nodes = .ok vs →
          evaluateNodes context depth nodes = .ok vs
  | [], _, _, _, _, h => by
      rw [pyEvals] at h
      cases h
      rfl
  | node :: nodes, depth, vs, hd, hr, h => by
      rw [heightAll] at hd
      rw [RegularAll] at hr
      rw [pyEvals] at h
      obtain ⟨v, hv, h⟩ := Except.bind_eq_ok.mp h
      obtain ⟨rest, hrest, h⟩ := Except.bind_eq_ok.mp h
      have hnode := evaluateNode_agrees context node false depth (by omega) hr.1 hv
      have hnodes := evaluateNodes_agrees context nodes depth (by omega) hr.2 hrest
      exact evaluateNodes_cons_eq_ok.mpr ⟨v, hnode.eq, rest, hnodes, Except.ok.inj h⟩

/-- The operands of `and` and `or`: all evaluate, and their truth values decide as
Python's do. -/
theorem evaluateOperands_agrees (context : Context (Value F)) (op : BoolOperator) :
    ∀ (nodes : List (Node (Value F))) (depth : Nat) {v : Value F},
      depth + heightAll nodes ≤ MAX_DEPTH → RegularOperands context op depth nodes →
        pyBoolOp context op nodes = .ok v →
          ∃ ws, evaluateNodes context depth nodes = .ok ws ∧ boolOpTruth op ws = v.truth
  | [], depth, v, _, _, h => by
      rw [pyBoolOp] at h
      cases h
      refine ⟨[], rfl, ?_⟩
      cases op with
      | and => rfl
      | or => rfl
  | [node], depth, v, hd, hr, h => by
      rw [heightAll] at hd
      rw [RegularOperands] at hr
      rw [pyBoolOp] at h
      obtain ⟨w, hw, htruth, -⟩ :=
        evaluateNode_agrees context node true depth (by omega) hr h
      refine ⟨[w], ?_, ?_⟩
      · rw [evaluateNodes, hw]
        rfl
      · rw [boolOpTruth_singleton, htruth]
  | node :: next :: nodes, depth, v, hd, hr, h => by
      rw [heightAll] at hd
      rw [RegularOperands] at hr
      rw [pyBoolOp] at h
      obtain ⟨x, hx, h⟩ := Except.bind_eq_ok.mp h
      obtain ⟨w, hw, htruth, -⟩ :=
        evaluateNode_agrees context node true depth (by omega) hr.1 hx
      have hrest := hr.2 x hx
      by_cases hopen : x.truth = decide (op = .and)
      · rw [if_pos hopen] at h hrest
        obtain ⟨ws, hws, hdecides⟩ :=
          evaluateOperands_agrees context op (next :: nodes) depth (by omega) hrest h
        refine ⟨w :: ws, ?_, ?_⟩
        · rw [evaluateNodes, hw, Except.ok_bind, hws]
          rfl
        · rw [boolOpTruth_cons_of_undecided (htruth.trans hopen), hdecides]
      · -- Python stops here; the evaluator goes on, to no effect.
        rw [if_neg hopen] at h hrest
        obtain ⟨ws, hws⟩ := hrest
        cases h
        refine ⟨w :: ws, ?_, ?_⟩
        · rw [evaluateNodes, hw, Except.ok_bind, hws]
          rfl
        · rw [boolOpTruth_cons_of_decided (by rwa [htruth]), htruth]

/-- The links of a comparison. -/
theorem evaluateLinks_agrees (context : Context (Value F)) :
    ∀ (links : List (CmpOperator × Node (Value F))) (left : Value F) (depth : Nat) {b : Bool},
      depth + heightLinks links ≤ MAX_DEPTH → RegularLinks context depth left links →
        pyLinks context left links = .ok b → evaluateLinks context depth left links = .ok b
  | [], _, _, _, _, _, h => by
      rw [pyLinks] at h
      cases h
      rfl
  | (op, comparator) :: links, left, depth, b, hd, hr, h => by
      rw [heightLinks] at hd
      rw [RegularLinks] at hr
      rw [pyLinks] at h
      rw [evaluateLinks]
      cases ht : compareTable op with
      | none => rw [ht] at h; cases h
      | some function =>
          rw [ht] at h
          obtain ⟨right, hright, h⟩ := Except.bind_eq_ok.mp h
          obtain ⟨holds, hholds, h⟩ := Except.bind_eq_ok.mp h
          dsimp only
          rw [(evaluateNode_agrees context comparator false depth (by omega) hr.1 hright).eq,
            Except.ok_bind, applyCompare_of_ok hholds, Except.ok_bind]
          cases holds with
          | true =>
              exact evaluateLinks_agrees context links right depth (by omega)
                (hr.2 function right ht hright hholds) h
          | false =>
              cases h
              rfl

end

/-- `evaluate` gives Python's value, and `evaluate_condition` its truth value.  The
text is parsed by Python, whose grammar has no empty expression. -/
theorem evaluate_agrees_python (parse : String → Except String (Node (Value F)))
    (expression : String) (context : Context (Value F)) (tree : Node (Value F)) (v : Value F)
    (hparse : parse (strip expression) = .ok tree) (hempty : ∀ t, parse "" ≠ .ok t)
    (hlength : expression.length ≤ MAX_LENGTH) (hheight : tree.height ≤ MAX_DEPTH)
    (hpython : pyEval context tree = .ok v) :
    (Regular context false 0 tree → evaluate parse expression context = .ok v) ∧
      (Regular context true 0 tree →
        evaluateCondition parse (some expression) context = .ok v.truth) := by
  have heval : evaluate parse expression context = evaluateNode context 0 tree := by
    rw [evaluate, if_neg (by omega), hparse]
  constructor
  · intro hregular
    rw [heval]
    exact (evaluateNode_agrees context tree false 0 (by omega) hregular hpython).eq
  · intro hregular
    obtain ⟨w, hw, htruth, -⟩ :=
      evaluateNode_agrees context tree true 0 (by omega) hregular hpython
    have hblank : strip expression ≠ "" := by
      intro hb
      rw [hb] at hparse
      exact hempty tree hparse
    have ht : PyObject.truth w = .ok w.truth := rfl
    rw [evaluateCondition, if_neg hblank, heval, hw, Except.ok_bind, ht, htruth]
    rfl

/-- A parser that knows one expression. -/
def parseOnly (text : String) (tree : Node (Value Empty)) (s : String) :
    Except String (Node (Value Empty)) :=
  if s = text then .ok tree else .error "invalid syntax"

/-- `ready and 1 < 2 <= 2` -/
def readyChain : Node (Value Empty) :=
  .expression (.boolOp .and [.name "ready",
    .compare (.constant (.int 1)) [(.lt, .constant (.int 2)), (.ltE, .constant (.int 2))]])

theorem evaluate_agrees_readyChain :
    evaluate (parseOnly "ready and 1 < 2 <= 2" readyChain) "ready and 1 < 2 <= 2"
        (AList.singleton "ready" (.bool true)) = .ok (.bool true) ∧
      evaluateCondition (parseOnly "ready and 1 < 2 <= 2" readyChain)
        (some "ready and 1 < 2 <= 2") (AList.singleton "ready" (.bool true)) = .ok true := by
  have hpython : pyEval (AList.singleton "ready" (.bool true)) readyChain =
      .ok (.bool true) := rfl
  have hregular : ∀ truthOnly,
      Regular (AList.singleton "ready" (.bool true)) truthOnly 0 readyChain := by
    intro truthOnly
    refine ⟨⟨trivial, fun v hv => ?_⟩, fun _ v hv => ?_⟩
    · cases hv
      exact ⟨trivial, fun l _ => ⟨trivial, fun _ _ _ _ _ => ⟨trivial, fun _ _ _ _ _ => trivial⟩⟩⟩
    · cases hv
      exact ⟨true, rfl⟩
  have h := evaluate_agrees_python (parseOnly "ready and 1 < 2 <= 2" readyChain)
    "ready and 1 < 2 <= 2" (AList.singleton "ready" (.bool true)) readyChain (.bool true)
    rfl (fun t ht => by cases ht) (by decide) (by decide) hpython
  exact ⟨h.1 (hregular false), h.2 (hregular true)⟩

/-- `2 and 3` -/
def intAnd : Node (Value Empty) :=
  .expression (.boolOp .and [.constant (.int 2), .constant (.int 3)])

/-- `True or 1 / 0` -/
def skippedDivision : Node (Value Empty) :=
  .expression (.boolOp .or [.constant (.bool true),
    .binOp .div (.constant (.int 1)) (.constant (.int 0))])

/-- Python's values are `3` and `True`. -/
theorem evaluate_disagrees_python :
    (pyEval ∅ intAnd = .ok (.int 3) ∧
      evaluate (parseOnly "2 and 3" intAnd) "2 and 3" ∅ = .ok (.bool true)) ∧
    (pyEval ∅ skippedDivision = .ok (.bool true) ∧
      evaluate (parseOnly "True or 1 / 0" skippedDivision) "True or 1 / 0" ∅ =
        .error (.expressionError "Division by zero.")) :=
  ⟨⟨rfl, rfl⟩, rfl, rfl⟩

end YoutubeFactory.Workflow
