import Mathlib.Data.List.AList

/-!
# Python objects as the workflow language sees them

The expression evaluator and the workflow engine handle values they know nothing
about: a run context holds whatever a handler returned.  `PyObject` is the part
of Python's data model they rely on, for any type `V` of objects: the literals
they build, truth testing, subscription, and the functions of the `operator`
module.  Each operator may raise.

A Python `dict` with string keys is Mathlib's `AList`, a list of pairs whose keys
are distinct.  The order of its entries is never observed here.
-/

namespace YoutubeFactory.Python

/-! ## Exceptions -/

/-- The exception classes the source tells apart.  `other` is any further class. -/
inductive PyErrKind where
  | typeError
  | valueError
  | zeroDivisionError
  | overflowError
  | memoryError
  | indexError
  | keyError
  | nameError
  | other (name : String)
deriving DecidableEq, Repr

/-- An exception of the interpreter: its class and `str(exc)`. -/
structure PyErr where
  kind : PyErrKind
  text : String
deriving DecidableEq, Repr

/-! ## Operators -/

/-- The binary functions of `operator` the evaluator may call. -/
inductive Binary where
  | add | sub | mul | truediv | floordiv | mod | pow
deriving DecidableEq, Repr

/-- The comparisons the evaluator may call, membership included. -/
inductive Comparison where
  | eq | ne | lt | le | gt | ge | isIn | notIn
deriving DecidableEq, Repr

/-- The unary functions of `operator` the evaluator may call. -/
inductive Unary where
  | not | neg | pos
deriving DecidableEq, Repr

/-! ## Objects -/

/-- A type of Python objects with the operations the source applies to them.
`compare` is the truth value of the comparison. -/
class PyObject (V : Type) where
  none : V
  ofBool : Bool → V
  ofInt : Int → V
  ofStr : String → V
  ofList : List V → V
  ofTuple : List V → V
  ofDict : List (String × V) → V
  /-- `value is None` -/
  isNone : V → Bool
  /-- The text of a `str`. -/
  str? : V → Option String
  /-- The items of a `list` or `tuple`. -/
  items? : V → Option (List V)
  /-- `type(value).__name__` -/
  typeName : V → String
  /-- `isinstance(value, int | float)` -/
  isNumber : V → Bool
  /-- `abs(value) > bound` -/
  absExceeds : V → Int → Except PyErr Bool
  truth : V → Except PyErr Bool
  unary : Unary → V → Except PyErr V
  binary : Binary → V → V → Except PyErr V
  compare : Comparison → V → V → Except PyErr Bool
  /-- `container[key]` -/
  getitem : V → V → Except PyErr V
  /-- What `copy.deepcopy(value)` raises, if it does. -/
  deepcopyError? : V → Option PyErr

/-- A dictionary with string keys. -/
abbrev Dict (V : Type) := AList fun _ : String => V

/-- A run context. -/
abbrev Context (V : Type) := Dict V

/-! ## Strings -/

/-- `str.isspace` for one character. -/
def isSpace (c : Char) : Bool :=
  let n := c.toNat
  (9 ≤ n && n ≤ 13) || (28 ≤ n && n ≤ 32) || n == 0x85 || n == 0xa0 || n == 0x1680 ||
    (0x2000 ≤ n && n ≤ 0x200a) || n == 0x2028 || n == 0x2029 || n == 0x202f || n == 0x205f ||
    n == 0x3000

/-- `str.strip` -/
def strip (s : String) : String :=
  String.ofList ((s.toList.dropWhile isSpace).reverse.dropWhile isSpace).reverse

/-- Lexicographic order of lists of code points. -/
def codesLe : List Nat → List Nat → Bool
  | [], _ => true
  | _ :: _, [] => false
  | x :: xs, y :: ys => decide (x < y) || decide (x = y) && codesLe xs ys

/-- `s <= t` for strings. -/
def strLe (s t : String) : Bool :=
  codesLe (s.toList.map Char.toNat) (t.toList.map Char.toNat)

/-! The order of strings is total. -/

theorem codesLe_total : ∀ xs ys : List Nat, codesLe xs ys = true ∨ codesLe ys xs = true
  | [], _ => .inl rfl
  | _ :: _, [] => .inr rfl
  | x :: xs, y :: ys => by
      simp only [codesLe, Bool.or_eq_true, Bool.and_eq_true, decide_eq_true_eq]
      rcases Nat.lt_trichotomy x y with h | h | h
      · exact .inl (.inl h)
      · exact (codesLe_total xs ys).imp (fun hle => .inr ⟨h, hle⟩) fun hle => .inr ⟨h.symm, hle⟩
      · exact .inr (.inl h)

theorem codesLe_trans : ∀ {xs ys zs : List Nat},
    codesLe xs ys = true → codesLe ys zs = true → codesLe xs zs = true
  | [], _, _, _, _ => rfl
  | _ :: _, [], _, h, _ => by cases h
  | _ :: _, _ :: _, [], _, h => by cases h
  | x :: xs, y :: ys, z :: zs, hxy, hyz => by
      simp only [codesLe, Bool.or_eq_true, Bool.and_eq_true, decide_eq_true_eq] at *
      rcases hxy with hxy | ⟨rfl, hxy⟩
      · rcases hyz with hyz | ⟨rfl, -⟩
        · exact .inl (Nat.lt_trans hxy hyz)
        · exact .inl hxy
      · exact hyz.imp_right fun ⟨heq, hyz⟩ => ⟨heq, codesLe_trans hxy hyz⟩

theorem codesLe_antisymm : ∀ {xs ys : List Nat},
    codesLe xs ys = true → codesLe ys xs = true → xs = ys
  | [], [], _, _ => rfl
  | [], _ :: _, _, h => by cases h
  | _ :: _, [], h, _ => by cases h
  | x :: xs, y :: ys, hxy, hyx => by
      simp only [codesLe, Bool.or_eq_true, Bool.and_eq_true, decide_eq_true_eq] at *
      rcases hxy with hxy | ⟨rfl, hxy⟩
      · rcases hyx with hyx | ⟨rfl, -⟩
        · exact absurd hyx (Nat.lt_asymm hxy)
        · exact absurd hxy (Nat.lt_irrefl _)
      · rcases hyx with hyx | ⟨-, hyx⟩
        · exact absurd hyx (Nat.lt_irrefl _)
        · rw [codesLe_antisymm hxy hyx]

theorem strLe_total (s t : String) : strLe s t = true ∨ strLe t s = true := codesLe_total _ _

theorem strLe_trans {s t u : String} (hst : strLe s t = true) (htu : strLe t u = true) :
    strLe s u = true := codesLe_trans hst htu

theorem strLe_antisymm {s t : String} (hst : strLe s t = true) (hts : strLe t s = true) :
    s = t := by
  have hcodes := codesLe_antisymm hst hts
  refine String.toList_inj.mp (List.map_injective_iff.mpr (fun c d h => ?_) hcodes)
  exact Char.toNat_inj.mp h

end YoutubeFactory.Python
