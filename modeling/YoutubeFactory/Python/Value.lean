import YoutubeFactory.Python.Object
import Mathlib.Algebra.Group.Int.Defs
import Mathlib.Data.Int.Basic
import Mathlib.Data.List.Infix

/-!
# Built-in Python values

`Value F` is the type of the values the expression language can build: `None`,
booleans, integers, strings, bytes, `Ellipsis`, lists, tuples and dictionaries,
and the inexact numbers `F`, that is `float` and `complex`.

Integers, strings and sequences are exact and their operators are defined here
after the Python reference.  Inexact arithmetic and printf-style formatting are
parameters, the classes `Inexact` and `Formatting`: the results about the
evaluator hold whatever these compute.

Sizes are Python's: a sequence has at most `maxSize` items, and an index or a
repetition count beyond that overflows.
-/

namespace YoutubeFactory.Python

/-! ## Operator symbols -/

/-- The six comparisons that are not membership tests. -/
inductive OrderOp where
  | eq | ne | lt | le | gt | ge
deriving DecidableEq, Repr

/-- The comparison read from the other side. -/
def OrderOp.swap : OrderOp → OrderOp
  | .eq => .eq | .ne => .ne | .lt => .gt | .le => .ge | .gt => .lt | .ge => .le

def OrderOp.symbol : OrderOp → String
  | .eq => "==" | .ne => "!=" | .lt => "<" | .le => "<=" | .gt => ">" | .ge => ">="

def Binary.symbol : Binary → String
  | .add => "+" | .sub => "-" | .mul => "*" | .truediv => "/" | .floordiv => "//" | .mod => "%"
  | .pow => "** or pow()"

def Unary.symbol : Unary → String
  | .not => "not" | .neg => "-" | .pos => "+"

/-! ## Inexact numbers and formatting -/

/-- `float` and `complex` numbers.  An integer operand of mixed arithmetic is
converted first.  Mixed comparisons are exact. -/
class Inexact (F : Type) where
  /-- `float(i)` -/
  ofInt : Int → Except PyErr F
  binary : Binary → F → F → Except PyErr F
  /-- `i / j` for integers. -/
  truediv : Int → Int → Except PyErr F
  neg : F → F
  truth : F → Bool
  compare : OrderOp → F → F → Except PyErr Bool
  compareInt : OrderOp → F → Int → Except PyErr Bool
  isFloat : F → Bool
  /-- `abs(x) > n` -/
  absExceeds : F → Int → Bool

/-- A built-in value. -/
inductive Value (F : Type) where
  | none
  | bool (b : Bool)
  | int (i : Int)
  | inexact (x : F)
  | str (s : String)
  | bytes (bs : List UInt8)
  | ellipsis
  | list (items : List (Value F))
  | tuple (items : List (Value F))
  | dict (entries : List (Value F × Value F))

/-- printf-style formatting, `text % value`. -/
class Formatting (F : Type) where
  str : String → Value F → Except PyErr String
  bytes : List UInt8 → Value F → Except PyErr (List UInt8)

namespace Value

variable {F : Type}

/-- `type(value).__name__`, with `float` for every inexact number that is one. -/
def typeName [Inexact F] : Value F → String
  | .none => "NoneType"
  | .bool _ => "bool"
  | .int _ => "int"
  | .inexact x => if Inexact.isFloat x then "float" else "complex"
  | .str _ => "str"
  | .bytes _ => "bytes"
  | .ellipsis => "ellipsis"
  | .list _ => "list"
  | .tuple _ => "tuple"
  | .dict _ => "dict"

/-- The integer a value stands for in arithmetic: `bool` is a subclass of `int`. -/
def asInt? : Value F → Option Int
  | .bool b => some (if b then 1 else 0)
  | .int i => some i
  | _ => Option.none

/-! ## Errors -/

def typeError (text : String) : PyErr := ⟨.typeError, text⟩

def indexError (text : String) : PyErr := ⟨.indexError, text⟩

/-- A binary operator without a meaning on the two types. -/
def unsupportedOperands [Inexact F] {α : Type} (symbol : String) (l r : Value F) :
    Except PyErr α :=
  .error (typeError
    s!"unsupported operand type(s) for {symbol}: '{l.typeName}' and '{r.typeName}'")

/-- `sys.maxsize` on a 64-bit build. -/
def maxSize : Int := 2 ^ 63 - 1

/-! ## Truth and equality -/

def truth [Inexact F] : Value F → Bool
  | .none => false
  | .bool b => b
  | .int i => decide (i ≠ 0)
  | .inexact x => Inexact.truth x
  | .str s => decide (s ≠ "")
  | .bytes bs => !bs.isEmpty
  | .ellipsis => true
  | .list items => !items.isEmpty
  | .tuple items => !items.isEmpty
  | .dict entries => !entries.isEmpty

/-- Equality of numbers never raises. -/
def numberEq [Inexact F] : Value F → Value F → Bool
  | .inexact x, .inexact y => (Inexact.compare .eq x y).toOption.getD false
  | .inexact x, r => (r.asInt?.map fun j =>
      (Inexact.compareInt .eq x j).toOption.getD false).getD false
  | l, .inexact y => (l.asInt?.map fun i =>
      (Inexact.compareInt .eq y i).toOption.getD false).getD false
  | l, r => match l.asInt?, r.asInt? with
      | some i, some j => decide (i = j)
      | _, _ => false

mutual

/-- `==` -/
def eq [Inexact F] : Value F → Value F → Bool
  | .none, .none => true
  | .ellipsis, .ellipsis => true
  | .str s, .str t => decide (s = t)
  | .bytes s, .bytes t => decide (s = t)
  | .list xs, .list ys => eqItems xs ys
  | .tuple xs, .tuple ys => eqItems xs ys
  | .dict xs, .dict ys => decide (xs.length = ys.length) && eqEntries xs ys
  | l, r => numberEq l r

def eqItems [Inexact F] : List (Value F) → List (Value F) → Bool
  | [], [] => true
  | x :: xs, y :: ys => eq x y && eqItems xs ys
  | _, _ => false

/-- Every entry of the first dictionary is an entry of the second. -/
def eqEntries [Inexact F] : List (Value F × Value F) → List (Value F × Value F) → Bool
  | [], _ => true
  | (k, v) :: xs, ys => ys.any (fun entry => eq k entry.1 && eq v entry.2) && eqEntries xs ys

end

/-! ## Order -/

/-- The comparison of two exact numbers, or of two lengths. -/
def orderInt : OrderOp → Int → Int → Bool
  | .eq, i, j => decide (i = j)
  | .ne, i, j => decide (i ≠ j)
  | .lt, i, j => decide (i < j)
  | .le, i, j => decide (i ≤ j)
  | .gt, i, j => decide (i > j)
  | .ge, i, j => decide (i ≥ j)

/-- Lexicographic comparison of code points or of bytes. -/
def orderCodes (op : OrderOp) : List Nat → List Nat → Bool
  | x :: xs, y :: ys => if x = y then orderCodes op xs ys else orderInt op x y
  | xs, ys => orderInt op xs.length ys.length

def orderUnsupported [Inexact F] (op : OrderOp) (l r : Value F) : Except PyErr Bool :=
  .error (typeError (s!"'{op.symbol}' not supported between instances of " ++
    s!"'{l.typeName}' and '{r.typeName}'"))

/-- `<`, `<=`, `>` and `>=` of two numbers. -/
def orderNumbers [Inexact F] (op : OrderOp) (l r : Value F) : Except PyErr Bool :=
  match l, r with
  | .inexact x, .inexact y => Inexact.compare op x y
  | .inexact x, r =>
      match r.asInt? with
      | some j => Inexact.compareInt op x j
      | Option.none => orderUnsupported op (.inexact x) r
  | l, .inexact y =>
      match l.asInt? with
      | some i => Inexact.compareInt op.swap y i
      | Option.none => orderUnsupported op l (.inexact y)
  | l, r =>
      match l.asInt?, r.asInt? with
      | some i, some j => .ok (orderInt op i j)
      | _, _ => orderUnsupported op l r

mutual

/-- `<`, `<=`, `>` and `>=`.  Sequences compare at the first items that differ. -/
def order [Inexact F] (op : OrderOp) : Value F → Value F → Except PyErr Bool
  | .str s, .str t => .ok (orderCodes op (s.toList.map Char.toNat) (t.toList.map Char.toNat))
  | .bytes s, .bytes t => .ok (orderCodes op (s.map UInt8.toNat) (t.map UInt8.toNat))
  | .list xs, .list ys => orderItems op xs ys
  | .tuple xs, .tuple ys => orderItems op xs ys
  | l, r => orderNumbers op l r

def orderItems [Inexact F] (op : OrderOp) :
    List (Value F) → List (Value F) → Except PyErr Bool
  | x :: xs, y :: ys => if eq x y then orderItems op xs ys else order op x y
  | xs, ys => .ok (orderInt op xs.length ys.length)

end

/-! ## Containers -/

mutual

/-- Whether `hash(value)` succeeds. -/
def hashable : Value F → Bool
  | .list _ => false
  | .dict _ => false
  | .tuple items => hashableItems items
  | _ => true

def hashableItems : List (Value F) → Bool
  | [] => true
  | x :: xs => hashable x && hashableItems xs

end

def unhashable [Inexact F] {α : Type} (key : Value F) : Except PyErr α :=
  .error (typeError s!"unhashable type: '{key.typeName}'")

/-- The item of a dictionary at a key. -/
def lookup? [Inexact F] (entries : List (Value F × Value F)) (key : Value F) :
    Option (Value F) :=
  (entries.find? fun e => eq e.1 key).map Prod.snd

/-- Whether `needle` occurs in `hay` as a block of consecutive items. -/
def occursIn {α : Type} [DecidableEq α] (needle hay : List α) : Bool :=
  decide (needle <:+: hay)

/-- `needle in container` -/
def contains [Inexact F] (needle container : Value F) : Except PyErr Bool :=
  match container with
  | .list items => .ok (items.any fun item => eq item needle)
  | .tuple items => .ok (items.any fun item => eq item needle)
  | .dict entries =>
      if needle.hashable then .ok (lookup? entries needle).isSome else unhashable needle
  | .str s =>
      match needle with
      | .str t => .ok (occursIn t.toList s.toList)
      | _ => .error (typeError
          s!"'in <string>' requires string as left operand, not {needle.typeName}")
  | .bytes s =>
      match needle with
      | .bytes t => .ok (occursIn t s)
      | _ =>
          match needle.asInt? with
          | some i =>
              if 0 ≤ i ∧ i < 256 then .ok (s.any fun b => decide ((b.toNat : Int) = i))
              else .error ⟨.valueError, "byte must be in range(0, 256)"⟩
          | Option.none => .error (typeError
              s!"a bytes-like object is required, not '{needle.typeName}'")
  | _ => .error (typeError s!"argument of type '{container.typeName}' is not iterable")

/-- The position an index denotes in a sequence of the given length. -/
def position? (length : Nat) (i : Int) : Option Nat :=
  if 0 ≤ i then (if i < length then some i.toNat else Option.none)
  else if 0 ≤ i + length then some (i + length).toNat else Option.none

/-- The item of a sequence at an index. -/
def itemAt {α : Type} (kind : String) (items : List α) (i : Int) : Except PyErr α :=
  match (position? items.length i).bind (items[·]?) with
  | some x => .ok x
  | Option.none => .error (indexError s!"{kind} index out of range")

/-- `container[key]` -/
def getitem [Inexact F] (container key : Value F) : Except PyErr (Value F) :=
  match container with
  | .dict entries =>
      if key.hashable then
        match lookup? entries key with
        | some v => .ok v
        | Option.none => .error ⟨.keyError, key.typeName⟩
      else unhashable key
  | .list items => atIndex key fun i => itemAt "list" items i
  | .tuple items => atIndex key fun i => itemAt "tuple" items i
  | .str s => atIndex key fun i => (itemAt "string" s.toList i).map fun c => .str c.toString
  | .bytes bs => atIndex key fun i => (itemAt "index" bs i).map fun b => .int b.toNat
  | _ => .error (typeError s!"'{container.typeName}' object is not subscriptable")
where
  atIndex (key : Value F) (item : Int → Except PyErr (Value F)) : Except PyErr (Value F) :=
    match key.asInt? with
    | some i => item i
    | Option.none => .error (typeError
        s!"{container.typeName} indices must be integers or slices, not {key.typeName}")

/-! ## Arithmetic -/

def zeroDivision {α : Type} : Except PyErr α := .error ⟨.zeroDivisionError, "division by zero"⟩

/-- Arithmetic on two integers.  A power with a negative exponent is a float. -/
def intBinary [Inexact F] (op : Binary) (i j : Int) : Except PyErr (Value F) :=
  match op with
  | .add => .ok (.int (i + j))
  | .sub => .ok (.int (i - j))
  | .mul => .ok (.int (i * j))
  | .truediv => if j = 0 then zeroDivision else (Inexact.truediv i j).map .inexact
  | .floordiv => if j = 0 then zeroDivision else .ok (.int (i.fdiv j))
  | .mod => if j = 0 then zeroDivision else .ok (.int (i.fmod j))
  | .pow =>
      if 0 ≤ j then .ok (.int (i ^ j.toNat))
      else do
        let x ← Inexact.ofInt i
        let y ← Inexact.ofInt j
        return .inexact (← Inexact.binary .pow x y)

/-- Arithmetic on two numbers one of which is inexact. -/
def inexactBinary [Inexact F] (op : Binary) (x y : Except PyErr F) : Except PyErr (Value F) := do
  return .inexact (← Inexact.binary op (← x) (← y))

/-- Arithmetic on numbers, if both operands are. -/
def numberBinary? [Inexact F] (op : Binary) (l r : Value F) : Option (Except PyErr (Value F)) :=
  match l, r with
  | .inexact x, .inexact y => some (inexactBinary op (.ok x) (.ok y))
  | .inexact x, r => r.asInt?.map fun j => inexactBinary op (.ok x) (Inexact.ofInt j)
  | l, .inexact y => l.asInt?.map fun i => inexactBinary op (Inexact.ofInt i) (.ok y)
  | l, r =>
      match l.asInt?, r.asInt? with
      | some i, some j => some (intBinary op i j)
      | _, _ => Option.none

def isSequence : Value F → Bool
  | .str _ | .bytes _ | .list _ | .tuple _ => true
  | _ => false

/-- The most items that a sequence of this type may have: items take 8 bytes each, and a tuple
has 24 bytes before them. -/
def itemLimit : Value F → Int
  | .list _ => maxSize / 8
  | .tuple _ => (maxSize - 24) / 8
  | _ => maxSize

/-- What is raised when a repeated sequence would have more items. -/
def tooLong : Value F → PyErr
  | .str _ => ⟨.overflowError, "repeated string is too long"⟩
  | .bytes _ => ⟨.overflowError, "repeated bytes are too long"⟩
  | _ => ⟨.memoryError, ""⟩

/-- The items of a repeated sequence.  A negative count is an empty one. -/
def repeatItems {α : Type} (sequence : Value F) (items : List α) (count : Int) :
    Except PyErr (List α) :=
  if count > maxSize ∨ count < -maxSize - 1 then
    .error ⟨.overflowError, "cannot fit 'int' into an index-sized integer"⟩
  else if (items.length : Int) * count > sequence.itemLimit then .error sequence.tooLong
  else .ok (List.replicate count.toNat items).flatten

/-- `sequence * count`, if the first operand is a sequence. -/
def repeat? (sequence : Value F) (count : Int) : Option (Except PyErr (Value F)) :=
  match sequence with
  | .str s => some ((sequence.repeatItems s.toList count).map fun cs => .str (String.ofList cs))
  | .bytes bs => some ((sequence.repeatItems bs count).map .bytes)
  | .list items => some ((sequence.repeatItems items count).map .list)
  | .tuple items => some ((sequence.repeatItems items count).map .tuple)
  | _ => Option.none

/-- `l * r` where one side is a sequence and the other an integer. -/
def sequenceMul? (l r : Value F) : Option (Except PyErr (Value F)) :=
  match r.asInt? with
  | some count => repeat? l count
  | Option.none => l.asInt?.bind fun count => repeat? r count

/-- `l + r` for two sequences of one type. -/
def concat? : Value F → Value F → Option (Value F)
  | .str s, .str t => some (.str (s ++ t))
  | .bytes s, .bytes t => some (.bytes (s ++ t))
  | .list xs, .list ys => some (.list (xs ++ ys))
  | .tuple xs, .tuple ys => some (.tuple (xs ++ ys))
  | _, _ => Option.none

/-- What `+` raises, unless it adds numbers or joins sequences. -/
def notAdded [Inexact F] {α : Type} (l r : Value F) : Except PyErr α :=
  match l with
  | .str _ => .error (typeError s!"can only concatenate str (not \"{r.typeName}\") to str")
  | .bytes _ => .error (typeError s!"can't concat {r.typeName} to bytes")
  | .list _ => .error (typeError s!"can only concatenate list (not \"{r.typeName}\") to list")
  | .tuple _ => .error (typeError s!"can only concatenate tuple (not \"{r.typeName}\") to tuple")
  | l => unsupportedOperands Binary.add.symbol l r

/-- What `*` raises, unless it multiplies numbers or repeats a sequence. -/
def notMultiplied [Inexact F] {α : Type} (l r : Value F) : Except PyErr α :=
  if l.isSequence then
    .error (typeError s!"can't multiply sequence by non-int of type '{r.typeName}'")
  else if r.isSequence then
    .error (typeError s!"can't multiply sequence by non-int of type '{l.typeName}'")
  else unsupportedOperands Binary.mul.symbol l r

/-- `operator.add`, …, `operator.pow` -/
def binary [Inexact F] [Formatting F] (op : Binary) (l r : Value F) :
    Except PyErr (Value F) :=
  match numberBinary? op l r with
  | some result => result
  | Option.none =>
      match op, l with
      | .add, l => match concat? l r with
          | some v => .ok v
          | Option.none => notAdded l r
      | .mul, l => match sequenceMul? l r with
          | some result => result
          | Option.none => notMultiplied l r
      | .mod, .str s => (Formatting.str s r).map .str
      | .mod, .bytes bs => (Formatting.bytes bs r).map .bytes
      | _, l => unsupportedOperands op.symbol l r

/-- `operator.not_`, `operator.neg` and `operator.pos` -/
def unary [Inexact F] (op : Unary) (v : Value F) : Except PyErr (Value F) :=
  match op, v.asInt?, v with
  | .not, _, v => .ok (.bool (!v.truth))
  | .neg, some i, _ => .ok (.int (-i))
  | .pos, some i, _ => .ok (.int i)
  | .neg, Option.none, .inexact x => .ok (.inexact (Inexact.neg x))
  | .pos, Option.none, .inexact x => .ok (.inexact x)
  | op, Option.none, v =>
      .error (typeError s!"bad operand type for unary {op.symbol}: '{v.typeName}'")

/-- The comparisons, membership included. -/
def compare [Inexact F] (op : Comparison) (l r : Value F) : Except PyErr Bool :=
  match op with
  | .eq => .ok (eq l r)
  | .ne => .ok (!eq l r)
  | .lt => order .lt l r
  | .le => order .le l r
  | .gt => order .gt l r
  | .ge => order .ge l r
  | .isIn => contains l r
  | .notIn => (contains l r).map not

/-- `abs(value) > bound` for a number. -/
def absExceeds [Inexact F] (v : Value F) (bound : Int) : Except PyErr Bool :=
  match v, v.asInt? with
  | .inexact x, _ => .ok (Inexact.absExceeds x bound)
  | _, some i => .ok (decide ((i.natAbs : Int) > bound))
  | v, Option.none => .error (typeError s!"bad operand type for abs(): '{v.typeName}'")

/-- `isinstance(value, int | float)` -/
def isNumber [Inexact F] : Value F → Bool
  | .bool _ => true
  | .int _ => true
  | .inexact x => Inexact.isFloat x
  | _ => false

end Value

instance {F : Type} [Inexact F] [Formatting F] : PyObject (Value F) where
  none := .none
  ofBool := .bool
  ofInt := .int
  ofStr := .str
  ofList := .list
  ofTuple := .tuple
  ofDict entries := .dict (entries.map fun e => (.str e.1, e.2))
  isNone v := match v with | .none => true | _ => false
  str? v := match v with | .str s => some s | _ => none
  items? v := match v with | .list items => some items | .tuple items => some items | _ => none
  typeName := Value.typeName
  isNumber := Value.isNumber
  absExceeds := Value.absExceeds
  truth v := .ok v.truth
  unary := Value.unary
  binary := Value.binary
  compare := Value.compare
  getitem := Value.getitem
  deepcopyError? _ := none

/-! ## The exact fragment

With no inexact number at all, an operation that would produce one raises. -/

instance : Inexact Empty where
  ofInt _ := .error ⟨.overflowError, "int too large to convert to float"⟩
  binary _ x _ := nomatch x
  truediv _ _ := .error ⟨.overflowError, "integer division result too large for a float"⟩
  neg x := nomatch x
  truth x := nomatch x
  compare _ x _ := nomatch x
  compareInt _ x _ := nomatch x
  isFloat x := nomatch x
  absExceeds x _ := nomatch x

instance : Formatting Empty where
  str _ _ := .error ⟨.typeError, "not all arguments converted during string formatting"⟩
  bytes _ _ := .error ⟨.typeError, "not all arguments converted during bytes formatting"⟩

end YoutubeFactory.Python
