import Mathlib.Init

/-!
# Decoded JSON

The objects `json.loads` returns.  A float is kept as its `repr`: nothing here
computes with it.
-/

namespace YoutubeFactory.Python

inductive Json where
  | null
  | bool (b : Bool)
  | int (i : Int)
  | float (repr : String)
  | str (s : String)
  | list (items : List Json)
  | dict (entries : List (String × Json))

namespace Json

/-- `bool(value)` -/
def truth : Json → Bool
  | .null => false
  | .bool b => b
  | .int i => decide (i ≠ 0)
  | .float repr => decide (repr ≠ "0.0" ∧ repr ≠ "-0.0")
  | .str s => decide (s ≠ "")
  | .list items => !items.isEmpty
  | .dict entries => !entries.isEmpty

/-- The value of a `dict` at a key. -/
def lookup? (entries : List (String × Json)) (key : String) : Option Json :=
  (entries.find? fun e => e.1 = key).map Prod.snd

/-- `isinstance(value, int)`, with the integer: `bool` is a subclass of `int`. -/
def int? : Json → Option Int
  | .int i => some i
  | .bool b => some (if b then 1 else 0)
  | _ => none

/-- `str(value)`.  `container` is the `repr` of lists and dictionaries. -/
def toStr (container : Json → String) : Json → String
  | .null => "None"
  | .bool b => if b then "True" else "False"
  | .int i => toString i
  | .float repr => repr
  | .str s => s
  | value => container value

end Json

end YoutubeFactory.Python
