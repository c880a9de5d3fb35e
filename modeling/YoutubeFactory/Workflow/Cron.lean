import YoutubeFactory.Python.Object
import Mathlib.Data.Prod.Lex
import Mathlib.Order.Lattice

/-!
# Cron expressions

`cron_matches` of `app/agents/scheduler/scheduler.py`, on moments in UTC.  A field is read part by
part until one matches, so a part that is no number raises only if nothing before it matches, and
a field only if those before it do.
-/

namespace YoutubeFactory.Workflow

open Python

/-! ## Moments -/

/-- A `datetime` to the minute. -/
structure Minute where
  year : Nat
  month : Nat
  day : Nat
  hour : Nat
  minute : Nat
deriving DecidableEq, Repr

namespace Minute

/-- The days of a year before a month. -/
def daysBeforeMonth (year month : Nat) : Nat :=
  let leap := year % 4 = 0 ∧ (year % 100 ≠ 0 ∨ year % 400 = 0)
  ([0, 31, 59, 90, 120, 151, 181, 212, 243, 273, 304, 334].getD (month - 1) 0) +
    if leap ∧ 2 < month then 1 else 0

/-- `toordinal` -/
def ordinal (m : Minute) : Nat :=
  let years := m.year - 1
  years * 365 + years / 4 - years / 100 + years / 400 + daysBeforeMonth m.year m.month + m.day

/-- `isoweekday() % 7`: Sunday is zero. -/
def weekday (m : Minute) : Nat := m.ordinal % 7

/-- The order of minutes is that of their fields. -/
def fields (m : Minute) : Nat ×ₗ Nat ×ₗ Nat ×ₗ Nat ×ₗ Nat :=
  toLex (m.year, toLex (m.month, toLex (m.day, toLex (m.hour, m.minute))))

theorem fields_injective : Function.Injective fields := by
  rintro ⟨_, _, _, _, _⟩ ⟨_, _, _, _, _⟩ h
  simp only [fields, EmbeddingLike.apply_eq_iff_eq, Prod.mk.injEq] at h
  obtain ⟨rfl, rfl, rfl, rfl, rfl⟩ := h
  rfl

instance : LinearOrder Minute := LinearOrder.lift' fields fields_injective

end Minute

/-- A `datetime`.  `replace(second=0, microsecond=0)` leaves its minute. -/
structure Moment where
  minute : Minute
  second : Nat
  microsecond : Nat
deriving DecidableEq, Repr

/-- The order of moments is that of their fields. -/
instance : LE Moment where
  le a b := toLex (a.minute, toLex (a.second, a.microsecond)) ≤
    toLex (b.minute, toLex (b.second, b.microsecond))

instance (a b : Moment) : Decidable (a ≤ b) :=
  inferInstanceAs (Decidable (toLex (a.minute, toLex (a.second, a.microsecond)) ≤
    toLex (b.minute, toLex (b.second, b.microsecond))))

theorem Moment.minute_le {a b : Moment} (h : a ≤ b) : a.minute ≤ b.minute := by
  rcases Prod.Lex.le_iff.mp h with hlt | ⟨heq, -⟩
  · exact hlt.le
  · exact heq.le

/-! ## Numbers -/

/-- `ValueError`: the fields are not five, or a part is no number. -/
inductive ValueError where
  | cronFields
  | intLiteral (text : String)
deriving DecidableEq, Repr

/-- What the Unicode database says of characters: the value of a decimal digit, and whether
`str.isdigit` counts it, which also counts digits that are not decimal. -/
structure Digits where
  decimal : Char → Option Nat
  isDigit : Char → Bool

namespace Digits

variable (digits : Digits)

/-- Further digits, with single underscores between them. -/
def parseDigits (value : Nat) : List Char → Option Nat
  | [] => some value
  | '_' :: c :: rest => (digits.decimal c).bind fun d => parseDigits (value * 10 + d) rest
  | c :: rest => (digits.decimal c).bind fun d => parseDigits (value * 10 + d) rest

def parseNat : List Char → Option Nat
  | [] => none
  | c :: rest => (digits.decimal c).bind fun d => digits.parseDigits d rest

/-- `int` of a text without blanks. -/
def int (text : List Char) : Except ValueError Int :=
  let value :=
    match text with
    | '-' :: rest => (digits.parseNat rest).map fun n => -(n : Int)
    | '+' :: rest => (digits.parseNat rest).map fun n => (n : Int)
    | _ => (digits.parseNat text).map fun n => (n : Int)
  match value with
  | some n => .ok n
  | none => .error (.intLiteral (String.ofList text))

/-! ## Fields -/

/-- One part of a field. -/
def matchesPart (part : List Char) (value : Nat) : Except ValueError Bool :=
  if part = ['*'] then .ok true
  else if ['*', '/'].isPrefixOf part then do
    let step ← digits.int (part.drop 2)
    pure (decide (0 < step ∧ (value : Int) % step = 0))
  else if '-' ∈ part then do
    let low ← digits.int (part.takeWhile (· ≠ '-'))
    if low ≤ value then do
      let high ← digits.int ((part.dropWhile (· ≠ '-')).drop 1)
      pure (decide (value ≤ high))
    else pure false
  else if part ≠ [] ∧ part.all digits.isDigit = true then do
    let n ← digits.int part
    pure (decide (n = value))
  else pure false

/-- The parts of a field, until one matches. -/
def matchesParts (value : Nat) : List (List Char) → Except ValueError Bool
  | [] => pure false
  | part :: parts => do
      let found ← digits.matchesPart part value
      if found then pure true else matchesParts value parts

/-- `_matches_field` -/
def matchesField (expr : List Char) (value : Nat) : Except ValueError Bool :=
  digits.matchesParts value (expr.splitOn ',')

/-- The fields, until one does not match. -/
def matchesFields : List (List Char × Nat) → Except ValueError Bool
  | [] => pure true
  | (expr, value) :: fields => do
      let found ← digits.matchesField expr value
      if found then matchesFields fields else pure false

/-- `cron_matches` -/
def cronMatches (expression : String) (m : Minute) : Except ValueError Bool :=
  match (expression.toList.splitOnP isSpace).filter (· ≠ []) with
  | [minute, hour, dom, month, dow] =>
      digits.matchesFields
        [(minute, m.minute), (hour, m.hour), (dom, m.day), (month, m.month), (dow, m.weekday)]
  | _ => .error .cronFields

end Digits

/-- The digits of ASCII. -/
def asciiDigits : Digits where
  decimal c := if c.isDigit then some (c.toNat - '0'.toNat) else none
  isDigit := Char.isDigit

/-- The third of March 2025 was a Monday. -/
example : asciiDigits.cronMatches "*/15 9-17 * 1,3 1" ⟨2025, 3, 3, 9, 45⟩ = .ok true := by decide

end YoutubeFactory.Workflow
