import QueryTree.Condition.Operator
import QueryTree.KeyMap
import QueryTree.Saturating
import QueryTree.Value.Basic

/-!
# The flat parts of a query

The parts of a query in which nothing is nested: columns, aggregates, grouping, order, paging and
metadata.

* `Aggregate`, `SortKey`, `Page`, `Metadata` — the parts.
* `Outline` — all of them together.
-/

namespace QueryTree

/-! ### Aggregates -/

/-- An aggregate function. -/
inductive AggregateFunction where
  | count
  | countDistinct
  | sum
  | avg
  | min
  | max
  deriving DecidableEq

/-- The function applied to a column; without a column, or with a star, rows are counted. -/
def AggregateFunction.call (f : AggregateFunction) (column : String) : String :=
  match f with
  | count => if column.isEmpty ∨ column = "*" then "COUNT(*)" else "COUNT(" ++ column ++ ")"
  | countDistinct => "COUNT(DISTINCT " ++ column ++ ")"
  | sum => "SUM(" ++ column ++ ")"
  | avg => "AVG(" ++ column ++ ")"
  | min => "MIN(" ++ column ++ ")"
  | max => "MAX(" ++ column ++ ")"

/-- An aggregate in the select list. -/
structure Aggregate where
  function : AggregateFunction
  column : String
  /-- The name of the result column. -/
  label : Option String

namespace Aggregate

/-- The aggregated expression. -/
def expression (a : Aggregate) : String := a.function.call a.column

/-- The aggregate as an item of the select list. -/
def text (a : Aggregate) : String :=
  match a.label with
  | some label => a.expression ++ " AS " ++ label
  | none => a.expression

end Aggregate

/-! ### Order -/

/-- A direction of sorting. -/
inductive Direction where
  | asc
  | desc
  deriving DecidableEq

/-- The direction as it is written. -/
def Direction.symbol : Direction → String
  | asc => "ASC"
  | desc => "DESC"

/-- The comparison that holds of the later values in a direction. -/
def Direction.beyond : Direction → Comparison
  | asc => .gt
  | desc => .lt

/-- One key of the order. -/
structure SortKey where
  field : String
  direction : Direction

/-- The key as it is written. -/
def SortKey.text (s : SortKey) : String := s.field ++ " " ++ s.direction.symbol

/-! ### Paging -/

/-- A page of rows, either by its number or after the last row of the page before. -/
structure Page where
  /-- The number as declared. -/
  declared : UInt64
  rows : UInt64
  /-- The first sort key of the last row seen. -/
  last : Option Value

namespace Page

/-- A page by its number. -/
def new (number rows : UInt64) : Page := ⟨number, rows, none⟩

/-- The number of the page; pages are numbered from one. -/
def number (p : Page) : UInt64 := if p.declared = 0 then 1 else p.declared

/-- A page without rows is no page. -/
def isActive (p : Page) : Bool := p.rows != 0

/-- How many rows come before the page. -/
def offset (p : Page) : UInt64 := saturatingMul (p.number - 1) p.rows

end Page

/-- A bound on a field. -/
structure Bound where
  comparison : Comparison
  field : String
  value : Value

/-- How many rows are asked for, and how many are passed over before them. -/
structure Window where
  limit : Option UInt64
  offset : Option UInt64

/-! ### Metadata -/

/-- What accompanies a query without being part of it. -/
structure Metadata where
  traceId : Option String
  tenantId : Option String
  custom : KeyMap String

namespace Metadata

/-- No metadata. -/
def empty : Metadata := ⟨none, none, .empty⟩

/-- The metadata with one more free entry. -/
def set (m : Metadata) (key value : String) : Metadata :=
  { m with custom := m.custom.insert key value }

/-- A free entry. -/
def get? (m : Metadata) (key : String) : Option String := m.custom.get? key

end Metadata

/-! ### All flat parts -/

/-- The flat parts of a query. -/
structure Outline where
  distinct : Bool
  /-- The selected columns. -/
  results : List String
  aggregates : List Aggregate
  groupBy : List String
  sorts : List SortKey
  page : Option Page
  limit : Option UInt64
  offset : Option UInt64
  metadata : Metadata

namespace Outline

/-- The outline in which nothing is set. -/
def empty : Outline := ⟨false, [], [], [], [], none, none, none, .empty⟩

/-- The page, if it has rows. -/
def activePage (o : Outline) : Option Page := o.page.filter Page.isActive

/-- The bound that continues after the last row seen: beyond its value of the first sort key, in the
direction of that key. -/
def bound? (o : Outline) : Option Bound :=
  match o.activePage, o.sorts with
  | some ⟨_, _, some last⟩, key :: _ => some ⟨key.direction.beyond, key.field, last⟩
  | _, _ => none

/-- The rows that are asked for: those of the page, or else the declared limit and offset.  Behind
a bound no rows are passed over. -/
def window (o : Outline) : Window :=
  match o.activePage with
  | some p =>
    ⟨some p.rows, if o.bound?.isSome || p.offset == 0 then none else some p.offset⟩
  | none => ⟨o.limit, o.offset⟩

end Outline

end QueryTree
