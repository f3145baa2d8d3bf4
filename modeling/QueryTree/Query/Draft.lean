import QueryTree.Condition.Draft
import QueryTree.Query.Elimination
import QueryTree.Query.Source

/-!
# Drafts of queries

A query while it is put together.  Nested queries arrive already built, or as the misuse that kept
them from being built.

* `QueryDraft` — the parts so far and the first misuse outside the conditions.
* `QueryDraft.finish` — the finished query without the sources that nothing refers to, or a misuse.
-/

namespace QueryTree

/-- A query in the making. -/
structure QueryDraft where
  outline : Outline
  sources : List Source
  conditions : Draft
  having : Draft
  ctes : List Cte
  unions : List UnionMember
  /-- The first misuse outside the conditions. -/
  misuse : Option Misuse

namespace QueryDraft

/-- The draft in which nothing is declared. -/
def empty : QueryDraft := ⟨.empty, [], .empty, .empty, [], [], none⟩

/-- Records a misuse, unless there is one already. -/
def fail (d : QueryDraft) (cause : Misuse) : QueryDraft :=
  { d with misuse := some (d.misuse.getD cause) }

/-- Changes the flat parts. -/
def mapOutline (d : QueryDraft) (f : Outline → Outline) : QueryDraft :=
  { d with outline := f d.outline }

/-- Uses what was built, or records why it was not. -/
def withBuilt {α : Type} (d : QueryDraft) (built : Except Misuse α)
    (use : QueryDraft → α → QueryDraft) : QueryDraft :=
  match built with
  | .ok a => use d a
  | .error cause => d.fail cause

/-! ### Columns, groups and order -/

/-- Sets the selected columns; blank ones are left out. -/
def select (d : QueryDraft) (columns : List String) : QueryDraft :=
  d.mapOutline fun o => { o with results := columns.filter fun c => !Text.isBlank c }

/-- Adds a selected column, unless it is blank. -/
def addColumn (d : QueryDraft) (column : String) : QueryDraft :=
  if Text.isBlank column then d
  else d.mapOutline fun o => { o with results := o.results ++ [column] }

/-- Adds an aggregate. -/
def addAggregate (d : QueryDraft) (a : Aggregate) : QueryDraft :=
  d.mapOutline fun o => { o with aggregates := o.aggregates ++ [a] }

/-- Adds columns to group by; empty ones are left out. -/
def addGroups (d : QueryDraft) (columns : List String) : QueryDraft :=
  d.mapOutline fun o =>
    { o with groupBy := o.groupBy ++ columns.filter fun c => !c.isEmpty }

/-- Adds a sort key, unless its field is empty. -/
def addSort (d : QueryDraft) (key : SortKey) : QueryDraft :=
  if key.field.isEmpty then d
  else d.mapOutline fun o => { o with sorts := o.sorts ++ [key] }

/-! ### Sources -/

/-- Adds a source. -/
def addSource (d : QueryDraft) (s : Source) : QueryDraft :=
  { d with sources := d.sources ++ [s] }

/-- Adds a source, or records why it cannot be joined. -/
def addJoined (d : QueryDraft) (joined : Except Misuse Source) : QueryDraft :=
  d.withBuilt joined addSource

/-- Adds a table; behind the first source it is a cross join. -/
def addTable (d : QueryDraft) (spec : String) : QueryDraft :=
  if d.sources.isEmpty then d.addSource (.parse spec)
  else d.addJoined ((Source.parse spec).joined .comma none)

/-- Joins a table. -/
def joinTable (d : QueryDraft) (join : Join) (spec : String)
    (constraint : Except Misuse (Option Constraint)) : QueryDraft :=
  if d.sources.isEmpty then d.fail (.joinBeforeSource join spec)
  else d.addJoined (constraint.bind fun c => (Source.parse spec).joined join c)

/-- Joins a nested query. -/
def joinQuery (d : QueryDraft) (join : Join) (nickname : String) (built : Except Misuse Query)
    (constraint : Except Misuse (Option Constraint)) : QueryDraft :=
  if d.sources.isEmpty then d.fail .nestedJoinBeforeSource
  else
    d.addJoined <| built.bind fun q => constraint.bind fun c =>
      (Source.ofQuery q nickname).joined join c

/-! ### Paging -/

/-- A word that is set unless it is zero. -/
def nonZero (n : UInt64) : Option UInt64 := if n = 0 then none else some n

/-- Changes the page; without one, a page in which nothing is set is changed. -/
def mapPage (d : QueryDraft) (f : Page → Page) : QueryDraft :=
  d.mapOutline fun o => { o with page := some (f (o.page.getD (.new 0 0))) }

/-- Continues after a value of the first sort key, if the value is set. -/
def setLast (d : QueryDraft) (v : Value) : QueryDraft :=
  match v.asScalar with
  | .present w => d.mapPage fun p => { p with last := some w }
  | .absent => d
  | .invalid why => d.fail (.unusableCursor why)

/-! ### Nested queries -/

/-- Adds a named query in front. -/
def addCte (d : QueryDraft) (name : String) (recursive : Bool) (built : Except Misuse Query) :
    QueryDraft :=
  if Text.isBlank name then d.fail .unnamedCte
  else d.withBuilt built fun d q => { d with ctes := d.ctes ++ [⟨name, recursive, q⟩] }

/-- Adds a member to the union. -/
def addUnion (d : QueryDraft) (keepsDuplicates : Bool) (built : Except Misuse Query) :
    QueryDraft :=
  d.withBuilt built fun d q => { d with unions := d.unions ++ [⟨keepsDuplicates, q⟩] }

/-! ### The finished query -/

/-- Paging by last value needs an order. -/
def lacksOrder (o : Outline) : Bool :=
  (o.activePage.any fun p => p.last.isSome) && o.sorts.isEmpty

/-- The query without the sources that nothing refers to; without selected columns all stay. -/
def eliminate (q : Query) : Query :=
  if q.outline.results.isEmpty then q else { q with sources := q.neededSources }

/-- The finished query, or a misuse: first one outside the conditions, then one in them. -/
def finish (d : QueryDraft) : Except Misuse Query :=
  match d.misuse with
  | some cause => .error cause
  | none =>
    d.conditions.finish.bind fun conditions => d.having.finish.bind fun having =>
      if lacksOrder d.outline then .error .cursorWithoutOrder
      else .ok (eliminate ⟨d.outline, d.sources, conditions, having, d.ctes, d.unions⟩)

end QueryDraft

end QueryTree
