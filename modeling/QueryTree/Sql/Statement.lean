import QueryTree.Sql.Column
import QueryTree.Sql.Condition

/-!
# Clauses of a statement

A query is turned into its clauses first.  The clauses then make up three statements: the rows of
the query, their number, and those nearest to a vector.

* `Statement` — the clauses.
* `Statement.plain`, `Statement.unordered`, `Statement.count`, `Statement.nearest` — what they make
  up.
-/

namespace QueryTree

/-! ### Flat clauses -/

/-- The select list of a query. -/
def selectItems (o : Outline) : Fragment :=
  let items := o.results.map columnPiece ++ o.aggregates.map fun a =>
    match a.label with
    | some label => .labelled a.expression label
    | none => .text a.expression
  (if o.distinct then [.text "DISTINCT "] else []) ++
    (if items.isEmpty then [.text "*"] else Fragment.separated ", " (items.map ([·])))

/-- The grouping of a query. -/
def groupText (columns : List String) : Fragment :=
  if columns.isEmpty then [] else [.text (" GROUP BY " ++ ", ".intercalate columns)]

/-- The order of a query. -/
def orderText (keys : List String) : Fragment :=
  if keys.isEmpty then [] else [.text (" ORDER BY " ++ ", ".intercalate keys)]

/-- The window of rows as it is written. -/
def Pagination.text (p : Pagination) (w : Window) : String :=
  match p with
  | limitOffset =>
    (match w.limit with
      | some n => " LIMIT " ++ toString n.toNat
      | none => "") ++
      (match w.offset with
        | some n => " OFFSET " ++ toString n.toNat
        | none => "")
  | offsetFetch =>
    match w.limit, w.offset with
    | none, none => ""
    | none, some n => " OFFSET " ++ toString n.toNat ++ " ROWS"
    | some l, n =>
      " OFFSET " ++ toString (n.getD 0).toNat ++ " ROWS FETCH NEXT " ++ toString l.toNat ++
        " ROWS ONLY"

/-- A table as it is written among the sources. -/
def tableText (name : String) (nickname : Option String) : String :=
  match nickname with
  | some n => name ++ " " ++ n
  | none => name

/-- A source behind what leads to it, which is nothing at the start, a comma or the word of a join;
only a join with a word has a constraint. -/
def joinedPieces (first : Bool) (join : Option Join) (reference constraint : Fragment) : Fragment :=
  match join with
  | none => if first then reference else .text ", " :: reference
  | some .comma => .text ", " :: reference
  | some join => .text (" " ++ join.symbol ++ " ") :: reference ++ constraint

/-! ### Clauses -/

/-- The clauses of a query. -/
structure Statement where
  /-- The named queries in front. -/
  ctes : Fragment
  /-- The select list. -/
  items : Fragment
  /-- The sources. -/
  sources : Fragment
  /-- The bound of the paging. -/
  bound : List Lexeme
  /-- The conditions on the rows. -/
  conditions : List Lexeme
  /-- Whether a bare "or" stands at the top of the conditions. -/
  hasConnective : Bool
  /-- The grouping. -/
  groups : Fragment
  /-- The conditions on the groups. -/
  having : List Lexeme
  /-- The further members of the union. -/
  unions : Fragment
  /-- The sort keys. -/
  order : List String
  /-- The rows that are asked for. -/
  window : Window

namespace Statement

/-- The conditions together with the bound, which holds for all of them. -/
def boundConditions (s : Statement) : List Lexeme :=
  if s.bound.isEmpty then s.conditions
  else if s.conditions.isEmpty then s.bound
  else if s.hasConnective then
    s.bound ++ .and :: .opening :: s.conditions ++ [.closing]
  else s.bound ++ .and :: s.conditions

/-- The clauses from the sources to the unions, under some conditions. -/
def body (s : Statement) (conditions : List Lexeme) : Fragment :=
  s.sources ++ clause " WHERE " conditions ++ s.groups ++ clause " HAVING " s.having ++ s.unions

/-- The rows of the query. -/
def plain (p : Pagination) (s : Statement) : Fragment :=
  s.ctes ++ .text "SELECT " :: s.items ++ s.body s.boundConditions ++ orderText s.order ++
    [.text (p.text s.window)]

/-- The rows without order and window. -/
def unordered (s : Statement) : Fragment :=
  s.ctes ++ .text "SELECT " :: s.items ++ s.body s.conditions

/-- The number of rows. -/
def count (s : Statement) : Fragment :=
  s.ctes ++ .text "SELECT COUNT(*)" :: s.body s.conditions

/-- The distance to the vector of a search, as a further item of the select list. -/
def distanceItem (field : String) (search : Search) : Fragment :=
  .text ", " :: infixed field search.metric.operator (.vector search.vector) ++
    [.text " AS distance"]

/-- The rows with their distance to a vector, the nearest first. -/
def nearest (p : Pagination) (s : Statement) (field : String) (search : Search) : Fragment :=
  s.ctes ++ .text "SELECT " :: s.items ++ distanceItem field search ++
    s.body s.boundConditions ++ orderText ("distance" :: s.order) ++
    [.text (p.text { s.window with limit := some search.fetchLimit })]

end Statement

end QueryTree
