import QueryTree.Query.Basic

/-!
# Declarations

A condition tree and a query are described by lists of declarations, in the order in which the
caller makes them.  Declarations nest: a group holds criteria, and a criterion or a clause can hold
a whole description of another query.

* `Criterion` — what is declared about a condition tree.
* `Clause` — what is declared about a query.
* `JoinRule` — what is declared about the constraint of a join.
-/

namespace QueryTree

mutual

/-- A declaration about a condition tree. -/
inductive Criterion where
  /-- Compares a scalar; a value that is not set drops the criterion. -/
  | compare (c : Comparison) (key : String) (v : Value)
  /-- Compares a truth value; false is kept. -/
  | eqBool (key : String) (b : Bool)
  /-- Matches a pattern. -/
  | pattern (p : Pattern) (key : String) (v : Value)
  /-- Tests membership in a set; an empty set drops the criterion. -/
  | member (m : Membership) (key : String) (v : Value)
  /-- Tests membership in a set that has to have members. -/
  | inRequired (key : String) (v : Value)
  /-- Tests for null. -/
  | null (n : NullTest) (key : String)
  /-- A raw piece of text; question marks stand for the arguments. -/
  | raw (text : String) (args : List Value)
  /-- A bare "or" between the criteria before and behind it. -/
  | or
  /-- A group in parentheses. -/
  | group (j : Junction) (body : List Criterion)
  /-- A group that counts only if a test holds; both must be given. -/
  | when (test : Option Bool) (body : Option (List Criterion))
  /-- A nested query behind the text of its left-hand side. -/
  | subquery (text : String) (body : List Clause)
  /-- A similarity search on a field. -/
  | search (field : String) (s : Search)
  /-- A bound on the distance of a field to a vector. -/
  | distance (field : String) (d : Distance)
  /-- A field for the similarity backend. -/
  | extension (key : String) (j : Json)

/-- A declaration about a query. -/
inductive Clause where
  /-- A condition on the rows. -/
  | criterion (c : Criterion)
  /-- Sets the selected columns. -/
  | select (columns : List String)
  /-- Adds a selected column. -/
  | column (name : String)
  /-- Adds an aggregate. -/
  | aggregate (a : Aggregate)
  /-- Drops equal rows. -/
  | distinct
  /-- Adds a source; behind the first one it is a cross join. -/
  | source (spec : String)
  /-- Adds a nested query as a source. -/
  | nested (nickname : String) (body : List Clause)
  /-- Joins a source. -/
  | join (j : Join) (spec : String) (rule : JoinRule)
  /-- Joins a nested query. -/
  | joinNested (j : Join) (nickname : String) (body : List Clause) (rule : JoinRule)
  /-- Adds columns to group by. -/
  | groupBy (columns : List String)
  /-- Adds conditions on the groups. -/
  | having (body : List Criterion)
  /-- Adds a sort key. -/
  | sort (key : SortKey)
  /-- Sets the number of rows; zero clears it. -/
  | limit (n : UInt64)
  /-- Sets the number of rows passed over; zero clears it. -/
  | offset (n : UInt64)
  /-- Sets the page as a whole. -/
  | paged (p : Page)
  /-- Sets the number of the page. -/
  | page (n : UInt64)
  /-- Sets the rows of the page. -/
  | rows (n : UInt64)
  /-- Continues after a value of the first sort key. -/
  | last (v : Value)
  /-- Adds a named query in front. -/
  | cte (name : String) (recursive : Bool) (body : List Clause)
  /-- Adds a member to the union. -/
  | union (keepsDuplicates : Bool) (body : List Clause)
  /-- Sets the metadata. -/
  | metadata (m : Metadata)

/-- A declaration about the constraint of a join. -/
inductive JoinRule where
  | on (body : List Criterion)
  | columns (names : List String)
  | none

end

end QueryTree
