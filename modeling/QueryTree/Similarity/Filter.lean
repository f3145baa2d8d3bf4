import QueryTree.Json.Basic
import QueryTree.Query.Basic

/-!
# Filters of similarity requests

The conditions of a query as a filter that a similarity backend understands: what must hold, what
must not hold, and alternatives of which one should hold.  Equality and membership become matches,
the other comparisons ranges.  Conditions that the backend cannot express are left out.

* `Filter`, `FilterClause` — filters and the clauses in them.
* `Filter.ofNodes` — the filter of one level of a condition tree.
* `Filter.withBound` — the filter under the bound of the paging.
-/

namespace QueryTree

/-- What a field of a point has to pass. -/
inductive FieldTest where
  /-- It has this value. -/
  | value (j : Json)
  /-- It has one of these values. -/
  | any (js : List Json)
  /-- It lies beyond this value. -/
  | range (c : Comparison) (j : Json)

mutual

/-- A filter of points. -/
structure Filter where
  must : List FilterClause
  mustNot : List FilterClause
  should : List FilterClause

/-- A clause of a filter. -/
inductive FilterClause where
  | field (key : String) (test : FieldTest)
  | isNull (key : String)
  | nested (f : Filter)

end

/-- What a node asks for: a clause that must hold, or one that must not. -/
structure Literal where
  positive : Bool
  clause : FilterClause

/-- A literal as a clause of its own. -/
def Literal.toClause (l : Literal) : FilterClause :=
  if l.positive then l.clause else .nested ⟨[], [l.clause], []⟩

namespace Filter

/-! ### Simple filters -/

/-- The filter that every point passes. -/
def empty : Filter := ⟨[], [], []⟩

/-- Whether nothing is asked for. -/
def isEmpty (f : Filter) : Bool := f.must.isEmpty && f.mustNot.isEmpty && f.should.isEmpty

/-- All of some literals. -/
def all (literals : List Literal) : Filter :=
  ⟨(literals.filter Literal.positive).map Literal.clause,
    (literals.filter fun l => !l.positive).map Literal.clause, []⟩

/-- One of some literals; a single one must hold. -/
def any (literals : List Literal) : Filter :=
  match literals.map Literal.toClause with
  | [] => empty
  | [clause] => ⟨[clause], [], []⟩
  | clauses => ⟨[], [], clauses⟩

/-- All of some literals, as an alternative. -/
def chainClause : List Literal → FilterClause
  | [l] => l.toClause
  | literals => .nested (all literals)

/-- One of some chains, each of which holds if all its literals do. -/
def anyChain : List (List Literal) → Filter
  | [literals] => all literals
  | chains => ⟨[], [], chains.map chainClause⟩

/-! ### From nodes to filters -/

/-- The values of a set. -/
def members : Json → List Json
  | .array items => items
  | j => [j]

/-- The literal of a node that is no group; what the backend cannot express has none. -/
def leaf? (op : Op) (key : String) (operand : Option Operand) : Option Literal :=
  match op, operand with
  | .compare .eq, some (.value v) => some ⟨true, .field key (.value v.toJson)⟩
  | .compare .ne, _ => none
  | .compare c, some (.value v) => some ⟨true, .field key (.range c v.toJson)⟩
  | .member .isIn, some (.value v) => some ⟨true, .field key (.any (members v.toJson))⟩
  | .member .notIn, some (.value v) => some ⟨false, .field key (.any (members v.toJson))⟩
  | .null .isNull, _ => some ⟨true, .isNull key⟩
  | .null .nonNull, _ => some ⟨false, .isNull key⟩
  | _, _ => none

/-- Adds a literal to the chains, of which the last one comes first, each in reverse: to the last
chain, or as a chain of its own. -/
def addToChains (separate : Bool) (l : Literal) : List (List Literal) → List (List Literal)
  | [] => [[l]]
  | chain :: chains => if separate then [l] :: chain :: chains else (l :: chain) :: chains

/-- One of the chains that were collected, in their order. -/
def ofChains (done : List (List Literal)) : Filter := anyChain (done.map List.reverse).reverse

mutual

/-- The literals of the nodes of one level. -/
def literals : List Node → List Literal
  | [] => []
  | n :: ns => (literal? n).toList ++ literals ns

/-- The chains of literals of one level, which bare connectives separate; a group continues the
chain before it. -/
def chains (done : List (List Literal)) (pendingOr : Bool) : List Node → List (List Literal)
  | [] => done
  | n :: ns =>
    if n.isConnective then chains done true ns
    else
      match literal? n with
      | none => chains done pendingOr ns
      | some l => chains (addToChains (pendingOr && !n.op.isGroup) l done) false ns

/-- The literal of a node. -/
def literal? : Node → Option Literal
  | ⟨op, key, operand, subs⟩ =>
    match op with
    | .group j =>
      let f := if j == .any then any (literals subs) else ofChains (chains [] false subs)
      if f.isEmpty then none else some ⟨true, .nested f⟩
    | op => leaf? op key operand

end

/-- The filter of one level of a condition tree. -/
def ofNodes (nodes : List Node) : Filter := ofChains (chains [] false nodes)

/-! ### Bounds -/

/-- The filter under a further clause that must hold, also where there are alternatives. -/
def withBound (clause : FilterClause) (f : Filter) : Filter :=
  if f.should.isEmpty then { f with must := clause :: f.must }
  else ⟨[clause, .nested f], [], []⟩

/-- The clause of the bound of the paging. -/
def boundClause (b : Bound) : FilterClause :=
  .field b.field (.range b.comparison b.value.toJson)

/-! ### JSON -/

/-- The name of a range. -/
def rangeName : Comparison → String
  | .gt => "gt"
  | .gte => "gte"
  | .lt => "lt"
  | _ => "lte"

/-- A test as an entry of the object of its field. -/
def testEntry : FieldTest → String × Json
  | .value j => ("match", .ofEntries [("value", j)])
  | .any js => ("match", .ofEntries [("any", .array js)])
  | .range c j => ("range", .ofEntries [(rangeName c, j)])

/-- An entry for some clauses; without any it is left out. -/
def clausesEntry (key : String) (clauses : List Json) : List (String × Json) :=
  if clauses.isEmpty then [] else [(key, .array clauses)]

mutual

/-- The filter as JSON. -/
def toJson : Filter → Json
  | ⟨must, mustNot, should⟩ =>
    .ofEntries (clausesEntry "must" (clausesToJson must) ++
      clausesEntry "must_not" (clausesToJson mustNot) ++
      clausesEntry "should" (clausesToJson should))

/-- Clauses as JSON. -/
def clausesToJson : List FilterClause → List Json
  | [] => []
  | c :: cs => clauseToJson c :: clausesToJson cs

/-- A clause as JSON. -/
def clauseToJson : FilterClause → Json
  | .field key test => .ofEntries [("key", .string key), testEntry test]
  | .isNull key => .ofEntries [("is_null", .ofEntries [("key", .string key)])]
  | .nested f => toJson f

end

end Filter

end QueryTree
