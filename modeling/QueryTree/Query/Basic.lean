import QueryTree.Condition.Operator
import QueryTree.Query.Join
import QueryTree.Query.Outline
import QueryTree.Similarity.Search

/-!
# Query trees

A query and the trees of conditions in it.  Conditions can hold queries and queries hold
conditions, so the types are defined together.

* `Node` — a node of a condition tree.
* `Source` — an entry of the list of sources.
* `Query` — a finished query.
* `Node.walk`, `Node.visit`, `Node.find?` — the nodes of a tree, a visit to them all, and the first
  that passes a test.
-/

namespace QueryTree

mutual

/-- What a node works on. -/
inductive Operand where
  | value (v : Value)
  /-- The arguments of a raw piece of text, by position. -/
  | args (vs : List Value)
  | query (q : Query)
  | search (s : Search)
  | distance (d : Distance)
  | json (j : Json)

/-- A node of a condition tree. -/
structure Node where
  op : Op
  /-- The left-hand side; for raw text the text itself. -/
  key : String
  operand : Option Operand
  /-- The members of a group. -/
  subs : List Node

/-- The constraint of a join. -/
inductive Constraint where
  | condition (nodes : List Node)
  | columns (names : List String)

/-- An entry of the list of sources: a table or a nested query. -/
structure Source where
  /-- The name of the table; a nested query has none. -/
  name : String
  /-- The name it goes by in this query. -/
  nickname : Option String
  join : Option Join
  constraint : Option Constraint
  nested : Option Query

/-- A named query in front of the query that uses it. -/
structure Cte where
  name : String
  recursive : Bool
  query : Query

/-- A further member of a union. -/
structure UnionMember where
  /-- Whether equal rows are kept. -/
  keepsDuplicates : Bool
  query : Query

/-- A finished query. -/
structure Query where
  outline : Outline
  sources : List Source
  conditions : List Node
  having : List Node
  ctes : List Cte
  unions : List UnionMember

end

/-! ### Nodes -/

namespace Node

/-- A node without operand. -/
def bare (op : Op) (key : String) : Node := ⟨op, key, none, []⟩

/-- A node with a value. -/
def ofValue (op : Op) (key : String) (v : Value) : Node := ⟨op, key, some (.value v), []⟩

/-- A group. -/
def group (j : Junction) (subs : List Node) : Node := ⟨.group j, "", none, subs⟩

/-- A bare "or". -/
def orMark : Node := bare .orMark ""

/-- A bare "or" has no key, no operand and no members. -/
def isConnective (n : Node) : Bool :=
  n.op == .orMark && n.key.isEmpty && n.operand.isNone && n.subs.isEmpty

/-- The value of a node that has one. -/
def value? (n : Node) : Option Value :=
  match n.operand with
  | some (.value v) => some v
  | _ => none

/-- Whether a list holds more than connectives. -/
def hasContent (nodes : List Node) : Bool := nodes.any fun n => !n.isConnective

mutual

/-- All nodes of a tree, each before its members. -/
def walk : Node → List Node
  | ⟨op, key, operand, subs⟩ => ⟨op, key, operand, subs⟩ :: walkAll subs

/-- All nodes of some trees, in order. -/
def walkAll : List Node → List Node
  | [] => []
  | n :: ns => walk n ++ walkAll ns

end

mutual

/-- The state after a visit to all nodes of a tree, each before its members. -/
def visit {σ : Type} (f : σ → Node → σ) (s : σ) : Node → σ
  | ⟨op, key, operand, subs⟩ => visitAll f (f s ⟨op, key, operand, subs⟩) subs

/-- The state after a visit to all nodes of some trees, in order. -/
def visitAll {σ : Type} (f : σ → Node → σ) (s : σ) : List Node → σ
  | [] => s
  | n :: ns => visitAll f (visit f s n) ns

end

mutual

/-- The first node of a tree that passes a test. -/
def find? (p : Node → Bool) : Node → Option Node
  | ⟨op, key, operand, subs⟩ =>
    if p ⟨op, key, operand, subs⟩ then some ⟨op, key, operand, subs⟩ else findIn? p subs

/-- The first node of some trees that passes a test. -/
def findIn? (p : Node → Bool) : List Node → Option Node
  | [] => none
  | n :: ns =>
    match find? p n with
    | some found => some found
    | none => findIn? p ns

end

theorem walkAll_append {ms ns : List Node} : walkAll (ms ++ ns) = walkAll ms ++ walkAll ns := by
  induction ms with
  | nil => rfl
  | cons m ms ih => simp [walkAll, ih]

theorem findIn?_append {p : Node → Bool} {ms ns : List Node} :
    findIn? p (ms ++ ns) = (findIn? p ms).or (findIn? p ns) := by
  induction ms with
  | nil => rfl
  | cons m ms ih =>
    rw [List.cons_append, findIn?, findIn?, ih]
    split <;> rfl

end Node

/-! ### Queries -/

namespace Query

/-- The first similarity search among the conditions, with its field. -/
def vectorSearch? (q : Query) : Option (String × Search) :=
  match Node.findIn? (fun n => n.op == .search) q.conditions with
  | some ⟨_, key, some (.search s), _⟩ => some (key, s)
  | _ => none

/-- The bound of the paging, as a node. -/
def cursor? (q : Query) : Option Node :=
  q.outline.bound?.map fun b => .ofValue (.compare b.comparison) b.field b.value

end Query

end QueryTree
