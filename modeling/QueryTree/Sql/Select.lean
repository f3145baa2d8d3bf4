import QueryTree.Sql.Statement

/-!
# Statements of queries

A query becomes a statement clause by clause.  Scalars are arguments; the members of a set are
written as literals.  Siblings of a condition tree are joined by "and" unless a bare "or" stands
between two of them, and a group is always joined by "and" to what is before it.

* `Query.statement` — the clauses of a query and, through them, of the queries in it.
* `referencePieces`, `constraintPieces`, `Node.lexemes` — a source, the constraint of a join and a
  node of a condition, each as it is written where it stands alone.
* `Query.toSelect`, `Query.toCount`, `Query.toVectorSearch` — the three statements of a query.
-/

namespace QueryTree

/-! ### Clauses -/

mutual

/-- The clauses of a query. -/
def Query.statement (d : Dialect) : Query → Statement
  | ⟨outline, sources, conditions, having, ctes, unions⟩ =>
    { ctes :=
        if ctes.isEmpty then []
        else
          .text (if ctes.any Cte.recursive then "WITH RECURSIVE " else "WITH ") ::
            Fragment.separated ", " (ctePieces d ctes) ++ [.text " "]
      items := selectItems outline
      sources := if sources.isEmpty then [] else .text " FROM " :: sourcePieces d true sources
      bound := outline.bound?.elim [] boundLexemes
      conditions := nodeLexemes d false false false conditions
      hasConnective := conditions.any Node.isConnective
      groups := groupText outline.groupBy
      having := nodeLexemes d false false false having
      unions := unionPieces d unions
      order := outline.sorts.map SortKey.text
      window := outline.window }

/-- The named queries, each with its name. -/
def ctePieces (d : Dialect) : List Cte → List Fragment
  | [] => []
  | ⟨name, _, q⟩ :: rest =>
    (.text (name ++ " AS ") :: Fragment.parenthesized ((q.statement d).plain d.pagination)) ::
      ctePieces d rest

/-- A source without the join that leads to it. -/
def referencePieces (d : Dialect) (name : String) (nickname : Option String) :
    Option Query → Fragment
  | some q =>
    Fragment.parenthesized ((q.statement d).plain d.pagination) ++
      (nickname.toList.map fun n => .text (" " ++ n))
  | none => [.text (tableText name nickname)]

/-- The constraint of a join. -/
def constraintPieces (d : Dialect) : Option Constraint → Fragment
  | some (.condition nodes) => clause " ON " (nodeLexemes d false false false nodes)
  | some (.columns names) => [.text (" USING (" ++ ", ".intercalate names ++ ")")]
  | none => []

/-- The sources; `first` tells whether nothing stands before them. -/
def sourcePieces (d : Dialect) (first : Bool) : List Source → Fragment
  | [] => []
  | ⟨name, nickname, join, constraint, nested⟩ :: rest =>
    joinedPieces first join (referencePieces d name nickname nested)
        (constraintPieces d constraint) ++
      sourcePieces d false rest

/-- The members of a union behind the first. -/
def unionPieces (d : Dialect) : List UnionMember → Fragment
  | [] => []
  | ⟨keepsDuplicates, q⟩ :: rest =>
    .text (if keepsDuplicates then " UNION ALL " else " UNION ") ::
      (q.statement d).plain d.pagination ++ unionPieces d rest

/-- The text of a node that is no group, from its parts. -/
def leafText (d : Dialect) (op : Op) (key : String) (operand : Option Operand) : Fragment :=
  match op, operand with
  | .subquery, some (.query q) =>
    .text (key ++ " ") :: Fragment.parenthesized ((q.statement d).plain d.pagination)
  | op, operand => leafPieces d op key operand

/-- A node as it is written where it stands alone. -/
def Node.lexemes (d : Dialect) : Node → List Lexeme
  | ⟨op, key, operand, subs⟩ =>
    match op with
    | .group j =>
      let members := nodeLexemes d (j == .any) false false subs
      if members.isEmpty then [] else .opening :: members ++ [.closing]
    | op =>
      let text := leafText d op key operand
      if text.isVoid then [] else [.leaf ⟨op, key, operand, subs⟩ text]

/-- The siblings of one level of a condition tree.  `alternatives` tells whether they are joined by
"or", `started` whether something stands before them, and `pendingOr` whether a bare "or" does. -/
def nodeLexemes (d : Dialect) (alternatives started pendingOr : Bool) : List Node → List Lexeme
  | [] => []
  | n :: rest =>
    if n.isConnective then nodeLexemes d alternatives started true rest
    else if (n.lexemes d).isEmpty then nodeLexemes d alternatives started pendingOr rest
    else
      (if started then [joining alternatives pendingOr n.op] else []) ++ n.lexemes d ++
        nodeLexemes d alternatives true false rest

end

/-- Only the text of a subquery has a query in it. -/
theorem leafText_of_ne_subquery {d : Dialect} {op : Op} (h : op ≠ .subquery) (key : String)
    (operand : Option Operand) : leafText d op key operand = leafPieces d op key operand := by
  rw [leafText]
  intro q ho _
  exact h ho

/-- The text of a node that is no group. -/
def Node.text (d : Dialect) (n : Node) : Fragment := leafText d n.op n.key n.operand

theorem Node.text_of_ne_subquery {d : Dialect} {n : Node} (h : n.op ≠ .subquery) :
    n.text d = leafPieces d n.op n.key n.operand :=
  leafText_of_ne_subquery h n.key n.operand

/-! ### The three statements of a query -/

namespace Query

/-- The statement that gives the rows of the query. -/
def toSelect (d : Dialect) (q : Query) : CompiledSelect :=
  ((q.statement d).plain d.pagination).compileSelect d

/-- Whether the rows of the query are the rows of its sources that pass its conditions. -/
def countsSources (q : Query) : Bool :=
  q.outline.groupBy.isEmpty && !q.outline.distinct && q.unions.isEmpty

/-- The statement that gives the number of rows, without regard to order and window. -/
def toCount (d : Dialect) (q : Query) : Compiled :=
  let s := q.statement d
  if q.countsSources then s.count.compile d
  else
    Fragment.compile d
      (.text "SELECT COUNT(*) FROM " :: s.unordered.parenthesized ++ [.text " AS t_count"])

/-- The statement that gives the rows nearest to the vector of the first similarity search. -/
def toVectorSearch (d : Dialect) (q : Query) : Except Error Compiled :=
  match q.vectorSearch? with
  | some (field, search) =>
    .ok (((q.statement d).nearest d.pagination field search).compile d)
  | none => .error .noVectorSearch

end Query

/-- The conditions of a write. -/
def whereClause (d : Dialect) (conditions : List Node) : Fragment :=
  clause " WHERE " (nodeLexemes d false false false conditions)

end QueryTree
