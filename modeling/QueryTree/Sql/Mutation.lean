import QueryTree.Mutation
import QueryTree.Sql.Select

/-!
# Statements of writes

The assignments of a write become arguments in their order; conditions come behind them.
-/

namespace QueryTree

/-- What is assigned, as it is written. -/
def Assigned.pieces : Assigned → Fragment
  | value v => [.argument v]
  | null => [.text "NULL"]
  | expression text => [.text text]

/-- The assignment as it is written in an update. -/
def Assignment.pieces (a : Assignment) : Fragment :=
  .text (a.column ++ " = ") :: a.assigned.pieces

/-- The statement of an insertion. -/
def Insert.compile (d : Dialect) (i : Insert) : Compiled :=
  let columns := ", ".intercalate (i.assignments.map Assignment.column)
  let values := Fragment.separated ", " (i.assignments.map fun a => a.assigned.pieces)
  Fragment.compile d
    (.text ("INSERT INTO " ++ i.table ++ " (" ++ columns ++ ") VALUES (") :: values ++ [.text ")"])

/-- The statement of an update. -/
def Update.compile (d : Dialect) (u : Update) : Compiled :=
  Fragment.compile d
    (.text ("UPDATE " ++ u.table ++ " SET ") ::
      Fragment.separated ", " (u.assignments.map Assignment.pieces) ++ whereClause d u.conditions)

/-- The statement of a deletion. -/
def Delete.compile (d : Dialect) (x : Delete) : Compiled :=
  Fragment.compile d (.text ("DELETE FROM " ++ x.table) :: whereClause d x.conditions)

end QueryTree
