import QueryTree.Build

/-!
# Writes

Descriptions of rows to insert, update and delete.  An absent value leaves its column out; null and
expressions are assigned explicitly.  The last write to a column counts.

* `Insert.build`, `Update.build`, `Delete.build` — the finished write, or what is wrong with it.
-/

namespace QueryTree

/-! ### Assignments -/

/-- What is assigned to a column. -/
inductive Assigned where
  | value (v : Value)
  | null
  /-- An expression, written as it is. -/
  | expression (text : String)

/-- An assignment to a column. -/
structure Assignment where
  column : String
  assigned : Assigned

/-- A declaration about the assignments of a write. -/
inductive Write where
  /-- Assigns a value, if it is set. -/
  | set (column : String) (v : Value)
  /-- Assigns null. -/
  | setNull (column : String)
  /-- Assigns an expression. -/
  | setExpression (column text : String)

/-- The assignments of a write in the making. -/
structure Assignments where
  items : List Assignment
  /-- The first misuse. -/
  misuse : Option Misuse

namespace Assignments

/-- No assignments. -/
def empty : Assignments := ⟨[], none⟩

/-- Adds an assignment in place of an earlier one to the same column, unless something was
misused. -/
def assign (a : Assignments) (column : String) (assigned : Assigned) : Assignments :=
  if a.misuse.isSome then a
  else { a with items := (a.items.filter fun i => i.column != column) ++ [⟨column, assigned⟩] }

/-- The assignments after one more declaration. -/
def add (a : Assignments) : Write → Assignments
  | .set column v =>
    match v.asAssignment with
    | .present w => a.assign column (.value w)
    | .absent => a
    | .invalid why => { a with misuse := some (a.misuse.getD (.unusableAssignment column why)) }
  | .setNull column => a.assign column .null
  | .setExpression column text => a.assign column (.expression text)

/-- The assignments, or what is wrong with them: a misuse, or that there are none. -/
def finish (a : Assignments) (table : String) : Except Error (List Assignment) :=
  match a.misuse with
  | some cause => .error (.misuse cause)
  | none => if a.items.isEmpty then .error (.nothingToWrite table) else .ok a.items

end Assignments

/-- The outcome of a part that can only be misused, among all errors. -/
def ofMisuse {α : Type} : Except Misuse α → Except Error α
  | .ok a => .ok a
  | .error cause => .error (.misuse cause)

/-! ### Inserts -/

/-- A row to insert. -/
structure Insert where
  table : String
  assignments : List Assignment

/-- The insertion that some declarations describe. -/
def Insert.build (table : String) (writes : List Write) : Except Error Insert :=
  ((writes.foldl Assignments.add .empty).finish table).map (⟨table, ·⟩)

/-! ### Updates -/

/-- Rows to update. -/
structure Update where
  table : String
  assignments : List Assignment
  conditions : List Node

/-- A declaration about an update. -/
inductive Update.Clause where
  | write (w : Write)
  | criterion (c : Criterion)

/-- An update in the making. -/
structure Update.Draft where
  assignments : Assignments
  conditions : QueryTree.Draft

namespace Update

/-- An update after one more declaration. -/
def Draft.add (d : Draft) : Clause → Draft
  | .write w => { d with assignments := d.assignments.add w }
  | .criterion c => { d with conditions := Criterion.add d.conditions c }

/-- The update that some declarations describe; a misuse in the conditions is reported first. -/
def build (table : String) (clauses : List Clause) : Except Error Update :=
  let d := clauses.foldl Draft.add ⟨.empty, .empty⟩
  (ofMisuse d.conditions.finish).bind fun conditions =>
    (d.assignments.finish table).map fun assignments => ⟨table, assignments, conditions⟩

end Update

/-! ### Deletions -/

/-- Rows to delete. -/
structure Delete where
  table : String
  conditions : List Node

/-- The deletion that some criteria describe. -/
def Delete.build (table : String) (criteria : List Criterion) : Except Error Delete :=
  (ofMisuse (Node.build criteria)).map (⟨table, ·⟩)

end QueryTree
