import QueryTree.Json.Printer
import QueryTree.Text.Quoted
import QueryTree.Value.Basic

/-!
# Values as literals

A value written into the text of a statement.  Texts, times, vectors and nested structures are
quoted; the members of a list stand one after the other.
-/

namespace QueryTree

/-- A vector between brackets, its numbers in digits only. -/
def vectorLiteral (xs : List Single) : String :=
  "[" ++ ",".intercalate (xs.map Binary.plain) ++ "]"

namespace Value

mutual

/-- The literal of a value. -/
def literal : Value → String
  | null => "NULL"
  | bool b => if b then "TRUE" else "FALSE"
  | int n => toString n.toInt
  | uint n => toString n.toNat
  | float x => x.plain
  | text s => Text.quoted s
  | time t => Text.quoted t.format
  | list items => ", ".intercalate (literals items)
  | vector xs => Text.quoted (vectorLiteral xs)
  | json j => Text.quoted j.render

/-- The literals of the members of a list. -/
def literals : List Value → List String
  | [] => []
  | v :: vs => literal v :: literals vs

end

end Value

end QueryTree
