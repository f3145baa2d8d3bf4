import QueryTree.Calendar
import QueryTree.Json.Basic

/-!
# Values

The values that criteria compare with and that writes assign.

* `Value` — ten kinds of values.
* `Value.ofJson`, `Value.toJson` — the two ways between values and JSON; an object has no kind of
  its own and stays as it is.
-/

namespace QueryTree

/-- A value of a criterion or of an assignment. -/
inductive Value where
  | null
  | bool (b : Bool)
  | int (n : Int64)
  | uint (n : UInt64)
  | float (x : Double)
  | text (s : String)
  | time (t : DateTime)
  | list (items : List Value)
  /-- An embedding. -/
  | vector (xs : List Single)
  /-- A nested structure, passed on as it is. -/
  | json (j : Json)

namespace Value

instance : Inhabited Value := ⟨null⟩

/-- The name of the kind. -/
def kind : Value → String
  | null => "null"
  | bool _ => "bool"
  | int _ => "int"
  | uint _ => "uint"
  | float _ => "float"
  | text _ => "text"
  | time _ => "time"
  | list _ => "list"
  | vector _ => "vector"
  | json _ => "json"

/-- Values that count as not set: null, false, the number zero, the empty text, list or vector. -/
def isZero : Value → Bool
  | null => true
  | bool b => !b
  | int n => n == 0
  | uint n => n == 0
  | float x => x.isZero
  | text s => s.isEmpty
  | time _ => false
  | list items => items.isEmpty
  | vector xs => xs.isEmpty
  | json j => j.isNull

/-- A number of 32 bits, widened. -/
def ofSingle (x : Single) : Value := float (x.convert .double)

/-- The value inside an option; none is null. -/
def ofOption (v : Option Value) : Value := v.getD null

/-! ### JSON -/

/-- A whole number as a signed word where it fits, else as an unsigned one. -/
def ofInteger (n : Json.Integer) : Value :=
  if n.val < 9223372036854775808 then int (.ofInt n.val) else uint (.ofNat n.val.toNat)

mutual

/-- The value of a JSON value. -/
def ofJson : Json → Value
  | .null => null
  | .bool b => bool b
  | .integer n => ofInteger n
  | .float x => float (.finite x)
  | .string s => text s
  | .array items => list (ofJsonItems items)
  | .object entries => json (.object entries)

/-- The values of the items of an array. -/
def ofJsonItems : List Json → List Value
  | [] => []
  | j :: js => ofJson j :: ofJsonItems js

end

mutual

/-- The value as JSON; times become text and vectors become arrays. -/
def toJson : Value → Json
  | null => .null
  | bool b => .bool b
  | int n => .ofInt64 n
  | uint n => .ofUInt64 n
  | float x => .ofDouble x
  | text s => .string s
  | time t => .string t.format
  | list items => .array (toJsonItems items)
  | vector xs => .array (xs.map .ofSingle)
  | json j => j

/-- The items of a list as JSON. -/
def toJsonItems : List Value → List Json
  | [] => []
  | v :: vs => toJson v :: toJsonItems vs

end

end Value

end QueryTree
