import QueryTree.Binary.Layout
import QueryTree.KeyMap

/-!
# JSON values

Numbers are whole numbers of 64 bits, signed or not, or finite floating-point numbers; the three
kinds stay apart, so `1` and `1.0` differ.  The entries of an object are in increasing order of
their keys.

* `Json` — the values.
* `Json.ofDouble` — a number without a JSON form becomes null.
* `Json.ofEntries` — an object of entries; the last of equal keys wins.
-/

namespace QueryTree

/-- A whole number that fits in 64 bits, signed or unsigned. -/
structure Json.Integer where
  /-- The number. -/
  val : Int
  /-- It is not below the signed range. -/
  low : -9223372036854775808 ≤ val
  /-- It is not above the unsigned range. -/
  high : val < 18446744073709551616
  deriving DecidableEq

/-- A JSON value. -/
inductive Json where
  | null
  | bool (b : Bool)
  | integer (n : Json.Integer)
  | float (x : Binary.Finite .double)
  | string (s : String)
  | array (items : List Json)
  | object (entries : List (String × Json))

namespace Json

/-! ### Numbers -/

/-- A signed word as a number. -/
def ofInt64 (n : Int64) : Json :=
  integer ⟨n.toInt, n.le_toInt, by have := n.toInt_lt; omega⟩

/-- An unsigned word as a number. -/
def ofUInt64 (n : UInt64) : Json :=
  integer ⟨n.toNat, by omega, by have := n.toNat_lt; omega⟩

/-- A floating-point number; infinities and not-a-number have no JSON form and become null. -/
def ofDouble : Double → Json
  | .finite x => float x
  | _ => null

/-- A number of 32 bits, widened. -/
def ofSingle (x : Single) : Json := ofDouble (x.convert .double)

/-- Whether the value is null. -/
def isNull : Json → Bool
  | null => true
  | _ => false

/-! ### Objects -/

/-- The object with these entries, the last of equal keys winning. -/
def ofEntries (entries : List (String × Json)) : Json := object (insertEntries entries [])

end Json

end QueryTree
