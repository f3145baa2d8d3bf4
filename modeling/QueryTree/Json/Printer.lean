import QueryTree.Json.Basic

/-!
# JSON as text

The text of a value has no blanks.  Only what must be escaped in a string is: the quote, the
backslash and the characters below the blank.

* `Json.render` — the text of a value.
* `Json.quoted` — the text of a string.
* `Json.doubleLayout`, `Json.singleLayout` — how numbers are written.
-/

namespace QueryTree

namespace Json

/-! ### Numbers -/

/-- Numbers of 64 bits: exponents from -5 to 15 are written positionally, and a whole number then
ends in a point and a zero; a tie goes to the even digit. -/
def doubleLayout : NumberLayout := ⟨some (-5, 15), true, .even⟩

/-- Numbers of 32 bits: exponents from -6 to 12 are written positionally. -/
def singleLayout : NumberLayout := ⟨some (-6, 12), true, .even⟩

/-- The text of a number of 32 bits that is not widened; without a JSON form it is null. -/
def singleText : Single → String
  | .finite x => x.write singleLayout
  | _ => "null"

/-! ### Strings -/

/-- A lower-case hexadecimal digit. -/
def hexDigit (n : Nat) : Char := Nat.digitChar (n % 16)

/-- The characters that stand for one character between the quotes. -/
def escapeChar (c : Char) : List Char :=
  if c = '"' then ['\\', '"']
  else if c = '\\' then ['\\', '\\']
  else if c = '\x08' then ['\\', 'b']
  else if c = '\x0c' then ['\\', 'f']
  else if c = '\n' then ['\\', 'n']
  else if c = '\r' then ['\\', 'r']
  else if c = '\t' then ['\\', 't']
  else if c.toNat < 0x20 then ['\\', 'u', '0', '0', hexDigit (c.toNat / 16), hexDigit c.toNat]
  else [c]

/-- A string between quotes. -/
def quoted (s : String) : String :=
  String.ofList ('"' :: (s.toList.flatMap escapeChar ++ ['"']))

/-! ### Values -/

mutual

/-- The text of a value. -/
def render : Json → String
  | null => "null"
  | bool b => if b then "true" else "false"
  | integer n => toString n.val
  | float x => x.write doubleLayout
  | string s => quoted s
  | array items => "[" ++ ",".intercalate (renderItems items) ++ "]"
  | object entries => "\x7b" ++ ",".intercalate (renderEntries entries) ++ "\x7d"

/-- The texts of the items of an array. -/
def renderItems : List Json → List String
  | [] => []
  | j :: js => render j :: renderItems js

/-- The texts of the entries of an object. -/
def renderEntries : List (String × Json) → List String
  | [] => []
  | (k, j) :: es => (quoted k ++ ":" ++ render j) :: renderEntries es

end

end Json

end QueryTree
