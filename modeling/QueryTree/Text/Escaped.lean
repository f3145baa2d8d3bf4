import QueryTree.Text.Hidden

/-!
# Escaped text

Text shown in a message stands between double quotes; what could not be seen there is escaped.
-/

namespace QueryTree

namespace Text

/-- The characters that show one character. -/
def escapeShown (c : Char) : List Char :=
  if c = '\x00' then ['\\', '0']
  else if c = '\t' then ['\\', 't']
  else if c = '\r' then ['\\', 'r']
  else if c = '\n' then ['\\', 'n']
  else if c = '\\' then ['\\', '\\']
  else if c = '"' then ['\\', '"']
  else if isHidden c then ['\\', 'u', '\x7b'] ++ Nat.toDigits 16 c.toNat ++ ['\x7d']
  else [c]

/-- A text between double quotes, with everything visible. -/
def escaped (s : String) : String :=
  String.ofList ('"' :: (s.toList.flatMap escapeShown ++ ['"']))

end Text

end QueryTree
