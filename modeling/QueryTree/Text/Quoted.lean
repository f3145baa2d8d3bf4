/-!
# Quoted literals

A literal of the query language stands between single quotes, and a quote inside it is written
twice.
-/

namespace QueryTree

namespace Text

/-- The characters of a text with every single quote written twice. -/
def doubleQuotes : List Char → List Char
  | [] => []
  | c :: cs => if c = '\x27' then c :: c :: doubleQuotes cs else c :: doubleQuotes cs

/-- A text as a quoted literal. -/
def quoted (s : String) : String :=
  String.ofList ('\x27' :: (doubleQuotes s.toList ++ ['\x27']))

end Text

end QueryTree
