import QueryTree.Sql.Fragment
import QueryTree.Text.Blank
import QueryTree.Text.Keyword

/-!
# Select items

A selected column keeps the name that its text gives it.  A text that is more than a plain name,
and has none, is given a free name.

* `splitLabel?` — the expression and the name in a text such as `a.b AS x`.
* `columnPiece` — the item of a column.
-/

namespace QueryTree

/-! ### Names given in the text -/

/-- The characters of a name: ASCII letters and digits, the underscore and the two marks that quote
names. -/
def isLabelChar (c : Char) : Bool := c.isAlphanum || c == '_' || c == '"' || c == '\x60'

/-- The word in front of a name. -/
def asKeyword : List Char := [' ', 'A', 'S', ' ']

/-- The expression and the name around the last "as" of a text, if the one is not blank and the
other is a single name. -/
def splitLabel? (cs : List Char) : Option (List Char × List Char) :=
  match Text.splitLast? asKeyword cs with
  | some (before, after) =>
    let expression := Text.trimChars before
    let label := Text.trimChars after
    if !label.isEmpty && label.all isLabelChar && !expression.isEmpty then
      some (expression, label)
    else none
  | none => none

/-! ### Free names -/

/-- The word in front of a list of distinct values. -/
def distinctKeyword : List Char := ['D', 'I', 'S', 'T', 'I', 'N', 'C', 'T', ' ']

/-- A column with a qualifier, which is not a wildcard. -/
def isQualified (cs : List Char) : Bool := cs.contains '.' && !(['.', '*'].isSuffixOf cs)

/-- A column text that is more than a plain name. -/
def needsLabel (cs : List Char) : Bool :=
  isQualified cs || cs.contains ' ' ||
    (distinctKeyword.length < cs.length && Text.startsWithKeyword distinctKeyword cs)

/-- The select item of a column. -/
def columnPiece (column : String) : Piece :=
  let cs := Text.trimChars column.toList
  match splitLabel? cs with
  | some (expression, label) => .labelled (String.ofList expression) (String.ofList label)
  | none => if needsLabel cs then .item (String.ofList cs) else .text (String.ofList cs)

end QueryTree
