import QueryTree.Query.Basic
import QueryTree.Sql.Fragment
import QueryTree.Value.Literal

/-!
# Conditions as they are written

A condition tree is written as a sequence of lexemes: leaves, connectives and parentheses.  The text
of a leaf is one piece of the condition, whatever it is made of.

* `Lexeme` — the parts of a condition.
* `leafPieces` — the text of a leaf.
* `clause` — a condition behind the word that introduces it.
-/

namespace QueryTree

/-! ### Lexemes -/

/-- A part of a condition. -/
inductive Lexeme where
  /-- A node without members, and its text. -/
  | leaf (n : Node) (text : Fragment)
  | and
  | or
  | opening
  | closing

/-- The text of a lexeme. -/
def Lexeme.pieces : Lexeme → Fragment
  | leaf _ text => text
  | and => [.text " AND "]
  | or => [.text " OR "]
  | opening => [.text "("]
  | closing => [.text ")"]

/-- A condition behind the word that introduces it; without a condition there is neither. -/
def clause (word : String) (condition : List Lexeme) : Fragment :=
  if condition.isEmpty then [] else .text word :: condition.flatMap Lexeme.pieces

/-- What joins a node to what is before it: "or" among alternatives and behind a bare "or", but a
group stands behind "and" all the same. -/
def joining (alternatives pendingOr : Bool) (op : Op) : Lexeme :=
  if alternatives || (pendingOr && !op.isGroup) then .or else .and

/-! ### Leaves -/

/-- A raw piece of text, its question marks standing for the arguments as long as there are any;
`chunk` is the text since the last argument, in reverse. -/
def rawPieces (chunk : List Char) : List Char → List Value → Fragment
  | [], _ => [.text (String.ofList chunk.reverse)]
  | c :: cs, [] => rawPieces (c :: chunk) cs []
  | c :: cs, v :: vs =>
    if c = '?' then .text (String.ofList chunk.reverse) :: .argument v :: rawPieces [] cs vs
    else rawPieces (c :: chunk) cs (v :: vs)

/-- A left-hand side, an operator and an argument. -/
def infixed (key symbol : String) (v : Value) : Fragment :=
  [.text (key ++ " " ++ symbol ++ " "), .argument v]

/-- The escape character of a pattern as it is written. -/
def escapeClause (d : Dialect) : Fragment :=
  match d.likeEscape with
  | some c => [.text (" ESCAPE '" ++ String.singleton c ++ "'")]
  | none => []

/-- The text of a node that is no group and holds no query.  Nodes that are not for a statement, and
nodes without the operand that they need, have none. -/
def leafPieces (d : Dialect) (op : Op) (key : String) (operand : Option Operand) : Fragment :=
  match op, operand with
  | .compare c, some (.value v) => infixed key c.symbol v
  | .pattern p, some (.value v) => infixed key (Op.pattern p).symbol v ++ escapeClause d
  | .member m, some (.value v) =>
    [.text (key ++ " " ++ (Op.member m).symbol ++ " (" ++ v.literal ++ ")")]
  | .null n, _ => [.text (key ++ " " ++ (Op.null n).symbol)]
  | .raw, some (.args vs) => rawPieces [] key.toList vs
  | .raw, _ => [.text key]
  | .distance, some (.distance bound) =>
    infixed key bound.metric.operator (.vector bound.vector) ++
      [.text " < ", .argument (.ofSingle bound.threshold)]
  | _, _ => []

/-- The bound of the paging as a condition. -/
def boundLexemes (b : Bound) : List Lexeme :=
  [.leaf (.ofValue (.compare b.comparison) b.field b.value)
    (infixed b.field b.comparison.symbol b.value)]

end QueryTree
