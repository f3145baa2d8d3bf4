/-!
# Operators of a condition tree

Every node of a condition tree has an operator.  Most belong to a family: comparisons, pattern
matches, set memberships and null tests share their form, and the two junctions group other nodes.
-/

namespace QueryTree

/-! ### Families -/

/-- Comparisons with a scalar. -/
inductive Comparison where
  | eq
  | ne
  | gt
  | gte
  | lt
  | lte
  deriving DecidableEq

/-- Pattern matches of a text. -/
inductive Pattern where
  /-- The text occurs somewhere. -/
  | contains
  /-- The text occurs at the start. -/
  | startsWith
  /-- The text occurs nowhere. -/
  | lacks
  deriving DecidableEq

/-- Set memberships. -/
inductive Membership where
  | isIn
  | notIn
  deriving DecidableEq

/-- Null tests. -/
inductive NullTest where
  | isNull
  | nonNull
  deriving DecidableEq

/-- How the members of a group are joined. -/
inductive Junction where
  | all
  | any
  deriving DecidableEq

/-- The operator of a node. -/
inductive Op where
  | compare (c : Comparison)
  | pattern (p : Pattern)
  | member (m : Membership)
  | null (n : NullTest)
  /-- A piece of statement text with positional arguments. -/
  | raw
  /-- A group in parentheses. -/
  | group (j : Junction)
  /-- A bare "or" between two siblings. -/
  | orMark
  /-- A nested query behind the text of its left-hand side. -/
  | subquery
  /-- A similarity search. -/
  | search
  /-- A bound on the distance to a vector. -/
  | distance
  /-- A field of the similarity request that only the backend understands. -/
  | extension
  deriving DecidableEq

/-! ### Symbols and classes -/

/-- The symbol of a comparison. -/
def Comparison.symbol : Comparison → String
  | eq => "="
  | ne => "<>"
  | gt => ">"
  | gte => ">="
  | lt => "<"
  | lte => "<="

namespace Op

/-- The operator as it is written between its operands or named in a message. -/
def symbol : Op → String
  | compare c => c.symbol
  | pattern .lacks => "NOT LIKE"
  | pattern _ => "LIKE"
  | member .isIn => "IN"
  | member .notIn => "NOT IN"
  | null .isNull => "IS NULL"
  | null .nonNull => "IS NOT NULL"
  | raw => "RAW"
  | group .all => "AND"
  | group .any => "OR"
  | orMark => "OR"
  | subquery => "SUBQUERY"
  | search => "VECTOR_SEARCH"
  | distance => "VECTOR_DISTANCE"
  | extension => "EXTENSION"

/-- Groups of other nodes. -/
def isGroup : Op → Bool
  | group _ => true
  | _ => false

/-- Comparisons with a scalar. -/
def isComparison : Op → Bool
  | compare _ => true
  | _ => false

/-- Pattern matches. -/
def isPattern : Op → Bool
  | pattern _ => true
  | _ => false

/-- Set memberships. -/
def isSet : Op → Bool
  | member _ => true
  | _ => false

/-- Operators that only the similarity backend acts on; a statement never shows them. -/
def isBackendOnly : Op → Bool
  | search => true
  | extension => true
  | _ => false

end Op

end QueryTree
