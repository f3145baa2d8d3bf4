/-!
# Joins

How a source is joined to the sources before it.
-/

namespace QueryTree

/-- A kind of join. -/
inductive Join where
  | inner
  | left
  | right
  | full
  | cross
  /-- A cross join written as a list. -/
  | comma
  deriving DecidableEq

namespace Join

/-- The join as it is written. -/
def symbol : Join → String
  | inner => "INNER JOIN"
  | left => "LEFT JOIN"
  | right => "RIGHT JOIN"
  | full => "FULL JOIN"
  | cross => "CROSS JOIN"
  | comma => ","

/-- Outer joins keep every row of one side, whether or not the other side has a match. -/
def isOuter : Join → Bool
  | left | right | full => true
  | _ => false

/-- All joins but the cross joins need a constraint. -/
def needsConstraint : Join → Bool
  | cross | comma => false
  | _ => true

end Join

end QueryTree
