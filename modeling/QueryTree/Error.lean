import QueryTree.Condition.Operator
import QueryTree.Query.Join
import QueryTree.Text.Escaped
import QueryTree.Value.Normalize

/-!
# Errors

An error says what went wrong and keeps what its message needs; the wording is in one function.

* `Misuse` — mistakes in a description, found while it is built.
* `Error` — all errors, with `Error.kind` and `Error.message`.
-/

namespace QueryTree

/-- A mistake in a description of a query or a write. -/
inductive Misuse where
  /-- The value of a criterion has no form that its operator can use. -/
  | unusableValue (key : String) (op : Op) (why : Rejection)
  /-- A required set has no members. -/
  | emptyRequiredSet (key : String)
  /-- A required set has an unusable member. -/
  | unusableRequiredSet (key : String) (why : Rejection)
  /-- A conditional group without its test. -/
  | missingTest
  /-- A conditional group without its body. -/
  | missingBody
  /-- A nested query as a condition without a left-hand side. -/
  | missingLeftSide
  /-- A similarity search that wants no hits. -/
  | emptySearch (field : String)
  /-- A join without the constraint that it needs. -/
  | unconstrainedJoin (join : Join) (label : String)
  /-- A join in front of the first source. -/
  | joinBeforeSource (join : Join) (source : String)
  /-- A join of a nested query in front of the first source. -/
  | nestedJoinBeforeSource
  /-- A last value that no row can be compared with. -/
  | unusableCursor (why : Rejection)
  /-- A named query without a name. -/
  | unnamedCte
  /-- Paging by last value without an order. -/
  | cursorWithoutOrder
  /-- A value that cannot be assigned. -/
  | unusableAssignment (column : String) (why : Rejection)
  deriving DecidableEq

/-- The wording of a misuse. -/
def Misuse.message : Misuse → String
  | unusableValue key op why => key ++ " " ++ op.symbol ++ ": " ++ why.message
  | emptyRequiredSet key =>
    "in_required(" ++ key ++ "): no usable values, refusing to compile an unfiltered condition"
  | unusableRequiredSet key why => "in_required(" ++ key ++ "): " ++ why.message
  | missingTest => "conditional group requires a test function"
  | missingBody => "conditional group requires a body function"
  | missingLeftSide => "sub-query condition requires a left-hand fragment"
  | emptySearch field => "vector search on " ++ field ++ " requires a non-zero result count"
  | unconstrainedJoin join label =>
    join.symbol ++ " " ++ label ++ " declared without ON or USING"
  | joinBeforeSource join source =>
    join.symbol ++ " " ++ source ++ " declared before any base source"
  | nestedJoinBeforeSource => "sub-query join declared before any base source"
  | unusableCursor why => "last: " ++ why.message
  | unnamedCte => "CTE requires a name"
  | cursorWithoutOrder =>
    "cursor pagination requires a sort key to compare the last value against"
  | unusableAssignment column why =>
    "cannot assign a " ++ why.message ++ " value to column " ++ column

/-- The kind of an error. -/
inductive Error.Kind where
  | misuse
  | query
  | config
  | hook
  deriving DecidableEq

/-- An error of any operation of this library. -/
inductive Error where
  | misuse (cause : Misuse)
  /-- A write that assigns nothing. -/
  | nothingToWrite (table : String)
  /-- A similarity search was asked of a query without one. -/
  | noVectorSearch
  /-- The text of a dialect cannot be read. -/
  | invalidDialect
  /-- The escape character of a dialect is not one character. -/
  | invalidLikeEscape (text : String)
  /-- A hook stopped the build. -/
  | hook (name message : String)
  deriving DecidableEq

namespace Error

/-- The kind of the error. -/
def kind : Error → Kind
  | misuse _ => .misuse
  | nothingToWrite _ => .query
  | noVectorSearch => .query
  | invalidDialect => .config
  | invalidLikeEscape _ => .config
  | hook _ _ => .hook

/-- What stands in front of a message of a kind. -/
def Kind.label : Kind → String
  | misuse => "Misuse: "
  | query => "Query error: "
  | config => "Config error: "
  | hook => ""

/-- The message without the mark of its kind. -/
def detail : Error → String
  | misuse cause => cause.message
  | nothingToWrite table => "no columns to write for table " ++ table
  | noVectorSearch => "no vector search condition in query"
  | invalidDialect => "invalid dialect"
  | invalidLikeEscape text =>
    "like_escape must be a single character, got " ++ Text.escaped text
  | hook name message => "Hook '" ++ name ++ "' failed: " ++ message

/-- The message. -/
def message (e : Error) : String := e.kind.label ++ e.detail

/-- Whether the description itself is at fault. -/
def isMisuse (e : Error) : Bool := e.kind == .misuse

end Error

end QueryTree
