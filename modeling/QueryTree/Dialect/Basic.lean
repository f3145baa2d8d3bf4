import QueryTree.Error
import QueryTree.KeyMap

/-!
# Dialects

What differs between database systems: how the places of arguments are marked, how a window of rows
is written, and which character escapes the wildcards of patterns.
-/

namespace QueryTree

/-- How the place of an argument is marked. -/
inductive Placeholder where
  /-- A question mark. -/
  | question
  /-- A dollar sign and the position of the argument, from one. -/
  | dollar
  deriving DecidableEq, Inhabited

/-- How a window of rows is written. -/
inductive Pagination where
  | limitOffset
  | offsetFetch
  deriving DecidableEq, Inhabited

/-- A dialect. -/
structure Dialect where
  name : String
  placeholder : Placeholder
  pagination : Pagination
  /-- Free entries, of which only `like_escape` has a meaning. -/
  custom : KeyMap String

namespace Dialect

/-! ### Presets -/

/-- The dialect without a name. -/
def default : Dialect := ⟨"", .question, .limitOffset, .empty⟩

instance : Inhabited Dialect := ⟨default⟩

/-- The dialect of MySQL. -/
def mysql : Dialect := { default with name := "mysql" }

/-- The dialect of PostgreSQL. -/
def postgres : Dialect := { default with name := "postgres", placeholder := .dollar }

/-- The dialect of Oracle. -/
def oracle : Dialect := { default with name := "oracle", pagination := .offsetFetch }

/-! ### Free entries -/

/-- The dialect with one more free entry. -/
def withCustom (d : Dialect) (key value : String) : Dialect :=
  { d with custom := d.custom.insert key value }

/-- The key of the escape character. -/
def likeEscapeKey : String := "like_escape"

/-- The character that escapes the wildcards of patterns. -/
def likeEscape (d : Dialect) : Option Char :=
  (d.custom.get? likeEscapeKey).bind fun s => s.toList.head?

/-- The dialect, if the escape character is exactly one character or is not set. -/
def validate (d : Dialect) : Except Error Dialect :=
  match d.custom.get? likeEscapeKey with
  | some s => if s.length = 1 then .ok d else .error (.invalidLikeEscape s)
  | none => .ok d

end Dialect

end QueryTree
