import QueryTree.Error
import QueryTree.Query.Basic
import QueryTree.Text.Blank
import QueryTree.Text.Keyword

/-!
# Sources

An entry of the list of sources is declared by a text such as `orders`, `orders o` or
`orders AS o`, or by a nested query with a name.  A join may add a constraint to it.

* `Source.parse` — the source that a text declares.
* `Source.joined` — the source joined to those before it, if it has the constraint that it needs.
-/

namespace QueryTree

namespace Constraint

/-- A constraint that constrains something: conditions other than connectives, or columns with a
name that is not blank. -/
def effective? : Constraint → Option Constraint
  | .condition nodes => if Node.hasContent nodes then some (.condition nodes) else none
  | .columns names =>
    if names.any fun n => !Text.isBlank n then some (.columns names) else none

end Constraint

namespace Source

/-! ### Declaration -/

/-- A table under an optional nickname. -/
def table (name : String) (nickname : Option String) : Source := ⟨name, nickname, none, none, none⟩

/-- A nested query under a nickname. -/
def ofQuery (q : Query) (nickname : String) : Source := ⟨"", some nickname, none, none, some q⟩

/-- The source that a text declares: a name, perhaps followed by a nickname, perhaps with the word
"as" between the two.  Any other text is a name as a whole. -/
def parse (spec : String) : Source :=
  match Text.words spec with
  | [name] => table name none
  | [name, nickname] => table name (some nickname)
  | [name, word, nickname] =>
    if Text.sameIgnoringCase word.toList ['a', 's'] then table name (some nickname)
    else table (Text.trim spec) none
  | _ => table (Text.trim spec) none

theorem exists_parse_eq (spec : String) : ∃ name nickname, parse spec = table name nickname := by
  unfold parse
  split
  · exact ⟨_, _, rfl⟩
  · exact ⟨_, _, rfl⟩
  · split <;> exact ⟨_, _, rfl⟩
  · exact ⟨_, _, rfl⟩

/-- The name by which the query refers to the source. -/
def label (s : Source) : String := s.nickname.getD s.name

/-! ### Joins -/

/-- The source under a join and an optional constraint. -/
def joined (s : Source) (join : Join) (constraint : Option Constraint) : Except Misuse Source :=
  let constraint := constraint.bind Constraint.effective?
  if join.needsConstraint && constraint.isNone then .error (.unconstrainedJoin join s.label)
  else .ok { s with join := some join, constraint := constraint }

end Source

end QueryTree
