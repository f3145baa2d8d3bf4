import QueryTree.Error
import QueryTree.Query.Basic
import QueryTree.Text.Blank

/-!
# Drafts of condition trees

One level of a condition tree while it is put together.  Absent values add nothing; the first
misuse is kept and nothing is added after it.

* `Draft` — the nodes so far and the first misuse.
* `Draft.finish` — the nodes, or the misuse.
* `Draft.misuse_fail`, `Draft.misuse_push`, `Draft.push_of_failed` — what the two basic steps change.
-/

namespace QueryTree

/-- One level of a condition tree in the making. -/
structure Draft where
  nodes : List Node
  /-- The first misuse. -/
  misuse : Option Misuse

namespace Draft

/-- The draft without nodes. -/
def empty : Draft := ⟨[], none⟩

/-- The nodes, or the first misuse. -/
def finish (d : Draft) : Except Misuse (List Node) :=
  match d.misuse with
  | some cause => .error cause
  | none => .ok d.nodes

/-- Whether the draft holds connectives only. -/
def isEmpty (d : Draft) : Bool := !Node.hasContent d.nodes

/-- Whether something was misused. -/
def failed (d : Draft) : Bool := d.misuse.isSome

/-- Records a misuse, unless there is one already. -/
def fail (d : Draft) (cause : Misuse) : Draft :=
  { d with misuse := some (d.misuse.getD cause) }

/-- Adds a node, unless something was misused. -/
def push (d : Draft) (n : Node) : Draft :=
  if d.failed then d else { d with nodes := d.nodes ++ [n] }

theorem failed_iff {d : Draft} : d.failed = true ↔ ∃ cause, d.misuse = some cause :=
  Option.isSome_iff_exists

@[simp] theorem misuse_fail {d : Draft} {cause : Misuse} :
    (d.fail cause).misuse = some (d.misuse.getD cause) := rfl

@[simp] theorem misuse_push {d : Draft} {n : Node} : (d.push n).misuse = d.misuse := by
  unfold push
  split <;> rfl

theorem push_of_failed {d : Draft} {n : Node} (h : d.failed = true) : d.push n = d := if_pos h

theorem nodes_push {d : Draft} {n : Node} (h : d.failed = false) :
    (d.push n).nodes = d.nodes ++ [n] := by simp [push, h]

theorem finish_eq_ok_iff {d : Draft} {nodes : List Node} :
    d.finish = .ok nodes ↔ d.misuse = none ∧ d.nodes = nodes := by
  unfold finish
  split <;> simp_all

/-! ### Values -/

/-- Adds a node for a normalized value. -/
def pushNormalized (d : Draft) (op : Op) (key : String) : Normalized → Draft
  | .present v => d.push (.ofValue op key v)
  | .absent => d
  | .invalid why => d.fail (.unusableValue key op why)

/-- A comparison with a scalar. -/
def pushComparison (d : Draft) (c : Comparison) (key : String) (v : Value) : Draft :=
  d.pushNormalized (.compare c) key v.asScalar

/-- A text with the wildcards of a pattern around it. -/
def wildcards (p : Pattern) : Value → Value
  | .text s =>
    match p with
    | .startsWith => .text (s ++ "%")
    | _ => .text ("%" ++ s ++ "%")
  | v => v

/-- A pattern match. -/
def pushPattern (d : Draft) (p : Pattern) (key : String) (v : Value) : Draft :=
  match v.asPattern with
  | .present w => d.push (.ofValue (.pattern p) key (wildcards p w))
  | .absent => d
  | .invalid why => d.fail (.unusableValue key (.pattern p) why)

/-- A set membership. -/
def pushMembership (d : Draft) (m : Membership) (key : String) (v : Value) : Draft :=
  d.pushNormalized (.member m) key v.asMembers

/-- A set membership that must not be left out. -/
def pushRequired (d : Draft) (key : String) (v : Value) : Draft :=
  match v.asMembers with
  | .present w => d.push (.ofValue (.member .isIn) key w)
  | .absent => d.fail (.emptyRequiredSet key)
  | .invalid why => d.fail (.unusableRequiredSet key why)

/-! ### Connectives and groups -/

/-- A bare "or", unless it would stand first or behind another one. -/
def pushOr (d : Draft) : Draft :=
  match d.nodes.getLast? with
  | none => d
  | some last => if last.isConnective then d else d.push .orMark

/-- A group, unless it holds connectives only. -/
def pushGroup (d : Draft) (j : Junction) (inner : Draft) : Draft :=
  if d.failed then d
  else
    match inner.finish with
    | .error cause => d.fail cause
    | .ok subs => if Node.hasContent subs then d.push (.group j subs) else d

/-! ### Other nodes -/

/-- A raw piece of text with its arguments, unless it is blank. -/
def pushRaw (d : Draft) (text : String) (args : List Value) : Draft :=
  if Text.isBlank text then d else d.push ⟨.raw, text, some (.args args), []⟩

/-- A nested query behind the text of its left-hand side. -/
def pushSubquery (d : Draft) (text : String) (built : Except Misuse Query) : Draft :=
  if Text.isBlank text then d.fail .missingLeftSide
  else
    match built with
    | .ok q => d.push ⟨.subquery, text, some (.query q), []⟩
    | .error cause => d.fail cause

/-- A similarity search, unless there is nothing to search for. -/
def pushSearch (d : Draft) (field : String) (s : Search) : Draft :=
  if s.vector.isEmpty then d
  else if s.limit = 0 then d.fail (.emptySearch field)
  else d.push ⟨.search, field, some (.search s), []⟩

/-- A bound on a distance, unless there is nothing to be near to. -/
def pushDistance (d : Draft) (field : String) (bound : Distance) : Draft :=
  if bound.vector.isEmpty then d else d.push ⟨.distance, field, some (.distance bound), []⟩

/-- A field for the similarity backend, unless it has no key or no value. -/
def pushExtension (d : Draft) (key : String) (j : Json) : Draft :=
  if key.isEmpty || j.isNull then d else d.push ⟨.extension, key, some (.json j), []⟩

end Draft

end QueryTree
