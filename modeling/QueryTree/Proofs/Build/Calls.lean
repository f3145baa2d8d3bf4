import QueryTree.Build

/-!
# The calls of a description

A description nests: groups hold criteria, and criteria and clauses hold descriptions of other
queries.  Taken together they are calls, each made of one builder, and each call is a misuse or is
not.

* `Call` — a call of a builder, or the end of a description.
* `Criterion.calls`, `Clause.calls`, `Query.calls` — the calls that are made, at any depth.
* `Call.isMisuse` — whether a call is a misuse, judged by itself.
-/

namespace QueryTree

/-- A call of a builder. -/
inductive Call where
  /-- A criterion is declared. -/
  | criterion (c : Criterion)
  /-- A clause is declared; `started` tells whether a source was declared before it. -/
  | clause (started : Bool) (c : Clause)
  /-- The description of a query ends. -/
  | finish (body : List Clause)

/-! ### Which calls are made -/

/-- The clauses that give a query its first source. -/
def Clause.startsSources : Clause → Bool
  | .source _ => true
  | .nested _ _ => true
  | _ => false

mutual

/-- The calls of a criterion.  The body of a conditional group is passed over unless its test holds,
and a nested query is passed over if it has no left-hand side. -/
def Criterion.calls : Criterion → List Call
  | .group j body => .criterion (.group j body) :: Criterion.callsAll body
  | .when (some true) (some body) =>
    .criterion (.when (some true) (some body)) :: Criterion.callsAll body
  | .subquery text body =>
    .criterion (.subquery text body) ::
      if Text.isBlank text then [] else Clause.callsAll false body ++ [.finish body]
  | c => [.criterion c]

/-- The calls of some criteria. -/
def Criterion.callsAll : List Criterion → List Call
  | [] => []
  | c :: cs => c.calls ++ Criterion.callsAll cs

/-- The calls in the rule of a join. -/
def JoinRule.calls : JoinRule → List Call
  | .on body => Criterion.callsAll body
  | _ => []

/-- The calls of a clause; `started` tells whether a source was declared before it.  A nested query
is passed over if it is joined to nothing or named by nothing. -/
def Clause.calls (started : Bool) : Clause → List Call
  | .criterion c => c.calls
  | .nested nickname body =>
    .clause started (.nested nickname body) :: Clause.callsAll false body ++ [.finish body]
  | .join j spec rule => rule.calls ++ [.clause started (.join j spec rule)]
  | .joinNested j nickname body rule =>
    rule.calls ++ .clause started (.joinNested j nickname body rule) ::
      if started then Clause.callsAll false body ++ [.finish body] else []
  | .having body => .clause started (.having body) :: Criterion.callsAll body
  | .cte name recursive body =>
    .clause started (.cte name recursive body) ::
      if Text.isBlank name then [] else Clause.callsAll false body ++ [.finish body]
  | .union keepsDuplicates body =>
    .clause started (.union keepsDuplicates body) :: Clause.callsAll false body ++ [.finish body]
  | c => [.clause started c]

/-- The calls of some clauses. -/
def Clause.callsAll (started : Bool) : List Clause → List Call
  | [] => []
  | c :: cs => c.calls started ++ Clause.callsAll (started || c.startsSources) cs

end

/-- The calls that describe a query, its end included. -/
def Query.calls (clauses : List Clause) : List Call :=
  Clause.callsAll false clauses ++ [.finish clauses]

/-! ### Misuses -/

/-- The value was rejected. -/
def Normalized.isInvalid : Normalized → Bool
  | .invalid _ => true
  | _ => false

/-- There is a value left. -/
def Normalized.isPresent : Normalized → Bool
  | .present _ => true
  | _ => false

/-- A criterion with a value that its operator rejects, a required set without members, a
conditional group without test or body, a nested query without left-hand side, or a similarity
search that wants no hits. -/
def Criterion.isMisuse : Criterion → Bool
  | .compare _ _ v => v.asScalar.isInvalid
  | .pattern _ _ v => v.asPattern.isInvalid
  | .member _ _ v => v.asMembers.isInvalid
  | .inRequired _ v => !v.asMembers.isPresent
  | .when test body => test.isNone || body.isNone
  | .subquery text _ => Text.isBlank text
  | .search _ s => !s.vector.isEmpty && s.limit == 0
  | _ => false

/-- A rule that constrains nothing: no rule, a condition of bare "or"s, or blank columns only. -/
def JoinRule.isIneffective : JoinRule → Bool
  | .on body =>
    match Node.build body with
    | .ok nodes => nodes.all fun n => n.op == .orMark
    | .error _ => false
  | .columns names => names.all Text.isBlank
  | .none => true

/-- A join in front of the first source, a join without the constraint that it needs, a named query
without a name, or a last value that no row can be compared with. -/
def Clause.isMisuse (started : Bool) : Clause → Bool
  | .join j _ rule => !started || j.needsConstraint && rule.isIneffective
  | .joinNested j _ _ rule => !started || j.needsConstraint && rule.isIneffective
  | .cte name _ _ => Text.isBlank name
  | .last v => v.asScalar.isInvalid
  | _ => false

/-- The page after a clause. -/
def Clause.pageAfter (page : Option Page) : Clause → Option Page
  | .paged p => some p
  | .page n => some { page.getD (.new 0 0) with declared := n }
  | .rows n => some { page.getD (.new 0 0) with rows := n }
  | .last v =>
    match v.asScalar with
    | .present w => some { page.getD (.new 0 0) with last := some w }
    | _ => page
  | _ => page

/-- A sort key with a field. -/
def Clause.givesOrder : Clause → Bool
  | .sort key => !key.field.isEmpty
  | _ => false

/-- A description that ends on a page after a last value, without a sort key. -/
def Clause.endsWithoutOrder (body : List Clause) : Bool :=
  ((body.foldl Clause.pageAfter none).any fun p => p.isActive && p.last.isSome) &&
    !body.any Clause.givesOrder

/-- Whether a call is a misuse, judged by itself: what is nested in it makes calls of its own. -/
def Call.isMisuse : Call → Bool
  | criterion c => c.isMisuse
  | clause started c => c.isMisuse started
  | finish body => Clause.endsWithoutOrder body

end QueryTree
