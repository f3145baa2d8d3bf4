import QueryTree.Declaration
import QueryTree.Query.Draft

/-!
# Building queries

Declarations are taken one after the other; what they nest is built first, in a draft of its own.

* `Criterion.addAll`, `Clause.addAll` — a draft after some declarations.
* `Query.build` — the query that a description describes, or the first misuse in it.
-/

namespace QueryTree

mutual

/-- A condition tree after one more criterion. -/
def Criterion.add (d : Draft) : Criterion → Draft
  | .compare c key v => d.pushComparison c key v
  | .eqBool key b => d.push (.ofValue (.compare .eq) key (.bool b))
  | .pattern p key v => d.pushPattern p key v
  | .member m key v => d.pushMembership m key v
  | .inRequired key v => d.pushRequired key v
  | .null n key => d.push (.bare (.null n) key)
  | .raw text args => d.pushRaw text args
  | .or => d.pushOr
  | .group j body => d.pushGroup j (Criterion.addAll .empty body)
  | .when none _ => d.fail .missingTest
  | .when (some _) none => d.fail .missingBody
  | .when (some test) (some body) =>
    if test then d.pushGroup .all (Criterion.addAll .empty body) else d
  | .subquery text body => d.pushSubquery text (Clause.addAll .empty body).finish
  | .search field s => d.pushSearch field s
  | .distance field bound => d.pushDistance field bound
  | .extension key j => d.pushExtension key j

/-- A condition tree after some more criteria. -/
def Criterion.addAll (d : Draft) : List Criterion → Draft
  | [] => d
  | c :: cs => Criterion.addAll (Criterion.add d c) cs

/-- The constraint that a rule declares, or the misuse in it. -/
def JoinRule.constraint : JoinRule → Except Misuse (Option Constraint)
  | .on body => (Criterion.addAll .empty body).finish.map fun nodes => some (.condition nodes)
  | .columns names => .ok (some (.columns names))
  | .none => .ok none

/-- A query after one more clause. -/
def Clause.add (d : QueryDraft) : Clause → QueryDraft
  | .criterion c => { d with conditions := Criterion.add d.conditions c }
  | .select columns => d.select columns
  | .column name => d.addColumn name
  | .aggregate a => d.addAggregate a
  | .distinct => d.mapOutline fun o => { o with distinct := true }
  | .source spec => d.addTable spec
  | .nested nickname body =>
    d.withBuilt (Clause.addAll .empty body).finish fun d q => d.addSource (.ofQuery q nickname)
  | .join j spec rule => d.joinTable j spec rule.constraint
  | .joinNested j nickname body rule =>
    d.joinQuery j nickname (Clause.addAll .empty body).finish rule.constraint
  | .groupBy columns => d.addGroups columns
  | .having body => { d with having := Criterion.addAll d.having body }
  | .sort key => d.addSort key
  | .limit n => d.mapOutline fun o => { o with limit := QueryDraft.nonZero n }
  | .offset n => d.mapOutline fun o => { o with offset := QueryDraft.nonZero n }
  | .paged p => d.mapOutline fun o => { o with page := some p }
  | .page n => d.mapPage fun p => { p with declared := n }
  | .rows n => d.mapPage fun p => { p with rows := n }
  | .last v => d.setLast v
  | .cte name recursive body => d.addCte name recursive (Clause.addAll .empty body).finish
  | .union keepsDuplicates body => d.addUnion keepsDuplicates (Clause.addAll .empty body).finish
  | .metadata m => d.mapOutline fun o => { o with metadata := m }

/-- A query after some more clauses. -/
def Clause.addAll (d : QueryDraft) : List Clause → QueryDraft
  | [] => d
  | c :: cs => Clause.addAll (Clause.add d c) cs

end

/-- The nodes that some criteria describe, or the first misuse in them. -/
def Node.build (criteria : List Criterion) : Except Misuse (List Node) :=
  (Criterion.addAll .empty criteria).finish

/-- The query that a description describes, or the first misuse in it. -/
def Query.build (clauses : List Clause) : Except Misuse Query :=
  (Clause.addAll .empty clauses).finish

end QueryTree
