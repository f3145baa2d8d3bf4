import QueryTree.Proofs.Build.Effect

/-!
# Changes by clauses

What a clause does to a query in the making depends on the draft in one point only: whether a source
has been declared.  It changes the flat parts, adds one part, or is found to be misused.

* `Change`, `QueryDraft.apply` — what a clause can do.
* `Clause.change` — what it does.
* `Clause.add_eq_apply` — and that is all it does.
-/

namespace QueryTree

/-- What a clause does to a query in the making. -/
inductive Change where
  /-- The flat parts change. -/
  | outline (f : Outline → Outline)
  | source (s : Source)
  | criterion (c : Criterion)
  | having (body : List Criterion)
  | cte (c : Cte)
  | union (u : UnionMember)
  | misuse (cause : Misuse)

namespace Change

/-- Uses what was built, or tells why it was not. -/
def ofBuilt {α : Type} (built : Except Misuse α) (use : α → Change) : Change :=
  match built with
  | .ok a => use a
  | .error cause => misuse cause

/-- The sources that a change adds. -/
def sources : Change → List Source
  | source s => [s]
  | _ => []

/-- The flat parts after a change. -/
def outlineAfter (o : Outline) : Change → Outline
  | outline f => f o
  | _ => o

theorem sources_ofBuilt {α : Type} (built : Except Misuse α) {use : α → Change}
    (h : ∀ a, (use a).sources = []) : (ofBuilt built use).sources = [] := by
  cases built with
  | ok a => exact h a
  | error cause => rfl

theorem outlineAfter_ofBuilt {α : Type} (o : Outline) (built : Except Misuse α) {use : α → Change}
    (h : ∀ a, (use a).outlineAfter o = o) : (ofBuilt built use).outlineAfter o = o := by
  cases built with
  | ok a => exact h a
  | error cause => rfl

end Change

/-! ### Drafts -/

namespace QueryDraft

/-- The draft after a change. -/
def apply (d : QueryDraft) : Change → QueryDraft
  | .outline f => d.mapOutline f
  | .source s => d.addSource s
  | .criterion c => { d with conditions := Criterion.add d.conditions c }
  | .having body => { d with having := Criterion.addAll d.having body }
  | .cte c => { d with ctes := d.ctes ++ [c] }
  | .union u => { d with unions := d.unions ++ [u] }
  | .misuse cause => d.fail cause

theorem sources_apply (d : QueryDraft) (x : Change) :
    (d.apply x).sources = d.sources ++ x.sources := by
  cases x with
  | source s => rfl
  | _ => exact (List.append_nil _).symm

theorem outline_apply (d : QueryDraft) (x : Change) :
    (d.apply x).outline = x.outlineAfter d.outline := by
  cases x <;> rfl

theorem finish_eq_ok_iff {d : QueryDraft} {q : Query} :
    d.finish = .ok q ↔ d.misuse = none ∧ d.conditions.misuse = none ∧ d.having.misuse = none ∧
      lacksOrder d.outline = false ∧
      q = eliminate ⟨d.outline, d.sources, d.conditions.nodes, d.having.nodes, d.ctes,
        d.unions⟩ := by
  obtain ⟨outline, sources, ⟨conditions, cause⟩, ⟨having, cause'⟩, ctes, unions, misuse⟩ := d
  -- a misuse can be kept in three places, which are asked one after the other
  cases misuse with
  | some cause => simp [finish]
  | none =>
    cases cause with
    | some cause => simp [finish, Draft.finish, Except.bind]
    | none =>
      cases cause' with
      | some cause => simp [finish, Draft.finish, Except.bind]
      | none =>
        cases h : lacksOrder outline <;> simp [finish, Draft.finish, Except.bind, h, eq_comm]

end QueryDraft

/-! ### Clauses -/

/-- The flat parts after a clause, unless it is misused. -/
def Clause.outline (o : Outline) : Clause → Outline
  | .select columns => { o with results := columns.filter fun c => !Text.isBlank c }
  | .column name => if Text.isBlank name then o else { o with results := o.results ++ [name] }
  | .aggregate a => { o with aggregates := o.aggregates ++ [a] }
  | .distinct => { o with distinct := true }
  | .groupBy columns => { o with groupBy := o.groupBy ++ columns.filter fun c => !c.isEmpty }
  | .sort key => if key.field.isEmpty then o else { o with sorts := o.sorts ++ [key] }
  | .limit n => { o with limit := QueryDraft.nonZero n }
  | .offset n => { o with offset := QueryDraft.nonZero n }
  | .paged p => { o with page := some p }
  | .page n => { o with page := some { o.page.getD (.new 0 0) with declared := n } }
  | .rows n => { o with page := some { o.page.getD (.new 0 0) with rows := n } }
  | .last v =>
    match v.asScalar with
    | .present w => { o with page := some { o.page.getD (.new 0 0) with last := some w } }
    | _ => o
  | .metadata m => { o with metadata := m }
  | _ => o

/-- What a clause does; `started` tells whether a source has been declared. -/
def Clause.change (started : Bool) : Clause → Change
  | .criterion c => .criterion c
  | .having body => .having body
  | .source spec =>
    .ofBuilt (if started then (Source.parse spec).joined .comma none else .ok (.parse spec))
      .source
  | .nested nickname body => .ofBuilt (Query.build body) fun q => .source (.ofQuery q nickname)
  | .join j spec rule =>
    if started then
      .ofBuilt (rule.constraint.bind fun c => (Source.parse spec).joined j c) .source
    else .misuse (.joinBeforeSource j spec)
  | .joinNested j nickname body rule =>
    if started then
      .ofBuilt ((Query.build body).bind fun q => rule.constraint.bind fun c =>
        (Source.ofQuery q nickname).joined j c) .source
    else .misuse .nestedJoinBeforeSource
  | .cte name recursive body =>
    if Text.isBlank name then .misuse .unnamedCte
    else .ofBuilt (Query.build body) fun q => .cte ⟨name, recursive, q⟩
  | .union keepsDuplicates body =>
    .ofBuilt (Query.build body) fun q => .union ⟨keepsDuplicates, q⟩
  | .last v =>
    match v.asScalar with
    | .invalid why => .misuse (.unusableCursor why)
    | _ => .outline fun o => Clause.outline o (.last v)
  | c => .outline fun o => Clause.outline o c

namespace QueryDraft

variable (d : QueryDraft)

theorem addJoined_eq_apply (joined : Except Misuse Source) :
    d.addJoined joined = d.apply (.ofBuilt joined .source) := by
  cases joined <;> rfl

theorem addTable_eq_apply (spec : String) :
    d.addTable spec = d.apply (Clause.change (!d.sources.isEmpty) (.source spec)) := by
  unfold addTable
  cases h : d.sources.isEmpty with
  | true => rfl
  | false => exact d.addJoined_eq_apply _

theorem joinTable_eq_apply (j : Join) (spec : String) (rule : JoinRule) :
    d.joinTable j spec rule.constraint =
      d.apply (Clause.change (!d.sources.isEmpty) (.join j spec rule)) := by
  unfold joinTable
  cases h : d.sources.isEmpty with
  | true => rfl
  | false => exact d.addJoined_eq_apply _

theorem joinQuery_eq_apply (j : Join) (nickname : String) (body : List Clause)
    (rule : JoinRule) :
    d.joinQuery j nickname (Clause.addAll .empty body).finish rule.constraint =
      d.apply (Clause.change (!d.sources.isEmpty) (.joinNested j nickname body rule)) := by
  unfold joinQuery
  cases h : d.sources.isEmpty with
  | true => rfl
  | false => exact d.addJoined_eq_apply _

theorem setLast_eq_apply (v : Value) (started : Bool) :
    d.setLast v = d.apply (Clause.change started (.last v)) := by
  unfold setLast
  cases h : v.asScalar with
  | present w => simp [Clause.change, Clause.outline, h, apply, mapPage, mapOutline]
  | absent => simp [Clause.change, Clause.outline, h, apply, mapOutline]
  | invalid why => simp [Clause.change, h, apply]

end QueryDraft

/-- **A clause does the same to every draft that has a source, and to every draft that has
none.** -/
theorem Clause.add_eq_apply (d : QueryDraft) (c : Clause) :
    Clause.add d c = d.apply (c.change (!d.sources.isEmpty)) := by
  cases c with
  | source spec => exact d.addTable_eq_apply spec
  | nested nickname body =>
    rw [add, change, Query.build]
    cases (addAll .empty body).finish <;> rfl
  | join j spec rule => exact d.joinTable_eq_apply j spec rule
  | joinNested j nickname body rule => exact d.joinQuery_eq_apply j nickname body rule
  -- a blank name changes nothing, on both sides
  | column name =>
    rw [add, QueryDraft.addColumn]
    split <;> simp [change, outline, QueryDraft.apply, QueryDraft.mapOutline, *]
  | sort key =>
    rw [add, QueryDraft.addSort]
    split <;> simp [change, outline, QueryDraft.apply, QueryDraft.mapOutline, *]
  | last v => exact d.setLast_eq_apply v _
  | cte name recursive body =>
    rw [add, change, QueryDraft.addCte, Query.build]
    split
    · rfl
    · cases (addAll .empty body).finish <;> rfl
  | union keepsDuplicates body =>
    rw [add, change, QueryDraft.addUnion, Query.build]
    cases (addAll .empty body).finish <;> rfl
  | _ => rfl

theorem Clause.outline_add (d : QueryDraft) (c : Clause) :
    (Clause.add d c).outline = c.outline d.outline := by
  rw [add_eq_apply, QueryDraft.outline_apply]
  cases c with
  | source spec => exact Change.outlineAfter_ofBuilt _ _ fun _ => rfl
  | nested nickname body => exact Change.outlineAfter_ofBuilt _ _ fun _ => rfl
  | join j spec rule =>
    rw [change]
    split
    · exact Change.outlineAfter_ofBuilt _ _ fun _ => rfl
    · rfl
  | joinNested j nickname body rule =>
    rw [change]
    split
    · exact Change.outlineAfter_ofBuilt _ _ fun _ => rfl
    · rfl
  | cte name recursive body =>
    rw [change]
    split
    · rfl
    · exact Change.outlineAfter_ofBuilt _ _ fun _ => rfl
  | union keepsDuplicates body => exact Change.outlineAfter_ofBuilt _ _ fun _ => rfl
  | last v =>
    rw [change, outline]
    cases h : v.asScalar <;> simp [Change.outlineAfter, outline, h]
  | _ => rfl

end QueryTree
