import QueryTree.Proofs.Build.Calls
import QueryTree.Proofs.Build.Change
import QueryTree.Proofs.Condition.Invariant

/-!
# Misuse and failure

A query is built unless one of the calls that describe it is a misuse.  Each builder keeps its own
misuses, and what is nested fails by itself, so a failure has to pass from draft to draft: from a
group to the tree around it, from a rule to its join, from a nested query to the query around it.

* `Draft.failed_apply`, `QueryDraft.failed_apply` — what makes a draft fail, step by step.
* `JoinRule.isOk_joined` — when a join gets the constraint that it needs.
* `Clause.failed_addAll` — a draft fails if one of the calls that it takes in is a misuse.
* `Query.build_fails_iff` — so does a build, and only then.
-/

namespace QueryTree

/-! ### Steps -/

namespace Draft

theorem isOk_finish (d : Draft) : d.finish.isOk = !d.failed := by
  unfold finish failed
  cases d.misuse <;> rfl

theorem failed_apply (d : Draft) (e : Effect) :
    (d.apply e).failed = (d.failed || e.misuse?.isSome) := by
  rw [failed, misuse_apply, Option.isSome_or, failed]

theorem failed_addAll (d : Draft) (cs : List Criterion) :
    (Criterion.addAll d cs).failed = (d.failed || cs.any fun c => c.effect.misuse?.isSome) := by
  rw [failed, Criterion.misuse_addAll, Option.isSome_or, List.isSome_findSome?, failed]

end Draft

theorem Node.isOk_build (body : List Criterion) :
    (Node.build body).isOk = !body.any fun c => c.effect.misuse?.isSome := by
  rw [build, Draft.isOk_finish, Draft.failed_addAll]
  rfl

theorem Effect.isSome_misuse?_ofNormalized (use : Value → Node) (cause : Rejection → Misuse)
    (v : Normalized) : (ofNormalized use cause v).misuse?.isSome = v.isInvalid := by
  cases v <;> rfl

theorem Effect.isSome_misuse?_ofQuery (text : String) (built : Except Misuse Query) :
    (ofQuery text built).misuse?.isSome = !built.isOk := by
  cases built <;> rfl

theorem Effect.isSome_misuse?_ofGroup (j : Junction) (built : Except Misuse (List Node)) :
    (ofGroup j built).misuse?.isSome = !built.isOk := by
  cases built with
  | error cause => rfl
  | ok subs =>
    rw [ofGroup]
    split <;> rfl

/-- Whether a change is a failure of a draft, outside its conditions or in them. -/
def Change.fails : Change → Bool
  | criterion c => c.effect.misuse?.isSome
  | having body => body.any fun c => c.effect.misuse?.isSome
  | misuse _ => true
  | _ => false

theorem Change.fails_ofBuilt {α : Type} (built : Except Misuse α) {use : α → Change}
    (h : ∀ a, (use a).fails = false) : (ofBuilt built use).fails = !built.isOk := by
  cases built with
  | ok a => exact h a
  | error cause => rfl

namespace QueryDraft

/-- Whether something was misused, outside the conditions or in them. -/
def failed (d : QueryDraft) : Bool := d.misuse.isSome || d.conditions.failed || d.having.failed

theorem failed_apply (d : QueryDraft) (x : Change) :
    (d.apply x).failed = (d.failed || x.fails) := by
  cases x with
  | criterion c =>
    simp only [apply, failed, Change.fails, Criterion.add_eq_apply, Draft.failed_apply,
      Bool.or_assoc, Bool.or_comm, Bool.or_left_comm]
  | having body =>
    simp only [apply, failed, Change.fails, Draft.failed_addAll, Bool.or_assoc]
  | misuse cause => simp [apply, failed, fail, Change.fails]
  | _ => simp [apply, failed, mapOutline, addSource, Change.fails]

theorem isOk_finish (d : QueryDraft) : d.finish.isOk = !(d.failed || lacksOrder d.outline) := by
  have h : d.finish.isOk = true ↔ ∃ q, d.finish = .ok q := by
    cases d.finish <;> simp [Except.isOk, Except.toBool]
  rw [Bool.eq_iff_iff, h]
  simp [finish_eq_ok_iff, failed, Draft.failed, and_assoc]

end QueryDraft

/-! ### Joins -/

namespace JoinRule

theorem isOk_on (body : List Criterion) :
    (on body).constraint.isOk = !body.any fun c => c.effect.misuse?.isSome := by
  rw [← Node.isOk_build, constraint, Node.build]
  cases (Criterion.addAll .empty body).finish <;> rfl

/-- A declared level holds more than connectives if not all its nodes are bare "or"s. -/
theorem hasContent_eq {ns : List Node} (h : ∀ n ∈ ns, n.Declared) :
    Node.hasContent ns = !ns.all fun n => n.op == .orMark := by
  induction ns with
  | nil => rfl
  | cons n ns ih =>
    obtain ⟨hn, hns⟩ := List.forall_mem_cons.1 h
    -- on a declared level the bare "or" is the only connective
    have hc : n.isConnective = (n.op == .orMark) := by
      cases ho : n.op == .orMark with
      | true => rw [hn.eq_orMark (by simpa using ho)]; rfl
      | false => rw [Node.isConnective, ho]; rfl
    have ih := ih hns
    rw [Node.hasContent] at ih ⊢
    rw [List.any_cons, List.all_cons, ih, hc, Bool.not_and]

/-- A rule constrains nothing if its constraint has no effect. -/
theorem isNone_effective {rule : JoinRule} {c : Option Constraint} (h : rule.constraint = .ok c) :
    (c.bind Constraint.effective?).isNone = rule.isIneffective := by
  cases rule with
  | on body =>
    rw [constraint] at h
    cases hb : (Criterion.addAll .empty body).finish with
    | error cause =>
      rw [hb] at h
      cases h
    | ok nodes =>
      rw [hb] at h
      cases h
      obtain ⟨-, rfl⟩ := Draft.finish_eq_ok_iff.1 hb
      have hc := hasContent_eq (Criterion.declared_addAll Draft.all_empty body)
      simp only [isIneffective, Node.build, hb, Option.bind_some, Constraint.effective?, hc]
      cases (Criterion.addAll .empty body).nodes.all fun n => n.op == .orMark <;> rfl
  | columns names =>
    cases h
    rw [isIneffective, Option.bind_some, Constraint.effective?, ← List.not_all_eq_any_not]
    cases names.all Text.isBlank <;> rfl
  | none =>
    cases h
    rfl

end JoinRule

theorem Source.isOk_joined (s : Source) (j : Join) (c : Option Constraint) :
    (s.joined j c).isOk = !(j.needsConstraint && (c.bind Constraint.effective?).isNone) := by
  simp only [joined]
  cases j.needsConstraint && (c.bind Constraint.effective?).isNone <;> rfl

theorem JoinRule.isOk_joined (rule : JoinRule) (s : Source) (j : Join) :
    (rule.constraint.bind fun c => s.joined j c).isOk =
      (rule.constraint.isOk && !(j.needsConstraint && rule.isIneffective)) := by
  cases h : rule.constraint with
  | error cause => rfl
  | ok c =>
    rw [Except.bind, s.isOk_joined, rule.isNone_effective h]
    rfl

theorem JoinRule.isOk_joinedQuery (rule : JoinRule) (built : Except Misuse Query)
    (nickname : String) (j : Join) :
    (built.bind fun q => rule.constraint.bind fun c =>
      (Source.ofQuery q nickname).joined j c).isOk =
      (built.isOk && (rule.constraint.isOk && !(j.needsConstraint && rule.isIneffective))) := by
  cases built with
  | error cause => rfl
  | ok q => exact rule.isOk_joined (.ofQuery q nickname) j

/-! ### Calls -/

/-- Unless it fails, a first clause gives a query a source if it is one that starts the sources. -/
theorem Clause.isEmpty_sources_change {c : Clause} (h : (c.change false).fails = false) :
    (c.change false).sources.isEmpty = !c.startsSources := by
  cases c with
  | nested nickname body =>
    rw [change] at h ⊢
    cases hb : Query.build body with
    | ok q => rfl
    | error cause =>
      rw [hb] at h
      cases h
  | cte name recursive body =>
    rw [change]
    split
    · rfl
    · rw [Change.sources_ofBuilt _ fun _ => rfl]
      rfl
  | union keepsDuplicates body =>
    rw [change, Change.sources_ofBuilt _ fun _ => rfl]
    rfl
  | last v =>
    rw [change]
    cases v.asScalar <;> rfl
  -- without a source before it, a join fails
  | join j spec rule => cases h
  | joinNested j nickname body rule => cases h
  | _ => rfl

/-- What decides whether a clause can be a join is known from the clauses before it, as long as none
of them fails. -/
theorem Clause.isEmpty_sources_apply {d : QueryDraft} {started : Bool} {c : Clause}
    (h : d.sources.isEmpty = !started) (hc : (c.change started).fails = false) :
    (d.apply (c.change started)).sources.isEmpty = !(started || c.startsSources) := by
  rw [QueryDraft.sources_apply]
  cases started with
  | true =>
    cases hd : d.sources with
    -- the query has a source already, so this cannot be
    | nil =>
      rw [hd] at h
      cases h
    | cons s ss => rfl
  | false =>
    rw [List.isEmpty_iff.1 h]
    exact Clause.isEmpty_sources_change hc

/-! ### The end of a description -/

namespace Clause

theorem page_outline (o : Outline) (c : Clause) : (c.outline o).page = pageAfter o.page c := by
  cases c with
  | column name =>
    rw [outline]
    split <;> rfl
  | sort key =>
    rw [outline]
    split <;> rfl
  | last v =>
    rw [outline, pageAfter]
    cases v.asScalar <;> rfl
  | _ => rfl

theorem isEmpty_sorts_outline (o : Outline) (c : Clause) :
    (c.outline o).sorts.isEmpty = (o.sorts.isEmpty && !c.givesOrder) := by
  cases c with
  | column name =>
    rw [outline]
    split <;> exact (Bool.and_true _).symm
  | sort key =>
    rw [outline, givesOrder, Bool.not_not]
    cases key.field.isEmpty <;> simp
  | last v =>
    rw [outline]
    cases v.asScalar <;> exact (Bool.and_true _).symm
  | _ => exact (Bool.and_true _).symm

theorem page_addAll (d : QueryDraft) (cs : List Clause) :
    (addAll d cs).outline.page = cs.foldl pageAfter d.outline.page := by
  induction cs generalizing d with
  | nil => rw [addAll, List.foldl_nil]
  | cons c cs ih => rw [addAll, ih, outline_add, page_outline, List.foldl_cons]

theorem isEmpty_sorts_addAll (d : QueryDraft) (cs : List Clause) :
    (addAll d cs).outline.sorts.isEmpty = (d.outline.sorts.isEmpty && !cs.any givesOrder) := by
  induction cs generalizing d with
  | nil => rw [addAll, List.any_nil, Bool.not_false, Bool.and_true]
  | cons c cs ih =>
    rw [addAll, ih, outline_add, isEmpty_sorts_outline, List.any_cons, Bool.not_or, Bool.and_assoc]

theorem lacksOrder_addAll (body : List Clause) :
    QueryDraft.lacksOrder (addAll .empty body).outline = endsWithoutOrder body := by
  rw [QueryDraft.lacksOrder, Outline.activePage, page_addAll, isEmpty_sorts_addAll,
    Option.any_filter, endsWithoutOrder]
  rfl

end Clause

/-- A query is built if its draft does not fail and its description does not end in a misuse.  What
is known of the draft stays a hypothesis: for a nested query it comes from the induction below. -/
theorem Query.isOk_build_of {body : List Clause}
    (h : (Clause.addAll .empty body).failed =
      (false || (Clause.callsAll false body).any Call.isMisuse)) :
    (Query.build body).isOk = !(Query.calls body).any Call.isMisuse := by
  rw [build, QueryDraft.isOk_finish, h, Clause.lacksOrder_addAll, calls, List.any_append,
    List.any_cons, List.any_nil, Bool.or_false, Bool.false_or, Call.isMisuse]

/-! ### Misuses and failures -/

namespace Criterion

theorem isSome_misuse?_inRequired (key : String) (v : Value) :
    (inRequired key v).effect.misuse?.isSome = (inRequired key v).isMisuse := by
  rw [effect, isMisuse]
  cases v.asMembers <;> rfl

theorem isSome_misuse?_search (field : String) (s : Search) :
    (search field s).effect.misuse?.isSome = (search field s).isMisuse := by
  rw [effect, isMisuse]
  cases s.vector.isEmpty with
  | true => rfl
  | false => by_cases h : s.limit = 0 <;> simp [h, Effect.misuse?]

end Criterion

theorem Clause.fails_last (started : Bool) (v : Value) :
    ((last v).change started).fails = (last v).isMisuse started := by
  rw [change, isMisuse]
  cases v.asScalar <;> rfl

mutual

theorem Criterion.isSome_misuse?_effect :
    (c : Criterion) → c.effect.misuse?.isSome = c.calls.any Call.isMisuse
  | .compare c key v =>
    (Effect.isSome_misuse?_ofNormalized _ _ v.asScalar).trans (Bool.or_false _).symm
  | .eqBool key b => rfl
  | .pattern p key v =>
    (Effect.isSome_misuse?_ofNormalized _ _ v.asPattern).trans (Bool.or_false _).symm
  | .member m key v =>
    (Effect.isSome_misuse?_ofNormalized _ _ v.asMembers).trans (Bool.or_false _).symm
  | .inRequired key v => (Criterion.isSome_misuse?_inRequired key v).trans (Bool.or_false _).symm
  | .null t key => rfl
  | .raw text args => by
    rw [Criterion.effect]
    split <;> rfl
  | .or => rfl
  | .group j body => by
    rw [Criterion.effect, Effect.isSome_misuse?_ofGroup, Node.isOk_build,
      Criterion.any_effects body, Bool.not_not]
    rfl
  | .when none body => by cases body <;> rfl
  | .when (some test) none => by cases test <;> rfl
  | .when (some false) (some body) => rfl
  | .when (some true) (some body) => by
    rw [Criterion.effect, if_pos rfl, Effect.isSome_misuse?_ofGroup, Node.isOk_build,
      Criterion.any_effects body, Bool.not_not]
    rfl
  | .subquery text body => by
    rw [Criterion.effect, Criterion.calls, List.any_cons, Call.isMisuse, Criterion.isMisuse]
    -- the nested query begins anew, from an empty draft without a source
    have hb := Query.isOk_build_of (Clause.failed_addAll false body .empty fun _ => rfl)
    cases Text.isBlank text with
    | true => rfl
    | false =>
      rw [if_neg Bool.false_ne_true, if_neg Bool.false_ne_true, Effect.isSome_misuse?_ofQuery, hb,
        Bool.not_not, Bool.false_or]
      rfl
  | .search field s => (Criterion.isSome_misuse?_search field s).trans (Bool.or_false _).symm
  | .distance field bound => by
    rw [Criterion.effect]
    split <;> rfl
  | .extension key j => by
    rw [Criterion.effect]
    split <;> rfl

theorem Criterion.any_effects :
    (cs : List Criterion) →
      (cs.any fun c => c.effect.misuse?.isSome) = (Criterion.callsAll cs).any Call.isMisuse
  | [] => rfl
  | c :: cs => by
    rw [List.any_cons, Criterion.isSome_misuse?_effect c, Criterion.any_effects cs,
      Criterion.callsAll, List.any_append]

theorem JoinRule.isOk_constraint :
    (rule : JoinRule) → rule.constraint.isOk = !rule.calls.any Call.isMisuse
  | .on body => by
    rw [JoinRule.isOk_on, Criterion.any_effects body]
    rfl
  | .columns names => rfl
  | .none => rfl

theorem Clause.fails_change (started : Bool) :
    (c : Clause) → (c.change started).fails = (c.calls started).any Call.isMisuse
  | .criterion c => Criterion.isSome_misuse?_effect c
  | .select _ | .column _ | .aggregate _ | .distinct | .groupBy _ | .sort _ | .limit _ | .offset _
  | .paged _ | .page _ | .rows _ | .metadata _ => rfl
  | .source spec => by cases started <;> rfl
  | .nested nickname body => by
    have hb := Query.isOk_build_of (Clause.failed_addAll false body .empty fun _ => rfl)
    rw [Clause.change, Change.fails_ofBuilt _ fun _ => rfl, hb, Bool.not_not]
    rfl
  | .join j spec rule => by
    rw [Clause.calls, List.any_append, List.any_cons, List.any_nil, Call.isMisuse,
      Clause.isMisuse, Bool.or_false]
    cases started with
    | false => exact (Bool.or_true _).symm
    | true =>
      rw [Clause.change, if_pos rfl, Change.fails_ofBuilt _ fun _ => rfl, rule.isOk_joined,
        JoinRule.isOk_constraint rule, Bool.not_and, Bool.not_not, Bool.not_not]
      rfl
  | .joinNested j nickname body rule => by
    have hb := Query.isOk_build_of (Clause.failed_addAll false body .empty fun _ => rfl)
    rw [Clause.calls, List.any_append, List.any_cons, Call.isMisuse, Clause.isMisuse]
    cases started with
    | false => exact (Bool.or_true _).symm
    | true =>
      -- the body is built before the rule is judged, but the rule is called before the body
      rw [Clause.change, if_pos rfl, Change.fails_ofBuilt _ fun _ => rfl, rule.isOk_joinedQuery,
        JoinRule.isOk_constraint rule, hb, if_pos rfl, Query.calls]
      generalize (j.needsConstraint && rule.isIneffective) = bare
      simp only [Bool.not_and, Bool.not_not, Bool.not_true, Bool.false_or]
      rw [Bool.or_left_comm, Bool.or_comm _ bare]
  | .having body => (Criterion.any_effects body).trans (Bool.false_or _).symm
  | .last v => (Clause.fails_last started v).trans (Bool.or_false _).symm
  | .cte name recursive body => by
    have hb := Query.isOk_build_of (Clause.failed_addAll false body .empty fun _ => rfl)
    rw [Clause.change, Clause.calls, List.any_cons, Call.isMisuse, Clause.isMisuse]
    cases Text.isBlank name with
    | true => rfl
    | false =>
      rw [if_neg Bool.false_ne_true, if_neg Bool.false_ne_true,
        Change.fails_ofBuilt _ fun _ => rfl, hb, Bool.not_not, Bool.false_or]
      rfl
  | .union keepsDuplicates body => by
    have hb := Query.isOk_build_of (Clause.failed_addAll false body .empty fun _ => rfl)
    rw [Clause.change, Change.fails_ofBuilt _ fun _ => rfl, hb, Bool.not_not]
    rfl

/-- A draft fails if one of the calls that it takes in is a misuse.  Once it has failed it need not
know whether it has a source: a source that could not be built is missing from it, and the joins
behind that source are still judged as if it were there. -/
theorem Clause.failed_addAll (started : Bool) :
    (cs : List Clause) → (d : QueryDraft) → (d.failed = false → d.sources.isEmpty = !started) →
      (Clause.addAll d cs).failed =
        (d.failed || (Clause.callsAll started cs).any Call.isMisuse)
  | [], d, _ => by rw [Clause.addAll, Clause.callsAll, List.any_nil, Bool.or_false]
  | c :: cs, d, h => by
    -- a draft that has failed stays failed, so the clause is judged only on one that has not
    have hc : (Clause.add d c).failed = (d.failed || (c.calls started).any Call.isMisuse) := by
      rw [Clause.add_eq_apply, QueryDraft.failed_apply]
      cases hd : d.failed with
      | true => rfl
      | false => rw [h hd, Bool.not_not, Clause.fails_change started c]
    -- the invariant that carries the induction: what is known of the sources stays true
    have hs : (Clause.add d c).failed = false →
        (Clause.add d c).sources.isEmpty = !(started || c.startsSources) := by
      intro hf
      obtain ⟨hd, hm⟩ := Bool.or_eq_false_iff.1 (hc ▸ hf)
      rw [Clause.add_eq_apply, h hd, Bool.not_not]
      exact Clause.isEmpty_sources_apply (h hd) (Clause.fails_change started c ▸ hm)
    rw [Clause.addAll, Clause.failed_addAll (started || c.startsSources) cs _ hs, hc,
      Clause.callsAll, List.any_append, Bool.or_assoc]

end

/-- **A query is built exactly when nothing in it was misused.**  The error that a build ends with
is a misuse by its type; a call behind a misuse is judged like any other. -/
theorem Query.build_fails_iff (clauses : List Clause) :
    (∃ cause, Query.build clauses = .error cause) ↔
      ∃ call ∈ Query.calls clauses, call.isMisuse = true := by
  have h := Query.isOk_build_of (Clause.failed_addAll false clauses .empty fun _ => rfl)
  rw [← List.any_eq_true]
  constructor
  · rintro ⟨cause, hc⟩
    rw [hc] at h
    exact (Bool.not_eq_false' _).mp h.symm
  · intro hm
    rw [hm] at h
    cases hb : Query.build clauses with
    | error cause => exact ⟨cause, rfl⟩
    | ok q =>
      rw [hb] at h
      cases h

end QueryTree
