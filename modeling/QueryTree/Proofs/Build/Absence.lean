import QueryTree.Mutation
import QueryTree.Proofs.Build.Calls
import QueryTree.Proofs.Build.Change

/-!
# Absent inputs

A call with an input that is not set adds nothing, and neither does a group of such calls.  A
description from which they are erased, from the inside out, describes the same.

* `Criterion.isTraceless`, `Clause.isTraceless`, `Write.isTraceless` — the calls that add nothing.
* `Criterion.erase`, `Clause.erase`, `Write.erase`, `Update.Clause.erase` — descriptions without
  them, at any depth.
* `Criterion.effect_of_isTraceless` — such a criterion has no effect.
* `Criterion.addAll_erase`, `Clause.addAll_erase` — every draft goes on as before.
* `build_erase` — what is built, or the misuse that is reported, is the same.
-/

namespace QueryTree

/-! ### Calls that add nothing -/

/-- There was no value. -/
def Normalized.isAbsent : Normalized → Bool
  | .absent => true
  | _ => false

/-- A bare "or". -/
def Criterion.isOr : Criterion → Bool
  | .or => true
  | _ => false

/-- A criterion with an absent value, a blank text, an empty vector, or an extension without key or
value, or a group of nothing but bare "or"s. -/
def Criterion.isTraceless : Criterion → Bool
  | .compare _ _ v => v.asScalar.isAbsent
  | .pattern _ _ v => v.asPattern.isAbsent
  | .member _ _ v => v.asMembers.isAbsent
  | .raw text _ => Text.isBlank text
  | .search _ s => s.vector.isEmpty
  | .distance _ bound => bound.vector.isEmpty
  | .extension key j => key.isEmpty || j.isNull
  | .group _ body => body.all isOr
  | .when (some true) (some body) => body.all isOr
  | _ => false

/-- A traceless criterion, or a last value that is absent. -/
def Clause.isTraceless : Clause → Bool
  | .criterion c => c.isTraceless
  | .last v => v.asScalar.isAbsent
  | _ => false

/-- An assignment of an absent value. -/
def Write.isTraceless : Write → Bool
  | .set _ v => v.asAssignment.isAbsent
  | _ => false

/-! ### Erasure -/

mutual

/-- A criterion with everything traceless erased from what it nests. -/
def Criterion.trimmed : Criterion → Criterion
  | .group j body => .group j (Criterion.erase body)
  | .when test (some body) => .when test (some (Criterion.erase body))
  | .subquery text body => .subquery text (Clause.erase body)
  | c => c

/-- Criteria without those that are traceless, or become so. -/
def Criterion.erase : List Criterion → List Criterion
  | [] => []
  | c :: cs =>
    if c.trimmed.isTraceless then Criterion.erase cs else c.trimmed :: Criterion.erase cs

/-- The rule of a join with everything traceless erased from its condition. -/
def JoinRule.trimmed : JoinRule → JoinRule
  | .on body => .on (Criterion.erase body)
  | rule => rule

/-- A clause with everything traceless erased from what it nests. -/
def Clause.trimmed : Clause → Clause
  | .criterion c => .criterion c.trimmed
  | .nested nickname body => .nested nickname (Clause.erase body)
  | .join j spec rule => .join j spec rule.trimmed
  | .joinNested j nickname body rule => .joinNested j nickname (Clause.erase body) rule.trimmed
  | .having body => .having (Criterion.erase body)
  | .cte name recursive body => .cte name recursive (Clause.erase body)
  | .union keepsDuplicates body => .union keepsDuplicates (Clause.erase body)
  | c => c

/-- Clauses without those that are traceless, or become so. -/
def Clause.erase : List Clause → List Clause
  | [] => []
  | c :: cs => if c.trimmed.isTraceless then Clause.erase cs else c.trimmed :: Clause.erase cs

end

/-- Assignments without those of absent values. -/
def Write.erase (writes : List Write) : List Write := writes.filter fun w => !w.isTraceless

namespace Update.Clause

/-- A clause of an update with everything traceless erased from what it nests. -/
def trimmed : Update.Clause → Update.Clause
  | .write w => .write w
  | .criterion c => .criterion c.trimmed

/-- A traceless criterion or assignment. -/
def isTraceless : Update.Clause → Bool
  | .write w => w.isTraceless
  | .criterion c => c.isTraceless

/-- The clauses of an update without those that are traceless, or become so. -/
def erase (clauses : List Update.Clause) : List Update.Clause :=
  (clauses.map trimmed).filter fun c => !c.isTraceless

end Update.Clause

/-! ### No trace -/

theorem Effect.ofNormalized_of_isAbsent {use : Value → Node} {cause : Rejection → Misuse}
    {v : Normalized} (h : v.isAbsent = true) : ofNormalized use cause v = nothing := by
  cases v with
  | absent => rfl
  | present v => cases h
  | invalid why => cases h

namespace Criterion

theorem build_of_all_isOr {body : List Criterion} (h : body.all isOr = true) :
    Node.build body = .ok [] := by
  have hd : addAll .empty body = .empty := by
    induction body with
    | nil => rfl
    | cons c body ih =>
      rw [List.all_cons, Bool.and_eq_true] at h
      cases c with
      | or => exact ih h.2
      | _ => cases h.1
  rw [Node.build, hd]
  rfl

/-- **A traceless criterion has no effect.** -/
theorem effect_of_isTraceless {c : Criterion} (h : c.isTraceless = true) : c.effect = .nothing := by
  cases c with
  | compare c key v => exact Effect.ofNormalized_of_isAbsent h
  | pattern p key v => exact Effect.ofNormalized_of_isAbsent h
  | member m key v => exact Effect.ofNormalized_of_isAbsent h
  | raw text args => exact if_pos h
  | search field s => exact if_pos h
  | distance field bound => exact if_pos h
  | extension key j => exact if_pos h
  | group j body =>
    rw [effect, build_of_all_isOr h]
    rfl
  | when test body =>
    cases test with
    | none => cases h
    | some test =>
      cases body with
      | none => cases test <;> cases h
      | some body =>
        cases test with
        | false => cases h
        | true =>
          rw [effect, build_of_all_isOr h]
          rfl
  | _ => cases h

theorem add_of_isTraceless (d : Draft) {c : Criterion} (h : c.isTraceless = true) :
    add d c = d := by
  rw [add_eq_apply, effect_of_isTraceless h]
  rfl

end Criterion

namespace Clause

/-- A traceless clause leaves every draft as it is. -/
theorem add_of_isTraceless (d : QueryDraft) {c : Clause} (h : c.isTraceless = true) :
    add d c = d := by
  cases c with
  | criterion c => rw [add, Criterion.add_of_isTraceless d.conditions h]
  | last v =>
    rw [add, QueryDraft.setLast]
    cases hv : v.asScalar with
    | absent => rfl
    | _ =>
      rw [isTraceless, hv] at h
      cases h
  | _ => cases h

end Clause

theorem Assignments.add_of_isTraceless (a : Assignments) {w : Write} (h : w.isTraceless = true) :
    a.add w = a := by
  cases w with
  | set column v =>
    rw [add]
    cases hv : v.asAssignment with
    | absent => rfl
    | _ =>
      rw [Write.isTraceless, hv] at h
      cases h
  | _ => cases h

/-! ### Drafts go on as before -/

mutual

/-- **What a criterion does, it does without the traceless parts of what it nests.** -/
theorem Criterion.effect_trimmed (c : Criterion) : c.trimmed.effect = c.effect := by
  cases c with
  | group j body =>
    rw [Criterion.trimmed, Criterion.effect, Criterion.effect, Node.build, Node.build,
      Criterion.addAll_erase]
  | when test body =>
    cases body with
    | none => rfl
    | some body =>
      cases test with
      | none => rfl
      | some test =>
        rw [Criterion.trimmed, Criterion.effect, Criterion.effect, Node.build, Node.build,
          Criterion.addAll_erase]
  | subquery text body =>
    rw [Criterion.trimmed, Criterion.effect, Criterion.effect, Query.build, Query.build,
      Clause.addAll_erase]
  | _ => rfl

/-- **A condition tree goes on as before without traceless criteria.** -/
theorem Criterion.addAll_erase (d : Draft) (cs : List Criterion) :
    Criterion.addAll d (Criterion.erase cs) = Criterion.addAll d cs := by
  cases cs with
  | nil => rfl
  | cons c cs =>
    -- what is kept is trimmed on the inside first, which its effect does not see
    have hc : Criterion.add d c.trimmed = Criterion.add d c := by
      rw [Criterion.add_eq_apply, Criterion.effect_trimmed c, ← Criterion.add_eq_apply]
    rw [Criterion.erase, Criterion.addAll, ← hc]
    split
    · next h => rw [Criterion.add_of_isTraceless d h, Criterion.addAll_erase d cs]
    · rw [Criterion.addAll, Criterion.addAll_erase _ cs]

theorem JoinRule.constraint_trimmed (rule : JoinRule) :
    rule.trimmed.constraint = rule.constraint := by
  cases rule with
  | on body =>
    rw [JoinRule.trimmed, JoinRule.constraint, JoinRule.constraint, Criterion.addAll_erase]
  | _ => rfl

theorem Clause.add_trimmed (d : QueryDraft) (c : Clause) :
    Clause.add d c.trimmed = Clause.add d c := by
  cases c with
  | criterion c =>
    rw [Clause.trimmed, Clause.add, Clause.add, Criterion.add_eq_apply, Criterion.effect_trimmed c,
      ← Criterion.add_eq_apply]
  | nested nickname body => rw [Clause.trimmed, Clause.add, Clause.add, Clause.addAll_erase]
  | join j spec rule => rw [Clause.trimmed, Clause.add, Clause.add, JoinRule.constraint_trimmed]
  | joinNested j nickname body rule =>
    rw [Clause.trimmed, Clause.add, Clause.add, Clause.addAll_erase, JoinRule.constraint_trimmed]
  | having body => rw [Clause.trimmed, Clause.add, Clause.add, Criterion.addAll_erase]
  | cte name recursive body => rw [Clause.trimmed, Clause.add, Clause.add, Clause.addAll_erase]
  | union keepsDuplicates body =>
    rw [Clause.trimmed, Clause.add, Clause.add, Clause.addAll_erase]
  | _ => rfl

/-- **A query goes on as before without traceless clauses.** -/
theorem Clause.addAll_erase (d : QueryDraft) (cs : List Clause) :
    Clause.addAll d (Clause.erase cs) = Clause.addAll d cs := by
  cases cs with
  | nil => rfl
  | cons c cs =>
    rw [Clause.erase, Clause.addAll, ← Clause.add_trimmed d c]
    split
    · next h => rw [Clause.add_of_isTraceless d h, Clause.addAll_erase d cs]
    · rw [Clause.addAll, Clause.addAll_erase _ cs]

end

theorem Assignments.foldl_erase (a : Assignments) (writes : List Write) :
    (Write.erase writes).foldl add a = writes.foldl add a := by
  induction writes generalizing a with
  | nil => rfl
  | cons w writes ih =>
    rw [Write.erase, List.filter_cons, List.foldl_cons]
    cases h : w.isTraceless with
    | true => rw [add_of_isTraceless a h]; exact ih a
    | false => exact ih (a.add w)

namespace Update

theorem Draft.add_trimmed (d : Draft) (c : Clause) : d.add c.trimmed = d.add c := by
  cases c with
  | write w => rfl
  | criterion c =>
    rw [Clause.trimmed, add, add, Criterion.add_eq_apply, Criterion.effect_trimmed,
      ← Criterion.add_eq_apply]

theorem Draft.add_of_isTraceless (d : Draft) {c : Clause} (h : c.isTraceless = true) :
    d.add c = d := by
  cases c with
  | write w => rw [add, Assignments.add_of_isTraceless d.assignments h]
  | criterion c => rw [add, Criterion.add_of_isTraceless d.conditions h]

theorem Draft.foldl_erase (d : Draft) (clauses : List Clause) :
    (Clause.erase clauses).foldl add d = clauses.foldl add d := by
  induction clauses generalizing d with
  | nil => rfl
  | cons c clauses ih =>
    rw [Clause.erase, List.map_cons, List.filter_cons, List.foldl_cons, ← d.add_trimmed c]
    cases h : c.trimmed.isTraceless with
    | true => rw [d.add_of_isTraceless h]; exact ih d
    | false => exact ih (d.add c.trimmed)

end Update

/-! ### Nothing traceless is left -/

/-- A call that adds nothing. -/
def Call.isTraceless : Call → Bool
  | criterion c => c.isTraceless
  | clause _ c => c.isTraceless
  | finish _ => false

/-- The end of a description adds no trace of its own. -/
theorem Query.forall_mem_calls {body : List Clause}
    (h : ∀ call ∈ Clause.callsAll false body, call.isTraceless = false) :
    ∀ call ∈ Query.calls body, call.isTraceless = false :=
  List.forall_mem_append.2 ⟨h, List.forall_mem_singleton.2 rfl⟩

mutual

theorem Criterion.not_isTraceless_of_mem_calls {c : Criterion} (h : c.trimmed.isTraceless = false) :
    ∀ call ∈ c.trimmed.calls, call.isTraceless = false := by
  cases c with
  | group j body =>
    exact List.forall_mem_cons.2 ⟨h, Criterion.not_isTraceless_of_mem_callsAll body⟩
  | when test body =>
    cases body with
    | none =>
      cases test with
      | none => exact List.forall_mem_singleton.2 h
      | some test => cases test <;> exact List.forall_mem_singleton.2 h
    | some body =>
      cases test with
      | none => exact List.forall_mem_singleton.2 h
      | some test =>
        cases test with
        | false => exact List.forall_mem_singleton.2 h
        | true => exact List.forall_mem_cons.2 ⟨h, Criterion.not_isTraceless_of_mem_callsAll body⟩
  | subquery text body =>
    refine List.forall_mem_cons.2 ⟨h, ?_⟩
    split
    · exact List.forall_mem_nil _
    · exact Query.forall_mem_calls (Clause.not_isTraceless_of_mem_callsAll false body)
  | _ => exact List.forall_mem_singleton.2 h

theorem Criterion.not_isTraceless_of_mem_callsAll (cs : List Criterion) :
    ∀ call ∈ Criterion.callsAll (Criterion.erase cs), call.isTraceless = false := by
  cases cs with
  | nil => exact List.forall_mem_nil _
  | cons c cs =>
    rw [Criterion.erase]
    -- a criterion is erased as a whole, or kept with no traceless call in it
    split
    · exact Criterion.not_isTraceless_of_mem_callsAll cs
    · next h =>
      exact List.forall_mem_append.2
        ⟨Criterion.not_isTraceless_of_mem_calls (eq_false_of_ne_true h),
          Criterion.not_isTraceless_of_mem_callsAll cs⟩

theorem JoinRule.not_isTraceless_of_mem_calls (rule : JoinRule) :
    ∀ call ∈ rule.trimmed.calls, call.isTraceless = false := by
  cases rule with
  | on body => exact Criterion.not_isTraceless_of_mem_callsAll body
  | _ => exact List.forall_mem_nil _

theorem Clause.not_isTraceless_of_mem_calls (started : Bool) {c : Clause}
    (h : c.trimmed.isTraceless = false) :
    ∀ call ∈ c.trimmed.calls started, call.isTraceless = false := by
  cases c with
  | criterion c => exact Criterion.not_isTraceless_of_mem_calls h
  | nested nickname body =>
    exact List.forall_mem_cons.2
      ⟨h, Query.forall_mem_calls (Clause.not_isTraceless_of_mem_callsAll false body)⟩
  | join j spec rule =>
    exact List.forall_mem_append.2
      ⟨JoinRule.not_isTraceless_of_mem_calls rule, List.forall_mem_singleton.2 h⟩
  | joinNested j nickname body rule =>
    refine List.forall_mem_append.2
      ⟨JoinRule.not_isTraceless_of_mem_calls rule, List.forall_mem_cons.2 ⟨h, ?_⟩⟩
    split
    · exact Query.forall_mem_calls (Clause.not_isTraceless_of_mem_callsAll false body)
    · exact List.forall_mem_nil _
  | having body => exact List.forall_mem_cons.2 ⟨h, Criterion.not_isTraceless_of_mem_callsAll body⟩
  | cte name recursive body =>
    refine List.forall_mem_cons.2 ⟨h, ?_⟩
    split
    · exact List.forall_mem_nil _
    · exact Query.forall_mem_calls (Clause.not_isTraceless_of_mem_callsAll false body)
  | union keepsDuplicates body =>
    exact List.forall_mem_cons.2
      ⟨h, Query.forall_mem_calls (Clause.not_isTraceless_of_mem_callsAll false body)⟩
  | _ => exact List.forall_mem_singleton.2 h

theorem Clause.not_isTraceless_of_mem_callsAll (started : Bool) (cs : List Clause) :
    ∀ call ∈ Clause.callsAll started (Clause.erase cs), call.isTraceless = false := by
  cases cs with
  | nil => exact List.forall_mem_nil _
  | cons c cs =>
    rw [Clause.erase]
    -- as for criteria; whether there is a source plays no part
    split
    · exact Clause.not_isTraceless_of_mem_callsAll started cs
    · next h =>
      exact List.forall_mem_append.2
        ⟨Clause.not_isTraceless_of_mem_calls started (eq_false_of_ne_true h),
          Clause.not_isTraceless_of_mem_callsAll _ cs⟩

end

/-! ### Descriptions -/

/-- **What is absent leaves no trace.**  Erase from a description all calls that add nothing, and
then, from the inside out, all groups that are left with nothing but bare "or"s.  The same is built,
or the same misuse is reported, by all five builders; and no call that is left adds nothing. -/
theorem build_erase :
    (∀ criteria, Node.build (Criterion.erase criteria) = Node.build criteria) ∧
    (∀ clauses, Query.build (Clause.erase clauses) = Query.build clauses) ∧
    (∀ table writes, Insert.build table (Write.erase writes) = Insert.build table writes) ∧
    (∀ table clauses,
      Update.build table (Update.Clause.erase clauses) = Update.build table clauses) ∧
    (∀ table criteria,
      Delete.build table (Criterion.erase criteria) = Delete.build table criteria) ∧
    (∀ criteria, (Criterion.callsAll (Criterion.erase criteria)).any Call.isTraceless = false) ∧
    ∀ clauses, (Query.calls (Clause.erase clauses)).any Call.isTraceless = false := by
  have hnode (criteria : List Criterion) :
      Node.build (Criterion.erase criteria) = Node.build criteria := by
    rw [Node.build, Node.build, Criterion.addAll_erase]
  refine ⟨hnode, fun clauses => ?_, fun table writes => ?_, fun table clauses => ?_,
    fun table criteria => ?_, fun criteria => ?_, fun clauses => ?_⟩
  · rw [Query.build, Query.build, Clause.addAll_erase]
  · rw [Insert.build, Insert.build, Assignments.foldl_erase]
  · rw [Update.build, Update.build, Update.Draft.foldl_erase]
  · rw [Delete.build, Delete.build, hnode]
  · exact List.any_eq_false.2 fun call hc =>
      Bool.eq_false_iff.1 (Criterion.not_isTraceless_of_mem_callsAll criteria call hc)
  · have h := Clause.not_isTraceless_of_mem_callsAll false clauses
    exact List.any_eq_false.2 fun call hc =>
      Bool.eq_false_iff.1 (Query.forall_mem_calls h call hc)

/-- The first group is left with a bare "or", so the second one is left with nothing. -/
example :
    let group : Criterion := .group .any
      [.compare .eq "a" (.int 0), .or, .member .isIn "b" (.list [.null]), .or]
    Criterion.erase [.null .isNull "c", .or, .group .all [group, .raw " " []], .or,
      .eqBool "d" false] = [.null .isNull "c", .or, .or, .eqBool "d" false] := rfl

end QueryTree
