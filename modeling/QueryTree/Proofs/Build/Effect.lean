import QueryTree.Proofs.Condition.Declared

/-!
# Effects of criteria

What a criterion does to a draft is the same for every draft: it adds a node or a bare "or", it adds
nothing, or it is found to be misused.

* `Effect`, `Draft.apply` — what a criterion can do.
* `Criterion.effect` — what it does.
* `Criterion.add_eq_apply` — and that is all it does.
* `Draft.misuse_apply`, `Criterion.misuse_addAll` — the first misuse is kept.
-/

namespace QueryTree

/-- What a criterion does to a draft. -/
inductive Effect where
  | node (n : Node)
  /-- A bare "or", where one can stand. -/
  | mark
  | nothing
  | misuse (cause : Misuse)

namespace Effect

/-- A normalized value in a node. -/
def ofNormalized (use : Value → Node) (cause : Rejection → Misuse) : Normalized → Effect
  | .present v => node (use v)
  | .absent => nothing
  | .invalid why => misuse (cause why)

/-- A group, unless it holds connectives only. -/
def ofGroup (j : Junction) : Except Misuse (List Node) → Effect
  | .ok subs => if Node.hasContent subs then node (.group j subs) else nothing
  | .error cause => misuse cause

/-- A nested query behind its left-hand side. -/
def ofQuery (text : String) : Except Misuse Query → Effect
  | .ok q => node ⟨.subquery, text, some (.query q), []⟩
  | .error cause => misuse cause

/-- The misuse that was found. -/
def misuse? : Effect → Option Misuse
  | misuse cause => some cause
  | _ => none

theorem ofNormalized_eq_node_iff {use : Value → Node} {cause : Rejection → Misuse}
    {v : Normalized} {n : Node} :
    ofNormalized use cause v = node n ↔ ∃ w, v = .present w ∧ n = use w := by
  cases v <;> simp [ofNormalized, eq_comm]

theorem ofGroup_eq_node_iff {j : Junction} {built : Except Misuse (List Node)} {n : Node} :
    ofGroup j built = node n ↔
      ∃ subs, built = .ok subs ∧ Node.hasContent subs = true ∧ n = .group j subs := by
  cases built with
  | error cause => simp [ofGroup]
  | ok subs =>
    cases h : Node.hasContent subs with
    | false => simp [ofGroup, h]
    | true => simpa [ofGroup, h] using eq_comm

theorem ofQuery_eq_node_iff {text : String} {built : Except Misuse Query} {n : Node} :
    ofQuery text built = node n ↔
      ∃ q, built = .ok q ∧ n = ⟨.subquery, text, some (.query q), []⟩ := by
  cases built <;> simp [ofQuery, eq_comm]

end Effect

/-! ### Drafts -/

namespace Draft

/-- The draft after an effect. -/
def apply (d : Draft) : Effect → Draft
  | .node n => d.push n
  | .mark => d.pushOr
  | .nothing => d
  | .misuse cause => d.fail cause

variable {d : Draft}

theorem fail_of_failed (h : d.failed = true) (cause : Misuse) : d.fail cause = d := by
  obtain ⟨first, hm⟩ := failed_iff.1 h
  obtain ⟨nodes, misuse⟩ := d
  cases hm
  rfl

theorem misuse_pushOr : d.pushOr.misuse = d.misuse := by
  unfold pushOr
  split
  · rfl
  · split
    · rfl
    · exact misuse_push

theorem misuse_apply (d : Draft) (e : Effect) : (d.apply e).misuse = d.misuse.or e.misuse? := by
  cases e with
  | node n => simp [apply, Effect.misuse?]
  | mark => simp [apply, Effect.misuse?, misuse_pushOr]
  | nothing => simp [apply, Effect.misuse?]
  | misuse cause =>
    rw [apply, misuse_fail]
    cases d.misuse <;> rfl

end Draft

/-! ### Criteria -/

/-- What a criterion does. -/
def Criterion.effect : Criterion → Effect
  | .compare c key v =>
    .ofNormalized (.ofValue (.compare c) key) (.unusableValue key (.compare c)) v.asScalar
  | .eqBool key b => .node (.ofValue (.compare .eq) key (.bool b))
  | .pattern p key v =>
    .ofNormalized (fun w => .ofValue (.pattern p) key (Draft.wildcards p w))
      (.unusableValue key (.pattern p)) v.asPattern
  | .member m key v =>
    .ofNormalized (.ofValue (.member m) key) (.unusableValue key (.member m)) v.asMembers
  | .inRequired key v =>
    match v.asMembers with
    | .present w => .node (.ofValue (.member .isIn) key w)
    | .absent => .misuse (.emptyRequiredSet key)
    | .invalid why => .misuse (.unusableRequiredSet key why)
  | .null t key => .node (.bare (.null t) key)
  | .raw text args =>
    if Text.isBlank text then .nothing else .node ⟨.raw, text, some (.args args), []⟩
  | .or => .mark
  | .group j body => .ofGroup j (Node.build body)
  | .when none _ => .misuse .missingTest
  | .when (some _) none => .misuse .missingBody
  | .when (some test) (some body) => if test then .ofGroup .all (Node.build body) else .nothing
  | .subquery text body =>
    if Text.isBlank text then .misuse .missingLeftSide else .ofQuery text (Query.build body)
  | .search field s =>
    if s.vector.isEmpty then .nothing
    else if s.limit = 0 then .misuse (.emptySearch field)
    else .node ⟨.search, field, some (.search s), []⟩
  | .distance field bound =>
    if bound.vector.isEmpty then .nothing else .node ⟨.distance, field, some (.distance bound), []⟩
  | .extension key j =>
    if key.isEmpty || j.isNull then .nothing else .node ⟨.extension, key, some (.json j), []⟩

namespace Draft

variable (d : Draft)

theorem pushNormalized_eq_apply (op : Op) (key : String) (v : Normalized) :
    d.pushNormalized op key v =
      d.apply (.ofNormalized (.ofValue op key) (.unusableValue key op) v) := by
  cases v <;> rfl

theorem pushPattern_eq_apply (p : Pattern) (key : String) (v : Value) :
    d.pushPattern p key v = d.apply (Criterion.pattern p key v).effect := by
  rw [pushPattern, Criterion.effect]
  cases v.asPattern <;> rfl

theorem pushRequired_eq_apply (key : String) (v : Value) :
    d.pushRequired key v = d.apply (Criterion.inRequired key v).effect := by
  rw [pushRequired, Criterion.effect]
  cases v.asMembers <;> rfl

theorem pushGroup_eq_apply (j : Junction) (inner : Draft) :
    d.pushGroup j inner = d.apply (.ofGroup j inner.finish) := by
  unfold pushGroup
  cases hf : d.failed with
  | true =>
    -- a draft that failed leaves the group alone, which is what the effect does to it anyway
    rw [if_pos rfl]
    cases inner.finish with
    | error cause => exact (fail_of_failed hf cause).symm
    | ok subs =>
      rw [Effect.ofGroup]
      split
      · exact (push_of_failed hf).symm
      · rfl
  | false =>
    rw [if_neg Bool.false_ne_true]
    cases inner.finish with
    | error cause => rfl
    | ok subs => cases h : Node.hasContent subs <;> simp [Effect.ofGroup, apply, h]

end Draft

/-- **A criterion does the same to every draft.** -/
theorem Criterion.add_eq_apply (d : Draft) (c : Criterion) :
    Criterion.add d c = d.apply c.effect := by
  cases c with
  | compare c key v => exact d.pushNormalized_eq_apply (.compare c) key v.asScalar
  | eqBool key b => rfl
  | pattern p key v => exact d.pushPattern_eq_apply p key v
  | member m key v => exact d.pushNormalized_eq_apply (.member m) key v.asMembers
  | inRequired key v => exact d.pushRequired_eq_apply key v
  | null t key => rfl
  | raw text args =>
    rw [add, effect, Draft.pushRaw]
    split <;> rfl
  | or => rfl
  | group j body => exact d.pushGroup_eq_apply j (Criterion.addAll .empty body)
  -- only a test that holds, with a body, is a group; all else adds nothing
  | when test body =>
    cases test with
    | none => rfl
    | some test =>
      cases body with
      | none => rfl
      | some body =>
        cases test with
        | false => rfl
        | true => exact d.pushGroup_eq_apply .all (Criterion.addAll .empty body)
  | subquery text body =>
    rw [add, effect, Query.build]
    unfold Draft.pushSubquery
    split
    · rfl
    · cases (Clause.addAll .empty body).finish <;> rfl
  | search field s =>
    rw [add, effect, Draft.pushSearch]
    split
    · rfl
    · split <;> rfl
  | distance field bound =>
    rw [add, effect, Draft.pushDistance]
    split <;> rfl
  | extension key j =>
    rw [add, effect, Draft.pushExtension]
    split <;> rfl

namespace Criterion

/-- **A draft fails by the first criterion that does,** if by any. -/
theorem misuse_addAll (d : Draft) (cs : List Criterion) :
    (addAll d cs).misuse = d.misuse.or (cs.findSome? fun c => c.effect.misuse?) := by
  induction cs generalizing d with
  | nil => rw [addAll, List.findSome?_nil, Option.or_none]
  | cons c cs ih =>
    rw [addAll, ih, add_eq_apply, Draft.misuse_apply, Option.or_assoc, List.findSome?_cons]
    cases c.effect.misuse? <;> rfl

/-- The operator of the node that a criterion can add. -/
def op : Criterion → Op
  | compare c _ _ => .compare c
  | eqBool _ _ => .compare .eq
  | pattern p _ _ => .pattern p
  | member m _ _ => .member m
  | inRequired _ _ => .member .isIn
  | null t _ => .null t
  | raw _ _ => .raw
  | or => .orMark
  | group j _ => .group j
  | when _ _ => .group .all
  | subquery _ _ => .subquery
  | search _ _ => .search
  | distance _ _ => .distance
  | extension _ _ => .extension

theorem op_of_effect {c : Criterion} {n : Node} (h : c.effect = .node n) : n.op = c.op := by
  cases c with
  | compare c key v => obtain ⟨w, -, rfl⟩ := Effect.ofNormalized_eq_node_iff.1 h; rfl
  | eqBool key b => cases h; rfl
  | pattern p key v => obtain ⟨w, -, rfl⟩ := Effect.ofNormalized_eq_node_iff.1 h; rfl
  | member m key v => obtain ⟨w, -, rfl⟩ := Effect.ofNormalized_eq_node_iff.1 h; rfl
  -- only members that are present become a node
  | inRequired key v =>
    rw [effect] at h
    cases hv : v.asMembers with
    | present w => rw [hv] at h; cases h; rfl
    | absent => rw [hv] at h; cases h
    | invalid why => rw [hv] at h; cases h
  | null t key => cases h; rfl
  | raw text args =>
    rw [effect] at h
    split at h <;> cases h
    rfl
  | or => cases h
  | group j body => obtain ⟨subs, -, -, rfl⟩ := Effect.ofGroup_eq_node_iff.1 h; rfl
  | when test body =>
    cases test with
    | none => cases h
    | some test =>
      cases body with
      | none => cases h
      | some body =>
        cases test with
        | false => cases h
        | true => obtain ⟨subs, -, -, rfl⟩ := Effect.ofGroup_eq_node_iff.1 h; rfl
  | subquery text body =>
    rw [effect] at h
    split at h
    · cases h
    · obtain ⟨q, -, rfl⟩ := Effect.ofQuery_eq_node_iff.1 h; rfl
  | search field s =>
    rw [effect] at h
    split at h
    · cases h
    · split at h <;> cases h
      rfl
  | distance field bound =>
    rw [effect] at h
    split at h <;> cases h
    rfl
  | extension key j =>
    rw [effect] at h
    split at h <;> cases h
    rfl

/-- A criterion adds no bare "or" where none can stand. -/
theorem op_ne_orMark_of_effect {c : Criterion} {n : Node} (h : c.effect = .node n) :
    n.op ≠ .orMark := by
  intro ho
  rw [op_of_effect h] at ho
  cases c with
  | or => cases h
  | _ => cases ho

theorem declared_of_effect {c : Criterion} {n : Node} (h : c.effect = .node n) : n.Declared := by
  have hd := declared_add Draft.all_empty c
  rw [add_eq_apply, h] at hd
  exact hd n (List.mem_singleton_self n)

end Criterion

end QueryTree
