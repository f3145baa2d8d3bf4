import Mathlib.Data.List.Chain
import QueryTree.Proofs.Build.Effect
import QueryTree.Proofs.Value.Normalized

/-!
# The invariant of condition trees

What all writers rely on: in a tree that is built, each node carries what its operator needs, and
each level starts with a condition and has no two bare "or"s in a row.

* `Node.WellJoined` — a level whose bare "or"s stand behind conditions.
* `Node.IsSound` — a node that carries what its operator needs.
* `Draft.IsSound` — both, at any depth of a draft.
* `Draft.IsSound.apply` — no effect of a criterion spoils a draft.
* `Node.isSound_of_build` — the trees that are built are sound.
-/

namespace QueryTree

/-! ### Levels -/

/-- A level whose bare "or"s stand behind conditions: none is first, and none is behind another. -/
structure Node.WellJoined (ns : List Node) : Prop where
  head : ∀ n, ns.head? = some n → n.op ≠ .orMark
  apart : ns.IsChain fun m n => ¬(m.op = .orMark ∧ n.op = .orMark)

namespace Node.WellJoined

variable {ns : List Node}

theorem nil : WellJoined [] := ⟨nofun, .nil⟩

/-- A level stays well joined if a node is added that is no bare "or" behind another one, and none
in front of all. -/
theorem concat (h : WellJoined ns) {n : Node}
    (hn : n.op = .orMark → ∃ last, ns.getLast? = some last ∧ last.op ≠ .orMark) :
    WellJoined (ns ++ [n]) := by
  constructor
  · intro m hm ho
    cases ns with
    | nil =>
      cases hm
      obtain ⟨last, hl, -⟩ := hn ho
      cases hl
    | cons first rest => exact h.head m hm ho
  · -- only the joint between the last node and the new one is new
    refine List.isChain_append.2 ⟨h.apart, .singleton n, ?_⟩
    rintro m hm n' hn' ⟨hmo, hno⟩
    cases hn'
    obtain ⟨last, hl, hlo⟩ := hn hno
    rw [hl] at hm
    cases hm
    exact hlo hmo

end Node.WellJoined

/-! ### Nodes -/

/-- A node that carries what its operator needs.  Only groups have members.  A comparison with a
value that counts as not set is one with false. -/
structure Node.IsSound (n : Node) : Prop where
  subs : n.subs ≠ [] → n.op.isGroup = true
  operand :
    match n.op with
    | .compare c => ∃ v, n.operand = some (.value v) ∧ v.IsScalar ∧
        (v.isZero = true → c = .eq ∧ v = .bool false)
    | .pattern _ => ∃ s, n.operand = some (.value (.text s)) ∧ s ≠ ""
    | .member _ => ∃ vs, n.operand = some (.value (.list vs)) ∧ vs ≠ [] ∧ ∀ v ∈ vs, v.IsScalar
    | .null _ => n.operand = none
    | .raw => Text.isBlank n.key = false ∧ ∃ vs, n.operand = some (.args vs)
    | .subquery => Text.isBlank n.key = false ∧ ∃ q, n.operand = some (.query q)
    | .group _ => n.key = "" ∧ n.operand = none ∧ ∃ m ∈ n.subs, m.op ≠ .orMark
    | .orMark => n = Node.orMark
    | .search => ∃ s, n.operand = some (.search s) ∧ s.vector ≠ [] ∧ s.limit ≠ 0
    | .distance => ∃ b, n.operand = some (.distance b) ∧ b.vector ≠ []
    | .extension => n.key ≠ "" ∧ ∃ j, n.operand = some (.json j) ∧ j.isNull = false

namespace Node

theorem wildcards_text (p : Pattern) (s : String) (h : s ≠ "") :
    ∃ t, Draft.wildcards p (.text s) = .text t ∧ t ≠ "" := by
  cases p <;> exact ⟨_, rfl, by simp [h]⟩

theorem exists_op_ne_orMark {ns : List Node} (h : hasContent ns = true)
    (hd : ∀ n ∈ ns, n.op = .orMark → n = orMark) : ∃ m ∈ ns, m.op ≠ .orMark := by
  obtain ⟨m, hm, hc⟩ := List.any_eq_true.1 h
  refine ⟨m, hm, ?_⟩
  intro ho
  rw [hd m hm ho] at hc
  cases hc

theorem Declared.eq_orMark {n : Node} (h : n.Declared) (ho : n.op = .orMark) :
    n = Node.orMark := by
  cases h with
  | orMark => rfl
  | _ => cases ho

theorem Declared.isSound {n : Node} (h : n.Declared) : n.IsSound := by
  cases h with
  | comparison c key hv =>
    obtain ⟨hs, hz⟩ := Value.of_asScalar hv
    exact ⟨nofun, _, rfl, hs, fun h => absurd (hz ▸ h) Bool.false_ne_true⟩
  | truthValue key b =>
    refine ⟨nofun, _, rfl, .bool b, ?_⟩
    intro hb
    -- a truth value of false is kept as it is; that of true is never zero
    cases b with
    | false => exact ⟨rfl, rfl⟩
    | true => cases hb
  | pattern p key hv =>
    obtain ⟨s, rfl, hs⟩ := Value.of_asPattern hv
    obtain ⟨t, ht, hne⟩ := wildcards_text p s hs
    exact ⟨nofun, t, congrArg (some ∘ Operand.value) ht, hne⟩
  | membership m key hv =>
    obtain ⟨kept, rfl, hne, hk⟩ := Value.of_asMembers hv
    exact ⟨nofun, kept, rfl, hne, hk⟩
  | null t key => exact ⟨nofun, rfl⟩
  | raw args ht => exact ⟨nofun, ht, args, rfl⟩
  | orMark => exact ⟨nofun, rfl⟩
  | group j hs hc =>
    exact ⟨fun _ => rfl, rfl, rfl, exists_op_ne_orMark hc fun n hn => (hs n hn).eq_orMark⟩
  | subquery body ht hq => exact ⟨nofun, ht, _, rfl⟩
  | search field hv hl => exact ⟨nofun, _, rfl, hv, hl⟩
  | distance field hv => exact ⟨nofun, _, rfl, hv⟩
  | extension hk hj => exact ⟨nofun, by simpa using hk, _, rfl, hj⟩

theorem mem_walkAll {n : Node} {ns : List Node} (h : n ∈ ns) : n ∈ walkAll ns := by
  induction ns with
  | nil => cases h
  | cons m ns ih =>
    rcases List.mem_cons.1 h with rfl | h
    · obtain ⟨op, key, operand, subs⟩ := n
      exact List.mem_append_left _ List.mem_cons_self
    · exact List.mem_append_right _ (ih h)

/-- A comparison with a value that counts as not set was asked for by a truth value. -/
def IsExplicit (declared : List Criterion) (n : Node) : Prop :=
  ∀ c v, n.op = .compare c → n.operand = some (.value v) → v.isZero = true →
    .eqBool n.key false ∈ declared

/-- A sound node whose members are well joined. -/
structure IsSoundIn (declared : List Criterion) (n : Node) : Prop where
  sound : n.IsSound
  level : WellJoined n.subs
  explicit : n.IsExplicit declared

end Node

/-! ### Drafts -/

/-- A draft in which all is sound, at any depth. -/
structure Draft.IsSound (declared : List Criterion) (d : Draft) : Prop where
  level : Node.WellJoined d.nodes
  nodes : ∀ n ∈ Node.walkAll d.nodes, n.IsSoundIn declared

namespace Draft.IsSound

variable {declared : List Criterion} {d : Draft}

theorem empty : Draft.empty.IsSound declared := ⟨.nil, nofun⟩

theorem push (h : d.IsSound declared) {n : Node}
    (hj : n.op = .orMark → ∃ last, d.nodes.getLast? = some last ∧ last.op ≠ .orMark)
    (hn : ∀ m ∈ n.walk, m.IsSoundIn declared) : (d.push n).IsSound declared := by
  cases hf : d.failed with
  | true => rwa [push_of_failed hf]
  | false =>
    constructor
    · rw [nodes_push hf]
      exact h.level.concat hj
    · intro m hm
      rw [nodes_push hf, Node.walkAll_append, Node.walkAll, Node.walkAll, List.append_nil] at hm
      rcases List.mem_append.1 hm with hm | hm
      · exact h.nodes m hm
      · exact hn m hm

theorem isSoundIn_orMark : Node.orMark.IsSoundIn declared := ⟨⟨nofun, rfl⟩, .nil, nofun⟩

theorem pushOr (h : d.IsSound declared) : d.pushOr.IsSound declared := by
  unfold Draft.pushOr
  split
  · exact h
  · next last hl =>
    split
    · exact h
    · next hc =>
      refine h.push (fun _ => ⟨last, hl, ?_⟩) ?_
      · -- a bare "or" is a connective, and the last node is none
        intro ho
        have hs := (h.nodes last (Node.mem_walkAll (List.mem_of_getLast? hl))).sound.operand
        rw [ho] at hs
        exact hc (hs ▸ rfl)
      · exact List.forall_mem_singleton.2 isSoundIn_orMark

/-- **No effect of a criterion spoils a draft.** -/
theorem apply (h : d.IsSound declared) {e : Effect} (he : ∀ n, e = .node n →
    n.op ≠ .orMark ∧ ∀ m ∈ n.walk, m.IsSoundIn declared) : (d.apply e).IsSound declared := by
  cases e with
  | node n =>
    obtain ⟨ho, hn⟩ := he n rfl
    exact h.push (fun h => absurd h ho) hn
  | mark => exact h.pushOr
  | nothing => exact h
  | misuse cause => exact ⟨h.level, h.nodes⟩

end Draft.IsSound

/-! ### Criteria -/

mutual

/-- The criteria of a criterion at any depth of groups.  The body of a conditional group is passed
over unless its test holds. -/
def Criterion.walk : Criterion → List Criterion
  | .group j body => .group j body :: Criterion.walkAll body
  | .when (some true) (some body) =>
    .when (some true) (some body) :: Criterion.walkAll body
  | c => [c]

/-- The criteria of a description at any depth of groups. -/
def Criterion.walkAll : List Criterion → List Criterion
  | [] => []
  | c :: cs => c.walk ++ Criterion.walkAll cs

end

namespace Criterion

variable {declared : List Criterion}

theorem mem_walk (c : Criterion) : c ∈ c.walk := by
  unfold walk
  split
  · exact List.mem_cons_self
  · exact List.mem_cons_self
  · exact List.mem_singleton_self c

theorem isExplicit_of_effect {c : Criterion} {n : Node} (h : c.effect = .node n)
    (hc : c ∈ declared) : n.IsExplicit declared := by
  intro op v ho hv hz
  -- only a comparison and a truth value can have added a node of this operator
  have hop : Op.compare op = c.op := ho.symm.trans (op_of_effect h)
  cases c with
  | compare c key u =>
    obtain ⟨w, hw, rfl⟩ := Effect.ofNormalized_eq_node_iff.1 h
    cases hv
    rw [(Value.of_asScalar hw).2] at hz
    cases hz
  | eqBool key b =>
    cases h
    cases hv
    cases b with
    | false => exact hc
    | true => cases hz
  | _ => cases hop

theorem isSoundIn_of_leaf {c : Criterion} {n : Node} (h : c.effect = .node n)
    (hg : c.op.isGroup = false) (hc : c ∈ declared) : ∀ m ∈ n.walk, m.IsSoundIn declared := by
  have hs : n.IsSound := (declared_of_effect h).isSound
  -- only groups have members, so the walk ends here
  have hsubs : n.subs = [] := by
    by_contra hne
    have := hs.subs hne
    rw [op_of_effect h, hg] at this
    cases this
  obtain ⟨op, key, operand, subs⟩ := n
  cases hsubs
  exact List.forall_mem_singleton.2 ⟨hs, .nil, isExplicit_of_effect h hc⟩

theorem isSoundIn_of_group {c : Criterion} {j : Junction} {inner : Draft} {n : Node}
    (h : c.effect = .node n) (hg : c.effect = .ofGroup j inner.finish)
    (hi : inner.IsSound declared) (hc : c ∈ declared) :
    ∀ m ∈ n.walk, m.IsSoundIn declared := by
  have hs : n.IsSound := (declared_of_effect h).isSound
  have he := isExplicit_of_effect h hc
  obtain ⟨subs, hb, -, rfl⟩ := Effect.ofGroup_eq_node_iff.1 (hg.symm.trans h)
  obtain ⟨-, rfl⟩ := Draft.finish_eq_ok_iff.1 hb
  exact List.forall_mem_cons.2 ⟨⟨hs, hi.level, he⟩, hi.nodes⟩

mutual

theorem isSoundIn_of_effect {n : Node} (c : Criterion) (h : c.effect = .node n)
    (hc : c.walk ⊆ declared) : ∀ m ∈ n.walk, m.IsSoundIn declared := by
  have hself : c ∈ declared := hc c.mem_walk
  cases c with
  | group j body =>
    have hbody := isSound_addAll body .empty fun c hb => hc (List.mem_cons_of_mem _ hb)
    exact isSoundIn_of_group h rfl hbody hself
  | when test body =>
    cases test with
    | none => cases h
    | some test =>
      cases body with
      | none => cases h
      | some body =>
        cases test with
        | false => cases h
        | true =>
          have hbody := isSound_addAll body .empty fun c hb => hc (List.mem_cons_of_mem _ hb)
          exact isSoundIn_of_group h rfl hbody hself
  | _ => exact isSoundIn_of_leaf h rfl hself

/-- **No criterion spoils a draft.** -/
theorem isSound_addAll {d : Draft} (cs : List Criterion) (h : d.IsSound declared)
    (hcs : walkAll cs ⊆ declared) : (addAll d cs).IsSound declared := by
  cases cs with
  | nil => exact h
  | cons c cs =>
    obtain ⟨hc, hcs⟩ := List.append_subset.1 hcs
    refine isSound_addAll cs ?_ hcs
    rw [add_eq_apply]
    exact h.apply fun n hn => ⟨op_ne_orMark_of_effect hn, isSoundIn_of_effect c hn hc⟩

end

end Criterion

/-- **A condition tree that is built is sound.**  The tree and the members of each group in it are
well joined: they start with a condition and have no two bare "or"s in a row.  Each node carries
what its operator needs, and one that compares with a value that counts as not set was asked for by
a truth value. -/
theorem Node.isSound_of_build {criteria : List Criterion} {nodes : List Node}
    (h : Node.build criteria = .ok nodes) :
    Node.WellJoined nodes ∧ ∀ n ∈ Node.walkAll nodes,
      n.IsSound ∧ Node.WellJoined n.subs ∧ n.IsExplicit (Criterion.walkAll criteria) := by
  have hs : (Criterion.addAll .empty criteria).IsSound (Criterion.walkAll criteria) :=
    Criterion.isSound_addAll criteria .empty (List.Subset.refl _)
  obtain ⟨-, rfl⟩ := Draft.finish_eq_ok_iff.1 h
  exact ⟨hs.level, fun n hn => ⟨(hs.nodes n hn).sound, (hs.nodes n hn).level,
    (hs.nodes n hn).explicit⟩⟩

/-- A tree with a leading and a doubled "or", a comparison with zero, one with false, a group with
an "or" at both ends, and an empty group. -/
theorem Node.isSound_of_build_of_marks :
    let criteria : List Criterion :=
      [.or, .compare .gt "a" (.int 0), .eqBool "b" false, .or, .or,
        .group .any [.or, .pattern .contains "c" (.text "x"), .or],
        .group .all [.or, .compare .eq "d" (.text "")],
        .member .isIn "e" (.list [.null, .int 0])]
    let nodes : List Node :=
      [.ofValue (.compare .eq) "b" (.bool false), .orMark,
        .group .any [.ofValue (.pattern .contains) "c" (.text "%x%"), .orMark],
        .ofValue (.member .isIn) "e" (.list [.int 0])]
    Node.build criteria = .ok nodes ∧ Node.WellJoined nodes ∧ ∀ n ∈ Node.walkAll nodes,
      n.IsSound ∧ Node.WellJoined n.subs ∧ n.IsExplicit (Criterion.walkAll criteria) := by
  intro criteria nodes
  have h : Node.build criteria = .ok nodes := rfl
  exact ⟨h, Node.isSound_of_build h⟩

end QueryTree
