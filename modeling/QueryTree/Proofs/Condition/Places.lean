import QueryTree.Proofs.Build.Conditions
import QueryTree.Proofs.Condition.Rendering

/-!
# Places of criteria

A criterion stands in a description among others or in the body of a group that is executed, at any
depth.  The node that it adds stands at the same place of the condition tree: behind the nodes of
what is declared before it, in the group of each body around it.  What is declared elsewhere cannot
take the node away again, and the text of the node is part of the text of the tree.

* `Criterion.Place`, `Criterion.Place.fill` — a place, and the description with a criterion in it.
* `Criterion.Place.Locates` — a node stands at the place of the tree.
* `Criterion.Place.locates_of_build` — the node of a criterion does.
* `Criterion.Place.mem_nodeLexemes` — and is written.
-/

namespace QueryTree

/-! ### One level -/

namespace Draft

variable {d : Draft}

theorem prefix_nodes_push (n : Node) : d.nodes <+: (d.push n).nodes := by
  unfold push
  split
  · exact List.prefix_rfl
  · exact List.prefix_append _ _

theorem prefix_nodes_apply (e : Effect) : d.nodes <+: (d.apply e).nodes := by
  cases e with
  | node n => exact prefix_nodes_push n
  | mark =>
    rw [apply, pushOr]
    split
    · exact List.prefix_rfl
    · split
      · exact List.prefix_rfl
      · exact prefix_nodes_push _
  | nothing => exact List.prefix_rfl
  | misuse cause => exact List.prefix_rfl

end Draft

namespace Criterion

theorem addAll_append (d : Draft) (cs cs' : List Criterion) :
    addAll d (cs ++ cs') = addAll (addAll d cs) cs' := by
  induction cs generalizing d with
  | nil => rfl
  | cons c cs ih => exact ih (add d c)

theorem prefix_nodes_addAll (d : Draft) (cs : List Criterion) :
    d.nodes <+: (addAll d cs).nodes := by
  induction cs generalizing d with
  | nil => exact List.prefix_rfl
  | cons c cs ih =>
    rw [addAll, add_eq_apply]
    exact (Draft.prefix_nodes_apply c.effect).trans (ih _)

end Criterion

/-- A criterion among others: if the level is built, so is what is before it, it is not misused, and
the node that it adds stands behind what is before it. -/
theorem Node.build_among {before behind : List Criterion} {c : Criterion} {nodes : List Node}
    (h : Node.build (before ++ c :: behind) = .ok nodes) :
    ∃ front, Node.build before = .ok front ∧ c.effect.misuse? = none ∧
      ∀ n, c.effect = .node n → ∃ back, nodes = front ++ n :: back := by
  obtain ⟨hm, rfl⟩ := Node.build_eq_ok_iff.1 h
  rw [Criterion.misuse_addAll, Option.or_eq_none_iff, List.findSome?_append,
    Option.or_eq_none_iff, List.findSome?_cons] at hm
  obtain ⟨-, hbefore, hc⟩ := hm
  -- a build reports the first misuse, so there is none in front of `c` nor in it
  have hcm : c.effect.misuse? = none := by
    cases he : c.effect.misuse? with
    | none => rfl
    | some cause =>
      rw [he] at hc
      cases hc
  have hfront : (Criterion.addAll .empty before).misuse = none := by
    rw [Criterion.misuse_addAll, hbefore]
    rfl
  refine ⟨(Criterion.addAll .empty before).nodes, Node.build_eq_ok_iff.2 ⟨hfront, rfl⟩, hcm, ?_⟩
  intro n hn
  have hf : (Criterion.addAll .empty before).failed = false := by rw [Draft.failed, hfront]; rfl
  obtain ⟨back, hback⟩ := Criterion.prefix_nodes_addAll
    (Criterion.add (Criterion.addAll .empty before) c) behind
  refine ⟨back, ?_⟩
  rw [Criterion.addAll_append, Criterion.addAll, ← hback, Criterion.add_eq_apply, hn, Draft.apply,
    Draft.nodes_push hf, List.append_assoc]
  rfl

/-! ### Places -/

namespace Criterion

/-- The ways to declare a group whose body is executed. -/
inductive Grouping where
  | plain (j : Junction)
  /-- A conditional group whose test holds. -/
  | conditional

/-- How the members of the group are joined. -/
def Grouping.junction : Grouping → Junction
  | plain j => j
  | conditional => .all

/-- The group with a body. -/
def Grouping.around (body : List Criterion) : Grouping → Criterion
  | plain j => .group j body
  | conditional => .when (some true) (some body)

theorem Grouping.effect_around (g : Grouping) (body : List Criterion) :
    (g.around body).effect = .ofGroup g.junction (Node.build body) := by
  cases g <;> rfl

/-- A place for a criterion in a description: among other criteria, or deeper, in the body of a
group that is executed. -/
inductive Place where
  | among (before behind : List Criterion)
  | within (before : List Criterion) (g : Grouping) (inner : Place) (behind : List Criterion)

end Criterion

namespace Criterion.Place

/-- The description with a criterion in the place. -/
def fill (c : Criterion) : Place → List Criterion
  | among before behind => before ++ c :: behind
  | within before g inner behind => before ++ g.around (inner.fill c) :: behind

/-- The node stands at the place of a condition tree: behind the nodes of the criteria before it,
and in the group of each body around it. -/
def Locates (n : Node) : Place → List Node → Prop
  | among before _, nodes =>
    ∃ front back, Node.build before = .ok front ∧ nodes = front ++ n :: back
  | within before g inner _, nodes =>
    ∃ front members back, Node.build before = .ok front ∧
      nodes = front ++ .group g.junction members :: back ∧ inner.Locates n members

theorem hasContent_of_locates {n : Node} (hn : n.isConnective = false) {place : Place}
    {nodes : List Node} (h : place.Locates n nodes) : Node.hasContent nodes = true := by
  cases place with
  | among before behind =>
    obtain ⟨front, back, -, rfl⟩ := h
    simp [Node.hasContent, hn]
  | within before g inner behind =>
    obtain ⟨front, members, back, -, rfl, -⟩ := h
    have hg : (Node.group g.junction members).isConnective = false := rfl
    simp [Node.hasContent, hg]

theorem not_isConnective_of_effect {c : Criterion} {n : Node} (h : c.effect = .node n) :
    n.isConnective = false := by
  have ho := op_ne_orMark_of_effect h
  simp [Node.isConnective, ho]

theorem exists_build_of_misuse? {g : Grouping} {body : List Criterion}
    (h : (g.around body).effect.misuse? = none) : ∃ members, Node.build body = .ok members := by
  rw [g.effect_around] at h
  cases hb : Node.build body with
  | ok members => exact ⟨members, rfl⟩
  | error cause =>
    rw [hb] at h
    cases h

/-- **A criterion that is executed leaves its node at its place.**  If the description is built, the
criterion is not misused, and the node that it adds stands where the criterion does. -/
theorem locates_of_build {c : Criterion} (place : Place) {nodes : List Node}
    (h : Node.build (place.fill c) = .ok nodes) :
    c.effect.misuse? = none ∧ ∀ n, c.effect = .node n → place.Locates n nodes := by
  induction place generalizing nodes with
  | among before behind =>
    obtain ⟨front, hf, hm, hn⟩ := Node.build_among h
    refine ⟨hm, fun n hc => ?_⟩
    obtain ⟨back, hb⟩ := hn n hc
    exact ⟨front, back, hf, hb⟩
  | within before g inner behind ih =>
    obtain ⟨front, hf, hm, hn⟩ := Node.build_among h
    obtain ⟨members, hb⟩ := exists_build_of_misuse? hm
    obtain ⟨hcm, hl⟩ := ih hb
    refine ⟨hcm, fun n hc => ?_⟩
    -- the body holds the node, so the group is not left out
    have hgroup : (g.around (inner.fill c)).effect = .node (.group g.junction members) := by
      rw [g.effect_around]
      exact Effect.ofGroup_eq_node_iff.2
        ⟨members, hb, hasContent_of_locates (not_isConnective_of_effect hc) (hl n hc), rfl⟩
    obtain ⟨back, hback⟩ := hn _ hgroup
    exact ⟨front, members, back, hf, hback, hl n hc⟩

end Criterion.Place

/-! ### Texts -/

variable {d : Dialect}

/-- What is written of a node is written of the level on which it stands. -/
theorem mem_nodeLexemes_of_mem {n : Node} {ns : List Node} (hn : n ∈ ns)
    (hc : n.isConnective = false) {l : Lexeme} (hl : l ∈ n.lexemes d)
    (alternatives started pendingOr : Bool) :
    l ∈ nodeLexemes d alternatives started pendingOr ns := by
  induction ns generalizing started pendingOr with
  | nil => cases hn
  | cons m ns ih =>
    rw [nodeLexemes]
    rcases List.mem_cons.1 hn with rfl | hn
    · -- a node with a lexeme is neither a connective nor left out
      have hne : (n.lexemes d).isEmpty = false := by
        cases he : n.lexemes d with
        | nil =>
          rw [he] at hl
          cases hl
        | cons l ls => rfl
      rw [hc, hne, if_neg Bool.false_ne_true, if_neg Bool.false_ne_true]
      exact List.mem_append_left _ (List.mem_append_right _ hl)
    · split
      · exact ih hn started true
      · split
        · exact ih hn started pendingOr
        · exact List.mem_append_right _ (ih hn true false)

theorem Node.mem_lexemes_group {j : Junction} {members : List Node} {l : Lexeme}
    (hl : l ∈ nodeLexemes d (j == .any) false false members) :
    l ∈ Node.lexemes d (.group j members) := by
  rw [Node.group, lexemes_group, if_neg]
  · exact List.mem_append_left _ (List.mem_cons_of_mem _ hl)
  · rw [List.isEmpty_iff]
    exact List.ne_nil_of_mem hl

/-- **A node that stands at a place of a tree is written in the text of the tree.** -/
theorem Criterion.Place.mem_nodeLexemes {n : Node} (hc : n.isConnective = false) {l : Lexeme}
    (hl : l ∈ n.lexemes d) (place : Criterion.Place) {nodes : List Node}
    (h : place.Locates n nodes) (alternatives started pendingOr : Bool) :
    l ∈ nodeLexemes d alternatives started pendingOr nodes := by
  -- from the inside out: the node is written in its group, and each group on its level
  induction place generalizing nodes alternatives started pendingOr with
  | among before behind =>
    obtain ⟨front, back, -, rfl⟩ := h
    exact mem_nodeLexemes_of_mem (by simp) hc hl alternatives started pendingOr
  | within before g inner behind ih =>
    obtain ⟨front, members, back, -, rfl, h⟩ := h
    have hg : Node.group g.junction members ∈ front ++ .group g.junction members :: back := by simp
    exact mem_nodeLexemes_of_mem hg rfl (Node.mem_lexemes_group (ih h _ _ _))
      alternatives started pendingOr

end QueryTree
