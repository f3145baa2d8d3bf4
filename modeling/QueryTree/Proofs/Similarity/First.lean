import QueryTree.Proofs.Build.Conditions
import QueryTree.Proofs.Condition.Invariant
import QueryTree.Proofs.Condition.Meaning

/-!
# The first similarity search

A statement and a request take the first similarity search of a query.  It is the first one in the
order of the tree, and that is the order in which searches are declared, those in groups included.

* `Node.searches` — the searches of a tree, in order.
* `Criterion.searches` — the searches that are declared.
* `Node.findIn?_eq_find?` — the first node that passes a test is the first in the order of the tree.
* `Query.vectorSearch?_eq_head?`, `Query.vectorSearch?_of_build` — the search that is taken.
-/

namespace QueryTree

/-! ### Trees -/

namespace Node

/-- The search that a node holds, with its field. -/
def search? : Node → Option (String × Search)
  | ⟨.search, field, some (.search s), _⟩ => some (field, s)
  | _ => none

/-- The searches of some trees, in order. -/
def searches (ns : List Node) : List (String × Search) := (walkAll ns).filterMap search?

theorem searches_append (ms ns : List Node) :
    searches (ms ++ ns) = searches ms ++ searches ns := by
  rw [searches, walkAll_append, List.filterMap_append]
  rfl

theorem searches_singleton {n : Node} (h : n.op ≠ .search) : searches [n] = searches n.subs := by
  obtain ⟨op, key, operand, subs⟩ := n
  have hn : search? ⟨op, key, operand, subs⟩ = none := by
    cases op <;> first | rfl | exact absurd rfl h
  rw [searches, walkAll, walkAll, List.append_nil, walk, List.filterMap_cons, hn]
  rfl

theorem searches_of_not_hasContent {ns : List Node} (h : hasContent ns = false) :
    searches ns = [] := by
  induction ns with
  | nil => rfl
  | cons n ns ih =>
    obtain ⟨rfl, h⟩ := eq_orMark_of_not_hasContent h
    rw [← List.singleton_append, searches_append, ih h]
    rfl

mutual

theorem find?_eq_find? (p : Node → Bool) (n : Node) : find? p n = n.walk.find? p := by
  obtain ⟨op, key, operand, subs⟩ := n
  rw [find?, walk, List.find?_cons, findIn?_eq_find? p subs]
  cases p ⟨op, key, operand, subs⟩ <;> rfl

theorem findIn?_eq_find? (p : Node → Bool) (ns : List Node) :
    findIn? p ns = (walkAll ns).find? p := by
  cases ns with
  | nil => rfl
  | cons n ns =>
    rw [findIn?, walkAll, List.find?_append, find?_eq_find? p n, findIn?_eq_find? p ns]
    cases n.walk.find? p <;> rfl

end

/-- A declared search has its parameters. -/
theorem Declared.operand_search {n : Node} (h : n.Declared) (ho : n.op = .search) :
    ∃ s, n.operand = some (.search s) := by
  cases h with
  | search field hv hl => exact ⟨_, rfl⟩
  | _ => cases ho

theorem search?_of_operand {n : Node} {s : Search} (ho : n.op = .search)
    (hs : n.operand = some (.search s)) : n.search? = some (n.key, s) := by
  obtain ⟨op, key, operand, subs⟩ := n
  cases ho
  cases hs
  rfl

theorem search?_of_op {n : Node} (ho : n.op ≠ .search) : n.search? = none := by
  unfold search?
  split
  · exact absurd rfl ho
  · rfl

/-- Among declared nodes the first search is the first node with the operator of one. -/
theorem findSome?_search? {ns : List Node} (h : ∀ n ∈ ns, n.Declared) :
    ns.findSome? search? = (ns.find? fun n => n.op == .search).bind search? := by
  induction ns with
  | nil => rfl
  | cons n ns ih =>
    obtain ⟨hn, hns⟩ := List.forall_mem_cons.1 h
    by_cases ho : n.op = .search
    · obtain ⟨s, hs⟩ := hn.operand_search ho
      rw [List.findSome?_cons, List.find?_cons, search?_of_operand ho hs, ho]
      exact (search?_of_operand ho hs).symm
    · have hb : (n.op == .search) = false := by simpa using ho
      rw [List.findSome?_cons, List.find?_cons, search?_of_op ho, hb]
      exact ih hns

end Node

/-- **A query takes the first search of its conditions.** -/
theorem Query.vectorSearch?_eq_head? {q : Query} (h : ∀ n ∈ q.conditions, n.Declared) :
    q.vectorSearch? = (Node.searches q.conditions).head? := by
  have hd := Node.Declared.walkAll q.conditions h
  rw [vectorSearch?, Node.findIn?_eq_find?, Node.searches, List.head?_filterMap,
    Node.findSome?_search? hd]
  cases hf : (Node.walkAll q.conditions).find? fun n => n.op == .search with
  | none => rfl
  -- the node that is found is declared, so it has the parameters of a search
  | some n =>
    obtain ⟨op, key, operand, subs⟩ := n
    have ho : op = .search := by simpa using List.find?_some hf
    obtain ⟨s, hs⟩ := (hd _ (List.mem_of_find?_eq_some hf)).operand_search ho
    cases ho
    cases hs
    rfl

/-! ### Declarations -/

mutual

/-- The searches that a criterion declares, with their fields; one without a vector declares
nothing. -/
def Criterion.searches : Criterion → List (String × Search)
  | .search field s => if s.vector.isEmpty then [] else [(field, s)]
  | .group _ body => Criterion.searchesAll body
  | .when (some true) (some body) => Criterion.searchesAll body
  | _ => []

/-- The searches that some criteria declare, in order. -/
def Criterion.searchesAll : List Criterion → List (String × Search)
  | [] => []
  | c :: cs => Criterion.searches c ++ Criterion.searchesAll cs

end

/-- The searches that an effect adds. -/
def Effect.searches : Effect → List (String × Search)
  | node n => Node.searches [n]
  | _ => []

theorem Draft.searches_apply {d : Draft} (h : d.misuse = none) (e : Effect) :
    Node.searches (d.apply e).nodes = Node.searches d.nodes ++ e.searches := by
  have hf : d.failed = false := by rw [Draft.failed, h]; rfl
  cases e with
  | node n => rw [apply, nodes_push hf, Node.searches_append, Effect.searches]
  | mark =>
    rw [show Effect.mark.searches = [] from rfl, List.append_nil, apply, pushOr]
    split
    · rfl
    · split
      · rfl
      · -- the bare "or" that is added holds nothing
        rw [nodes_push hf, Node.searches_append]
        exact List.append_nil _
  | nothing => exact (List.append_nil _).symm
  | misuse cause => exact (List.append_nil _).symm

theorem Effect.searches_ofGroup (j : Junction) (subs : List Node) :
    (ofGroup j (.ok subs)).searches = Node.searches subs := by
  rw [ofGroup]
  cases hc : Node.hasContent subs with
  | true => exact Node.searches_singleton fun h => by cases h
  | false => exact (Node.searches_of_not_hasContent hc).symm

namespace Criterion

theorem searches_effect_of_leaf {c : Criterion} (hs : c.op ≠ .search)
    (hg : c.op.isGroup = false) : c.effect.searches = [] := by
  cases he : c.effect with
  | node n =>
    have ho := op_of_effect he
    -- a sound node that is no group has no members
    have hn : n.subs = [] := by
      by_contra hne
      have := (declared_of_effect he).isSound.subs hne
      rw [ho, hg] at this
      cases this
    rw [Effect.searches, Node.searches_singleton (ho ▸ hs), hn]
    rfl
  | _ => rfl

/-- A group adds the searches of its body, which is built in a draft of its own. -/
theorem searches_effect_of_body (j : Junction) {body : List Criterion}
    (h : (Effect.ofGroup j (Node.build body)).misuse? = none)
    (hb : (Criterion.addAll .empty body).misuse = none →
      Node.searches (Criterion.addAll .empty body).nodes = searchesAll body) :
    (Effect.ofGroup j (Node.build body)).searches = searchesAll body := by
  cases hn : Node.build body with
  | error cause =>
    rw [hn] at h
    cases h
  | ok nodes =>
    obtain ⟨hm, rfl⟩ := Node.build_eq_ok_iff.1 hn
    rw [Effect.searches_ofGroup, hb hm]

mutual

/-- A criterion that is no misuse adds the searches that it declares. -/
theorem searches_effect (c : Criterion) (h : c.effect.misuse? = none) :
    c.effect.searches = c.searches := by
  cases c with
  | group j body => exact searches_effect_of_body j h (searches_addAll body)
  | when test body =>
    cases test with
    | none => rfl
    | some test =>
      cases body with
      | none => cases test <;> rfl
      | some body =>
        cases test with
        | false => rfl
        | true => exact searches_effect_of_body .all h (searches_addAll body)
  | search field s =>
    rw [effect] at h ⊢
    rw [searches]
    split
    · rfl
    · next hv =>
      rw [if_neg hv] at h
      split
      · next hl =>
        rw [if_pos hl] at h
        cases h
      · rfl
  | _ => exact searches_effect_of_leaf nofun rfl

theorem searches_addAll {d : Draft} (cs : List Criterion)
    (h : (Criterion.addAll d cs).misuse = none) :
    Node.searches (addAll d cs).nodes = Node.searches d.nodes ++ searchesAll cs := by
  cases cs with
  | nil => exact (List.append_nil _).symm
  | cons c cs =>
    rw [addAll] at h
    -- no misuse at the end, so none of `c` and none before it
    have hm := h
    rw [misuse_addAll, add_eq_apply, Draft.misuse_apply, Option.or_eq_none_iff,
      Option.or_eq_none_iff] at hm
    rw [addAll, searches_addAll cs h, add_eq_apply, Draft.searches_apply hm.1.1,
      searches_effect c hm.1.2, searchesAll, List.append_assoc]

end

end Criterion

/-- The searches that a description of a query declares, with their fields. -/
def Clause.searches (clauses : List Clause) : List (String × Search) :=
  Criterion.searchesAll (clauses.filterMap Clause.criterion?)

theorem Query.declared_conditions {clauses : List Clause} {q : Query}
    (h : Query.build clauses = .ok q) : ∀ n ∈ q.conditions, n.Declared := by
  obtain ⟨-, hn⟩ := Node.build_eq_ok_iff.1 (Query.build_eq_ok h)
  exact hn ▸ Criterion.declared_addAll Draft.all_empty (clauses.filterMap Clause.criterion?)

/-- **The search that is taken is the first one declared,** groups being looked into. -/
theorem Query.vectorSearch?_of_build {clauses : List Clause} {q : Query}
    (h : Query.build clauses = .ok q) : q.vectorSearch? = (Clause.searches clauses).head? := by
  obtain ⟨hm, hn⟩ := Node.build_eq_ok_iff.1 (Query.build_eq_ok h)
  rw [vectorSearch?_eq_head? (declared_conditions h), ← hn, Criterion.searches_addAll _ hm]
  rfl

end QueryTree
