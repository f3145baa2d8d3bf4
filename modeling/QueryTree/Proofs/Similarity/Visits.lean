import Mathlib.Logic.Relation
import QueryTree.Proofs.Similarity.Extensions
import QueryTree.Sql.Select

/-!
# Visits and searches

A visit calls at every node of a tree; a search stops at the first node that passes a test.  They are
two recursions, and they go the same way: each node before its members, and its members in order.
What is taken from the conditions of a query is therefore taken from the first node that a visit
meets.  Neither looks into the queries that nodes hold.

* `Node.visitAll_eq_foldl` — a visit folds the nodes of the walk.
* `Node.mem_walkAll_iff` — the nodes of the walk are those to which members lead.
* `Node.findIn?_eq_some_iff`, `Node.countOp_pos_iff` — what a search finds, and what a count tells.
* `Node.SameOutside`, `Node.SameOutside.map_view` — trees that differ in the queries they hold.
* `Query.takes_first_visited` — what the conditions give to both emitters.
-/

namespace QueryTree

namespace Node

/-! ### Visits -/

theorem walkAll_eq_flatMap (ns : List Node) : walkAll ns = ns.flatMap walk := by
  induction ns with
  | nil => rfl
  | cons n ns ih => rw [walkAll, ih, List.flatMap_cons]

section

variable {σ : Type} (f : σ → Node → σ)

mutual

theorem visit_eq_foldl (s : σ) (n : Node) : visit f s n = n.walk.foldl f s := by
  obtain ⟨op, key, operand, subs⟩ := n
  rw [visit, walk, List.foldl_cons, visitAll_eq_foldl _ subs]

theorem visitAll_eq_foldl (s : σ) (ns : List Node) : visitAll f s ns = (walkAll ns).foldl f s := by
  cases ns with
  | nil => rfl
  | cons n ns =>
    rw [visitAll, walkAll, List.foldl_append, visit_eq_foldl s n, visitAll_eq_foldl _ ns]

end

end

theorem countOp_eq_countP (op : Op) (ns : List Node) :
    countOp op ns = (walkAll ns).countP fun n => n.op == op := by
  -- the count of a visit goes on from `k`
  have hcount (k : Nat) (ms : List Node) :
      ms.foldl (fun k n => if n.op == op then k + 1 else k) k =
        k + ms.countP fun n => n.op == op := by
    induction ms generalizing k with
    | nil => rfl
    | cons m ms ih =>
      rw [List.foldl_cons, ih, List.countP_cons]
      split <;> omega
  rw [countOp, visitAll_eq_foldl, hcount, Nat.zero_add]

/-! ### The nodes of the walk -/

theorem self_mem_walk (n : Node) : n ∈ n.walk := by
  obtain ⟨op, key, operand, subs⟩ := n
  exact List.mem_cons_self

theorem mem_walk_of_mem_subs {m n root : Node} (hm : m ∈ root.subs) (hn : n ∈ m.walk) :
    n ∈ root.walk := by
  obtain ⟨op, key, operand, subs⟩ := root
  rw [walk, walkAll_eq_flatMap]
  exact List.mem_cons_of_mem _ (List.mem_flatMap.2 ⟨m, hm, hn⟩)

/-- Members lead from one node to another, at any depth. -/
def LeadsTo : Node → Node → Prop := Relation.ReflTransGen fun m n => n ∈ m.subs

mutual

theorem leadsTo_of_mem_walk (root : Node) : ∀ n ∈ root.walk, root.LeadsTo n := by
  obtain ⟨op, key, operand, subs⟩ := root
  intro n hn
  rcases List.mem_cons.1 hn with rfl | hn
  · exact .refl
  · obtain ⟨m, hm, hmn⟩ := leadsTo_of_mem_walkAll subs n hn
    exact .head hm hmn

theorem leadsTo_of_mem_walkAll (ns : List Node) :
    ∀ n ∈ walkAll ns, ∃ root ∈ ns, root.LeadsTo n := by
  cases ns with
  | nil => nofun
  | cons m ns =>
    intro n hn
    rcases List.mem_append.1 hn with hn | hn
    · exact ⟨m, List.mem_cons_self, leadsTo_of_mem_walk m n hn⟩
    · obtain ⟨root, hroot, hn⟩ := leadsTo_of_mem_walkAll ns n hn
      exact ⟨root, List.mem_cons_of_mem _ hroot, hn⟩

end

theorem mem_walk_of_leadsTo {root n : Node} (h : root.LeadsTo n) : n ∈ root.walk := by
  induction h using Relation.ReflTransGen.head_induction_on with
  | refl => exact n.self_mem_walk
  | head hm _ ih => exact mem_walk_of_mem_subs hm ih

/-- **The nodes of the walk are those to which members lead.** -/
theorem mem_walkAll_iff {ns : List Node} {n : Node} :
    n ∈ walkAll ns ↔ ∃ root ∈ ns, root.LeadsTo n := by
  refine ⟨leadsTo_of_mem_walkAll ns n, ?_⟩
  rintro ⟨root, hroot, hn⟩
  rw [walkAll_eq_flatMap, List.mem_flatMap]
  exact ⟨root, hroot, mem_walk_of_leadsTo hn⟩

/-! ### Searches -/

theorem findIn?_eq_some_iff {p : Node → Bool} {ns : List Node} {n : Node} :
    findIn? p ns = some n ↔
      p n = true ∧ ∃ before after, walkAll ns = before ++ n :: after ∧ ∀ m ∈ before, p m = false := by
  rw [findIn?_eq_find?, List.find?_eq_some_iff_append]
  simp

theorem findIn?_eq_none_iff {p : Node → Bool} {ns : List Node} :
    findIn? p ns = none ↔ ∀ n ∈ walkAll ns, p n = false := by
  rw [findIn?_eq_find?, List.find?_eq_none]
  simp

theorem countOp_pos_iff {op : Op} {ns : List Node} :
    0 < countOp op ns ↔ (findIn? (fun n => n.op == op) ns).isSome = true := by
  rw [countOp_eq_countP, List.countP_pos_iff, findIn?_eq_find?, List.find?_isSome]

/-! ### Queries that nodes hold -/

/-- Two lists of trees that differ at most in the queries that their nodes hold. -/
inductive SameOutside : List Node → List Node → Prop
  | nil : SameOutside [] []
  | cons {op : Op} {key : String} {operand : Option Operand} {subs subs' ns ns' : List Node}
    (hs : SameOutside subs subs') (h : SameOutside ns ns') :
    SameOutside (⟨op, key, operand, subs⟩ :: ns) (⟨op, key, operand, subs'⟩ :: ns')
  | query {op : Op} {key : String} {q q' : Query} {subs subs' ns ns' : List Node}
    (hs : SameOutside subs subs') (h : SameOutside ns ns') :
    SameOutside (⟨op, key, some (.query q), subs⟩ :: ns) (⟨op, key, some (.query q'), subs'⟩ :: ns')

/-- What a request or a statement of what is nearest looks at in a node. -/
def view (n : Node) : Op × Option (String × Search) × Option Single :=
  (n.op, n.fieldSearch?, n.threshold?)

theorem SameOutside.map_view {ns ns' : List Node} (h : SameOutside ns ns') :
    (walkAll ns').map view = (walkAll ns).map view := by
  induction h with
  | nil => rfl
  | cons _ _ hs h | query _ _ hs h =>
    rw [walkAll, walkAll, walk, walk, List.map_append, List.map_append, List.map_cons,
      List.map_cons, hs, h]
    rfl

/-- The first node with an operator, as far as it is looked at. -/
theorem SameOutside.map_find? {ns ns' : List Node} (h : SameOutside ns ns') (op : Op) :
    ((walkAll ns').find? fun n => n.op == op).map view =
      ((walkAll ns).find? fun n => n.op == op).map view := by
  have hview (ms : List Node) : (ms.find? fun n => n.op == op).map view =
      (ms.map view).find? fun v => v.1 == op := by
    rw [List.find?_map]
    rfl
  rw [hview, hview, h.map_view]

/-- **A search stops where a visit first meets what is searched for.**  A visit calls at the nodes of
the trees in the order of the walk, and at those only to which members lead. -/
structure SearchedAsVisited (ns : List Node) : Prop where
  visited : ∀ (σ : Type) (f : σ → Node → σ) (s : σ),
    visitAll f s ns = (ns.flatMap walk).foldl f s
  reached : ∀ n, n ∈ ns.flatMap walk ↔ ∃ root ∈ ns, root.LeadsTo n
  found : ∀ p n, findIn? p ns = some n ↔
    p n = true ∧ ∃ before after, ns.flatMap walk = before ++ n :: after ∧ ∀ m ∈ before, p m = false
  missing : ∀ p, findIn? p ns = none ↔ ∀ n ∈ ns.flatMap walk, p n = false
  counted : ∀ op, 0 < countOp op ns ↔ (findIn? (fun n => n.op == op) ns).isSome = true

theorem searchedAsVisited (ns : List Node) : SearchedAsVisited ns where
  visited _ f s := walkAll_eq_flatMap ns ▸ visitAll_eq_foldl f s ns
  reached _ := walkAll_eq_flatMap ns ▸ mem_walkAll_iff
  found _ _ := walkAll_eq_flatMap ns ▸ findIn?_eq_some_iff
  missing _ := walkAll_eq_flatMap ns ▸ findIn?_eq_none_iff
  counted _ := countOp_pos_iff

end Node

/-! ### What the conditions give to the emitters -/

namespace Query

/-- The statement of what is nearest and the request take this search, with its field, and the
request this threshold. -/
structure Takes (q : Query) (search? : Option (String × Search)) (threshold? : Option Single) :
    Prop where
  nearest : ∀ d, q.toVectorSearch d =
    match search? with
    | some (field, s) => .ok (((q.statement d).nearest d.pagination field s).compile d)
    | none => .error .noVectorSearch
  request : q.toVectorJson = .object (insertEntries q.extensions (Request.fields
    { vector := search?.map fun s => s.2.vector
      limit := search?.elim q.outline.window.limit fun s => some s.2.fetchLimit
      offset := q.outline.window.offset
      filter := Request.filterOf q
      withPayload := search?.elim true fun s => s.2.withPayload
      scoreThreshold := threshold?
      params := search?.bind fun s => Request.paramsOf s.2 }))

theorem takes (q : Query) : q.Takes q.vectorSearch? (Request.thresholdOf q.conditions) where
  nearest _ := rfl
  request := by
    rw [toVectorJson, Request.ofQuery]
    cases q.vectorSearch? <;> rfl

/-- The first node with an operator that a visit to the conditions meets. -/
def firstVisited? (q : Query) (op : Op) : Option Node :=
  (q.conditions.flatMap Node.walk).find? fun n => n.op == op

theorem findIn?_conditions (q : Query) (op : Op) :
    Node.findIn? (fun n => n.op == op) q.conditions = q.firstVisited? op := by
  rw [Node.findIn?_eq_find?, Node.walkAll_eq_flatMap, firstVisited?]

theorem vectorSearch?_eq_bind (q : Query) :
    q.vectorSearch? = (q.firstVisited? .search).bind Node.fieldSearch? := by
  rw [vectorSearch?_eq, findIn?_conditions]
  cases q.firstVisited? .search <;> rfl

theorem thresholdOf_eq_bind (q : Query) :
    Request.thresholdOf q.conditions = (q.firstVisited? .distance).bind Node.threshold? := by
  rw [Request.thresholdOf_eq, findIn?_conditions]
  cases q.firstVisited? .distance <;> rfl

/-- What is read off the first node does not depend on the queries that nodes hold. -/
theorem bind_firstVisited? {α : Type} {q q' : Query}
    (h : Node.SameOutside q.conditions q'.conditions) (op : Op)
    (read : Op × Option (String × Search) × Option Single → Option α) :
    (q'.firstVisited? op).bind (read ∘ Node.view) =
      (q.firstVisited? op).bind (read ∘ Node.view) := by
  have hview := h.map_find? op
  rw [Node.walkAll_eq_flatMap, Node.walkAll_eq_flatMap] at hview
  rw [← Option.bind_map, ← Option.bind_map, firstVisited?, firstVisited?, hview]

/-- **What is taken from the conditions is taken from the first node that a visit meets.**  Searches
go the way of visits.  The search of both emitters is that of the first such node and the threshold
of the request is that of the first bound on a distance, whatever the queries are that the nodes
hold. -/
theorem takes_first_visited (q : Query) :
    (∀ ns, Node.SearchedAsVisited ns) ∧
    q.Takes ((q.firstVisited? .search).bind Node.fieldSearch?)
      ((q.firstVisited? .distance).bind Node.threshold?) ∧
    ∀ q' : Query, Node.SameOutside q.conditions q'.conditions →
      q'.Takes ((q.firstVisited? .search).bind Node.fieldSearch?)
        ((q.firstVisited? .distance).bind Node.threshold?) := by
  -- both emitters take what is read off the first nodes of the visit
  have hq (q : Query) : q.Takes ((q.firstVisited? .search).bind Node.fieldSearch?)
      ((q.firstVisited? .distance).bind Node.threshold?) := by
    rw [← vectorSearch?_eq_bind, ← thresholdOf_eq_bind]
    exact q.takes
  refine ⟨Node.searchedAsVisited, hq q, fun q' h => ?_⟩
  have hsearch : (q'.firstVisited? .search).bind Node.fieldSearch? =
      (q.firstVisited? .search).bind Node.fieldSearch? :=
    bind_firstVisited? h .search fun v => v.2.1
  have hthreshold : (q'.firstVisited? .distance).bind Node.threshold? =
      (q.firstVisited? .distance).bind Node.threshold? :=
    bind_firstVisited? h .distance fun v => v.2.2
  rw [← hsearch, ← hthreshold]
  exact hq q'

/-- A search in a nested query comes first in the text, and one next to the groups is closer to the
root; what is taken stands in a group of a group. -/
theorem takes_first_visited_of_group :
    let near : Search := .new [.ofInt .single 1] 4
    let far : Search := .new [.ofInt .single 2] 9
    let bound : Distance := .new [.ofInt .single 1] (.ofInt .single 3)
    let search (field : String) (s : Search) : Node := ⟨.search, field, some (.search s), []⟩
    let query (conditions : List Node) : Query := ⟨.empty, [], conditions, [], [], []⟩
    let outer (inner : Query) : Query :=
      query [⟨.subquery, "id IN", some (.query inner), []⟩,
        .group .any [.group .all [search "a" near,
          ⟨.distance, "a", some (.distance bound), []⟩]],
        search "b" far]
    let q := outer (query [search "c" far])
    let q' := outer (query [])
    Node.SameOutside q.conditions q'.conditions ∧
      q'.Takes (some ("a", near)) (some (.ofInt .single 3)) := by
  intro near far bound search query outer q q'
  have h : Node.SameOutside q.conditions q'.conditions :=
    .query .nil (.cons (.cons (.cons .nil (.cons .nil .nil)) .nil) (.cons .nil .nil))
  exact ⟨h, (takes_first_visited q).2.2 q' h⟩

end Query

end QueryTree
