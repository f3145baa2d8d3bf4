import QueryTree.Proofs.Condition.Pruning
import QueryTree.Proofs.Nesting.Labels
import QueryTree.Proofs.Similarity.Chains
import QueryTree.Proofs.Similarity.First

/-!
# Extensions of a request

An extension is a field of the similarity request under a key of its own choice.  It replaces the
field of that key, or an earlier extension, and has no other effect: the filter, the window, the
vector and the threshold are those of the query without extensions.

* `Query.lastExtension?` — the last extension of a key in the order of the conditions.
* `Filter.ofNodes_pruned` — the filter does not depend on extensions.
* `Node.readAll_pruned` — neither do the other nodes that a request looks for.
* `Query.exists_toVectorJson_eq` — the fields of a request, key by key.
* `extensions_override` — what extensions do, and that they do nothing else.
-/

namespace QueryTree

/-- Fields of the similarity request that only the backend understands. -/
def Op.isExtension (op : Op) : Bool := op == .extension

/-! ### The filter -/

namespace Filter

theorem leaf?_pruned {p : Op → Bool} {operand operand' : Option Operand}
    (h : Operand.Pruned p operand operand') (op : Op) (key : String) :
    leaf? op key operand' = leaf? op key operand := by
  cases h with
  | same => rfl
  | query h =>
    cases op with
    | compare c => cases c <;> rfl
    | member m => cases m <;> rfl
    | null n => cases n <;> rfl
    | _ => rfl

theorem literals_of_not_hasContent {ns : List Node} (h : Node.hasContent ns = false) :
    literals ns = [] ∧ ∀ done pendingOr, chains done pendingOr ns = done := by
  induction ns with
  | nil => exact ⟨rfl, fun _ _ => rfl⟩
  | cons n ns ih =>
    obtain ⟨rfl, h⟩ := Node.eq_orMark_of_not_hasContent h
    obtain ⟨hliterals, hchains⟩ := ih h
    refine ⟨?_, fun done pendingOr => ?_⟩
    · rw [literals, hliterals]
      rfl
    · rw [chains_cons, hchains, hchains]
      rfl

/-- Two levels ask for the same, with bare "or"s in front of them or not. -/
def SameLevel (ns ns' : List Node) : Prop :=
  literals ns' = literals ns ∧
    ∀ done pendingOr, chains done pendingOr ns' = chains done pendingOr ns

theorem literal?_group (j : Junction) (key : String) (operand : Option Operand)
    (subs : List Node) :
    literal? ⟨.group j, key, operand, subs⟩ =
      let f := if j == .any then any (literals subs) else ofChains (chains [] false subs)
      if f.isEmpty then none else some ⟨true, .nested f⟩ := rfl

theorem literal?_of_leaf {op : Op} (h : op.isGroup = false) (key : String)
    (operand : Option Operand) (subs : List Node) :
    literal? ⟨op, key, operand, subs⟩ = leaf? op key operand := by
  cases op with
  | group j => cases h
  | _ => rfl

theorem SameLevel.cons_left {n : Node} {ns ns' : List Node} (h : SameLevel ns ns')
    (hc : n.isConnective = false) (hn : literal? n = none) : SameLevel (n :: ns) ns' := by
  refine ⟨?_, fun done pendingOr => ?_⟩
  · rw [literals, hn]
    exact h.1
  · rw [chains_cons, hc, if_neg Bool.false_ne_true, hn]
    exact h.2 done pendingOr

theorem SameLevel.cons {n n' : Node} {ns ns' : List Node} (h : SameLevel ns ns')
    (ho : n'.op = n.op) (hc : n'.isConnective = n.isConnective) (hn : literal? n' = literal? n) :
    SameLevel (n :: ns) (n' :: ns') := by
  refine ⟨?_, fun done pendingOr => ?_⟩
  · rw [literals, literals, hn, h.1]
  · simp only [chains_cons, ho, hc, hn, h.2]

theorem SameLevel.literal?_group {subs subs' : List Node} (h : SameLevel subs subs')
    (j : Junction) (key : String) (operand : Option Operand) :
    literal? ⟨.group j, key, operand, subs'⟩ = literal? ⟨.group j, key, operand, subs⟩ := by
  rw [Filter.literal?_group, Filter.literal?_group, h.1, h.2]

theorem literal?_group_of_not_hasContent {subs : List Node} (h : Node.hasContent subs = false)
    (j : Junction) (key : String) (operand : Option Operand) :
    literal? ⟨.group j, key, operand, subs⟩ = none := by
  obtain ⟨hliterals, hchains⟩ := literals_of_not_hasContent h
  rw [literal?_group, hliterals, hchains]
  cases j <;> rfl

/-- What a node asks for does not depend on the query that it holds. -/
theorem literal?_pruned {p : Op → Bool} {operand operand' : Option Operand}
    (h : Operand.Pruned p operand operand') (op : Op) (key : String) (subs : List Node) :
    literal? ⟨op, key, operand', subs⟩ = literal? ⟨op, key, operand, subs⟩ := by
  cases hg : op.isGroup with
  | false => rw [literal?_of_leaf hg, literal?_of_leaf hg, leaf?_pruned h]
  | true =>
    cases op with
    | group j => rfl
    | _ => cases hg

mutual

theorem sameLevel_subs (n : Node) {subs' : List Node}
    (h : Node.Pruned Op.isExtension n.subs subs') : SameLevel n.subs subs' := by
  obtain ⟨op, key, operand, subs⟩ := n
  exact sameLevel_pruned subs h

/-- **A level asks for the same without extensions.** -/
theorem sameLevel_pruned (ns : List Node) {ns' : List Node}
    (h : Node.Pruned Op.isExtension ns ns') : SameLevel ns ns' := by
  cases ns with
  | nil =>
    cases h
    exact ⟨rfl, fun _ _ => rfl⟩
  | cons n ns =>
    -- the members are those of the node as a whole: once it is opened, no recursion is seen there
    have hmembers {subs' : List Node} (hs : Node.Pruned Op.isExtension n.subs subs') :=
      sameLevel_subs n hs
    obtain ⟨op, key, operand, subs⟩ := n
    cases h with
    | erased hn h =>
      obtain rfl : op = .extension := eq_of_beq hn
      exact (sameLevel_pruned ns h).cons_left rfl rfl
    | emptied hs hc h =>
      refine (sameLevel_pruned ns h).cons_left rfl ?_
      rw [← (hmembers hs).literal?_group, literal?_group_of_not_hasContent hc]
    | group hs h => exact (sameLevel_pruned ns h).cons rfl rfl ((hmembers hs).literal?_group ..)
    | kept ho h =>
      refine (sameLevel_pruned ns h).cons rfl ?_ (literal?_pruned ho op key subs)
      cases ho <;> rfl

end

/-- The filter does not depend on extensions. -/
theorem ofNodes_pruned {ns ns' : List Node} (h : Node.Pruned Op.isExtension ns ns') :
    ofNodes ns' = ofNodes ns := by
  rw [ofNodes, ofNodes, (sameLevel_pruned ns h).2]

end Filter

/-! ### Other nodes -/

namespace Node

section

variable {α : Type} (test : Op → Bool) (read : Node → α)

/-- What is read off the nodes whose operators pass a test, in the order of the trees. -/
def readAll (ns : List Node) : List α := ((walkAll ns).filter fun n => test n.op).map read

theorem readAll_cons (n : Node) (ns : List Node) :
    readAll test read (n :: ns) =
      (if test n.op then [read n] else []) ++ readAll test read n.subs ++ readAll test read ns := by
  obtain ⟨op, key, operand, subs⟩ := n
  rw [readAll, walkAll, walk, List.filter_append, List.map_append, List.filter_cons]
  show List.map read (if test op then _ else _) ++ _ = (if test op then _ else _) ++ _ ++ _
  split <;> rfl

variable {test read}

theorem readAll_of_not_hasContent (ho : test .orMark = false) {ns : List Node}
    (h : hasContent ns = false) : readAll test read ns = [] := by
  induction ns with
  | nil => rfl
  | cons n ns ih =>
    obtain ⟨rfl, h⟩ := eq_orMark_of_not_hasContent h
    rw [readAll_cons, ih h]
    show (if test .orMark then _ else _) ++ _ ++ _ = _
    rw [ho]
    rfl

/-- What is read is not an extension, a group or a bare "or", and it may be anything of a node but
the query that it holds. -/
structure Reads (test : Op → Bool) (read : Node → α) : Prop where
  extension : test .extension = false
  group : ∀ j, test (.group j) = false
  orMark : test .orMark = false
  kept : ∀ {op key operand operand' subs}, Operand.Pruned Op.isExtension operand operand' →
    read ⟨op, key, operand', subs⟩ = read ⟨op, key, operand, subs⟩

mutual

theorem readAll_subs (hr : Reads test read) (n : Node) {subs' : List Node}
    (h : Node.Pruned Op.isExtension n.subs subs') (hd : ∀ m ∈ n.subs, m.Declared) :
    readAll test read subs' = readAll test read n.subs := by
  obtain ⟨op, key, operand, subs⟩ := n
  exact readAll_pruned hr subs h hd

/-- **The other nodes are found in the same order without extensions.** -/
theorem readAll_pruned (hr : Reads test read) (ns : List Node) {ns' : List Node}
    (h : Node.Pruned Op.isExtension ns ns') (hd : ∀ n ∈ ns, n.Declared) :
    readAll test read ns' = readAll test read ns := by
  cases ns with
  | nil =>
    cases h
    rfl
  | cons n ns =>
    obtain ⟨hn, hrest⟩ := List.forall_mem_cons.1 hd
    have hmembers {subs' : List Node} (hs : Node.Pruned Op.isExtension n.subs subs') :=
      readAll_subs hr n hs hn.subs
    obtain ⟨op, key, operand, subs⟩ := n
    cases h with
    | erased hp h =>
      obtain rfl : op = .extension := eq_of_beq hp
      obtain rfl : subs = [] := by cases hn; rfl
      rw [readAll_cons, readAll_pruned hr ns h hrest, hr.extension]
      rfl
    -- what is left of the group is bare "or"s, so there is nothing to read in it
    | emptied hs hc h =>
      rw [readAll_cons, ← hmembers hs, readAll_of_not_hasContent hr.orMark hc, hr.group,
        readAll_pruned hr ns h hrest]
      rfl
    | group hs h =>
      rw [readAll_cons, readAll_cons, hmembers hs, hr.group,
        readAll_pruned hr ns h hrest]
      rfl
    | kept ho h =>
      rw [readAll_cons, readAll_cons, hr.kept ho, readAll_pruned hr ns h hrest]

end

end

theorem map_findIn?_eq_head? {α : Type} (op : Op) (read : Node → α) (ns : List Node) :
    (findIn? (fun n => n.op == op) ns).map read =
      (readAll (fun o => o == op) read ns).head? := by
  rw [findIn?_eq_find?, readAll, List.head?_map, List.head?_filter]

theorem map_findIn?_pruned {α : Type} {op : Op} {read : Node → α}
    (hr : Reads (fun o => o == op) read) {ns ns' : List Node}
    (h : Node.Pruned Op.isExtension ns ns') (hd : ∀ n ∈ ns, n.Declared) :
    (findIn? (fun n => n.op == op) ns').map read = (findIn? (fun n => n.op == op) ns).map read := by
  rw [map_findIn?_eq_head?, map_findIn?_eq_head?, readAll_pruned hr ns h hd]

end Node

/-! ### Requests -/

/-- The threshold of a bound on a distance. -/
def Node.threshold? (n : Node) : Option Single :=
  match n.operand with
  | some (.distance d) => some d.threshold
  | _ => none

/-- The search of a node, with its field. -/
def Node.fieldSearch? (n : Node) : Option (String × Search) :=
  match n.operand with
  | some (.search s) => some (n.key, s)
  | _ => none

theorem Query.vectorSearch?_eq (q : Query) :
    q.vectorSearch? =
      ((Node.findIn? (fun n => n.op == .search) q.conditions).map Node.fieldSearch?).join := by
  rw [vectorSearch?]
  cases Node.findIn? (fun n => n.op == .search) q.conditions with
  | none => rfl
  | some n =>
    obtain ⟨op, key, operand, subs⟩ := n
    cases operand with
    | none => rfl
    | some operand => cases operand <;> rfl

theorem Request.thresholdOf_eq (conditions : List Node) :
    thresholdOf conditions =
      ((Node.findIn? (fun n => n.op == .distance) conditions).map Node.threshold?).join := by
  rw [thresholdOf]
  cases Node.findIn? (fun n => n.op == .distance) conditions with
  | none => rfl
  | some n =>
    obtain ⟨op, key, operand, subs⟩ := n
    cases operand with
    | none => rfl
    | some operand => cases operand <;> rfl

theorem Node.reads_fieldSearch? :
    Reads (fun op => op == .search) (fieldSearch? : Node → Option (String × Search)) where
  extension := rfl
  group _ := rfl
  orMark := rfl
  kept h := by cases h <;> rfl

theorem Node.reads_threshold? : Reads (fun op => op == .distance) threshold? where
  extension := rfl
  group _ := rfl
  orMark := rfl
  kept h := by cases h <;> rfl

/-- **A request has the same vector, window, filter, threshold and settings without extensions.** -/
theorem Request.ofQuery_pruned {q q' : Query} (h : Query.Pruned Op.isExtension q q')
    (hd : ∀ n ∈ q.conditions, n.Declared) : ofQuery q' = ofQuery q := by
  obtain ⟨outline, sources, conditions, having, ctes, unions⟩ := q
  cases h with
  | mk hs hw hh hc hu =>
    simp only [ofQuery, filterOf, Query.vectorSearch?_eq, thresholdOf_eq, Filter.ofNodes_pruned hw,
      Node.map_findIn?_pruned Node.reads_fieldSearch? hw hd,
      Node.map_findIn?_pruned Node.reads_threshold? hw hd]

/-! ### Fields -/

theorem KeyMap.entries_foldl_insert {α : Type} (added : List (String × α)) (m : KeyMap α) :
    (added.foldl (fun m e => m.insert e.1 e.2) m).entries = insertEntries added m.entries := by
  induction added generalizing m with
  | nil => rfl
  | cons e added ih => exact ih (m.insert e.1 e.2)

/-- A request is a map: its keys increase, and the last extension of a key comes first. -/
theorem Query.exists_toVectorJson_eq (q : Query) :
    ∃ entries, q.toVectorJson = .object entries ∧ Increasing entries ∧
      ∀ key, entryAt? key entries =
        ((q.extensions.reverse.find? fun e => e.1 == key).map Prod.snd).or
          (entryAt? key (Request.ofQuery q).fields) := by
  -- the fields are in order as well, so the extensions are added to a map
  obtain ⟨fields, hfields⟩ : ∃ m : KeyMap Json, m.entries = (Request.ofQuery q).fields :=
    ⟨_, KeyMap.entries_foldl_insert _ .empty⟩
  refine ⟨(q.extensions.foldl (fun m e => m.insert e.1 e.2) fields).entries, ?_,
    KeyMap.increasing _, fun key => ?_⟩
  · rw [KeyMap.entries_foldl_insert, hfields]
    rfl
  · rw [← hfields]
    exact KeyMap.get?_foldl_insert q.extensions fields key

/-! ### Extensions -/

namespace Node

/-- The extension that a node is. -/
def extension? : Node → Option (String × Json)
  | ⟨.extension, key, some (.json j), _⟩ => some (key, j)
  | _ => none

theorem extension?_of_op {n : Node} (h : n.op ≠ .extension) : n.extension? = none := by
  unfold extension?
  split
  · exact absurd rfl h
  · rfl

theorem Declared.extension? {n : Node} (h : n.Declared) (ho : n.op = .extension) :
    ∃ j, n.operand = some (.json j) ∧ n.extension? = some (n.key, j) := by
  cases h with
  | extension hk hj => exact ⟨_, rfl, rfl⟩
  | _ => cases ho

/-- Among declared nodes, the first extension of a key is the first node that is one. -/
theorem find?_filterMap_extension? {ns : List Node} (h : ∀ n ∈ ns, n.Declared) (key : String) :
    (ns.filterMap extension?).find? (fun e => e.1 == key) =
      (ns.find? fun n => n.op == .extension && n.key == key).bind extension? := by
  induction ns with
  | nil => rfl
  | cons n ns ih =>
    obtain ⟨hn, hns⟩ := List.forall_mem_cons.1 h
    by_cases ho : n.op = .extension
    · -- a declared extension has a value, so it is not passed over
      obtain ⟨j, -, hj⟩ := hn.extension? ho
      rw [List.filterMap_cons, hj, List.find?_cons, List.find?_cons, ih hns, ho]
      cases hk : n.key == key with
      | true => exact hj.symm
      | false => rfl
    · rw [List.filterMap_cons, extension?_of_op ho, List.find?_cons, ih hns,
        beq_false_of_ne ho]
      rfl

theorem Declared.subs_of_leaf {n : Node} (h : n.Declared) (hg : n.op.isGroup = false) :
    n.subs = [] := by
  cases h with
  | group j hs hc => cases hg
  | _ => rfl

mutual

theorem readAll_prune_subs {α : Type} (read : Node → α) (n : Node)
    (h : ∀ m ∈ n.subs, m.Declared) :
    readAll Op.isExtension read (Node.prune Op.isExtension n.subs) = [] := by
  obtain ⟨op, key, operand, subs⟩ := n
  exact readAll_prune read subs h

theorem readAll_prune {α : Type} (read : Node → α) (ns : List Node)
    (h : ∀ n ∈ ns, n.Declared) :
    readAll Op.isExtension read (Node.prune Op.isExtension ns) = [] := by
  cases ns with
  | nil => rfl
  | cons n ns =>
    obtain ⟨hn, hrest⟩ := List.forall_mem_cons.1 h
    have hmembers : readAll Op.isExtension read (Node.prune Op.isExtension n.subs) = [] :=
      readAll_prune_subs read n hn.subs
    cases hg : n.op.isGroup with
    | false =>
      rw [Node.prune_cons_of_leaf hg]
      split
      · exact readAll_prune read ns hrest
      · next hp =>
        rw [readAll_cons, readAll_prune read ns hrest, if_neg hp, hn.subs_of_leaf hg]
        rfl
    | true =>
      obtain ⟨op, key, operand, subs⟩ := n
      cases op with
      | group j =>
        -- a group is no extension, and stays if something stays in it
        have hp : ¬(Op.group j).isExtension = true := Bool.false_ne_true
        rw [Node.prune_cons_group, if_neg hp]
        split
        · rw [readAll_cons, readAll_prune read ns hrest, if_neg hp, hmembers]
          rfl
        · exact readAll_prune read ns hrest
      | _ => cases hg

end

end Node

namespace Query

/-- The last extension of a key in the order of the conditions, groups being looked into. -/
def lastExtension? (q : Query) (key : String) : Option Node :=
  (Node.walkAll q.conditions).reverse.find? fun n => n.op == .extension && n.key == key

theorem extensions_eq (q : Query) :
    q.extensions = (Node.walkAll q.conditions).filterMap Node.extension? := rfl

theorem find?_extensions {q : Query} (h : ∀ n ∈ q.conditions, n.Declared) (key : String) :
    q.extensions.reverse.find? (fun e => e.1 == key) =
      (q.lastExtension? key).bind Node.extension? := by
  rw [extensions_eq, ← List.filterMap_reverse, lastExtension?, Node.find?_filterMap_extension?]
  intro n hn
  exact Node.Declared.walkAll q.conditions h n (List.mem_reverse.1 hn)

theorem entry?_of_lastExtension {q : Query} (h : ∀ n ∈ q.conditions, n.Declared) {key : String}
    {n : Node} (hn : q.lastExtension? key = some n) :
    ∃ j, n.operand = some (.json j) ∧ q.toVectorJson.entry? key = some j := by
  have hmem : n ∈ Node.walkAll q.conditions :=
    List.mem_reverse.1 (List.mem_of_find?_eq_some hn)
  have htest := List.find?_some hn
  rw [Bool.and_eq_true] at htest
  obtain ⟨j, hj, he⟩ := (Node.Declared.walkAll q.conditions h n hmem).extension?
    (eq_of_beq htest.1)
  obtain ⟨entries, hq, -, hentries⟩ := q.exists_toVectorJson_eq
  refine ⟨j, hj, ?_⟩
  rw [hq, Json.entry?, hentries, find?_extensions h, hn, Option.bind_some, he]
  rfl

theorem entry?_of_no_extension {q : Query} (h : ∀ n ∈ q.conditions, n.Declared) {key : String}
    (hn : q.lastExtension? key = none) :
    q.toVectorJson.entry? key = entryAt? key (Request.ofQuery q).fields := by
  obtain ⟨entries, hq, -, hentries⟩ := q.exists_toVectorJson_eq
  rw [hq, Json.entry?, hentries, find?_extensions h, hn]
  rfl

theorem op_ne_extension_of_prune {q : Query} (h : ∀ n ∈ q.conditions, n.Declared) :
    ∀ n ∈ Node.walkAll (q.prune Op.isExtension).conditions, n.op ≠ .extension := by
  obtain ⟨outline, sources, conditions, having, ctes, unions⟩ := q
  have hnone := Node.readAll_prune id conditions h
  rw [Node.readAll, List.map_id, List.filter_eq_nil_iff] at hnone
  exact fun n hn ho => hnone n hn (beq_iff_eq.2 ho)

theorem extensions_prune {q : Query} (h : ∀ n ∈ q.conditions, n.Declared) :
    (q.prune Op.isExtension).extensions = [] := by
  rw [extensions_eq, List.filterMap_eq_nil_iff]
  exact fun n hn => Node.extension?_of_op (op_ne_extension_of_prune h n hn)

theorem toVectorJson_of_no_extensions {q : Query} (h : q.extensions = []) :
    q.toVectorJson = .object (Request.ofQuery q).fields := by
  rw [toVectorJson, h]
  rfl

end Query

/-- **An extension replaces the field of its key and does nothing else.**  The request of a query
that is built is an object without repeated keys.  Under the key of an extension among the
conditions, at any depth, it has the value of the last one of that key; under any other key it has
what it has after all extensions have been taken out of the query, or nothing.  Whatever extensions
are taken out, the vector, the window, the filter, the threshold and the settings stay the same; and
the request does, too, if those among the conditions stay. -/
theorem extensions_override {clauses : List Clause} {q : Query} (h : Query.build clauses = .ok q) :
    (∃ entries, q.toVectorJson = .object entries ∧ Increasing entries) ∧
    (∀ key n, q.lastExtension? key = some n →
      ∃ j, n.operand = some (.json j) ∧ q.toVectorJson.entry? key = some j) ∧
    (Query.Pruned Op.isExtension q (q.prune Op.isExtension) ∧
      (∀ n ∈ Node.walkAll (q.prune Op.isExtension).conditions, n.op ≠ .extension) ∧
      ∀ key, q.lastExtension? key = none →
        q.toVectorJson.entry? key = (q.prune Op.isExtension).toVectorJson.entry? key) ∧
    ∀ q', Query.Pruned Op.isExtension q q' →
      Request.ofQuery q' = Request.ofQuery q ∧
      (q'.extensions = q.extensions → q'.toVectorJson = q.toVectorJson) := by
  have hd := Query.declared_conditions h
  obtain ⟨entries, hq, hincreasing, -⟩ := q.exists_toVectorJson_eq
  refine ⟨⟨entries, hq, hincreasing⟩, fun key n hn => Query.entry?_of_lastExtension hd hn,
    ⟨q.pruned_prune, Query.op_ne_extension_of_prune hd, fun key hn => ?_⟩, fun q' hp => ?_⟩
  · rw [Query.entry?_of_no_extension hd hn,
      Query.toVectorJson_of_no_extensions (Query.extensions_prune hd),
      Request.ofQuery_pruned q.pruned_prune hd]
    rfl
  · -- the request is read off the conditions before extensions are put into it
    have hr := Request.ofQuery_pruned hp hd
    refine ⟨hr, fun he => ?_⟩
    rw [Query.toVectorJson, Query.toVectorJson, he, hr]

/-- The limit is replaced twice, the second time in a group of nothing else; an extension among the
conditions on the groups and one in a nested query have no effect. -/
theorem extensions_override_of_limit :
    let extension (key text : String) : Node := ⟨.extension, key, some (.json (.string text)), []⟩
    let query (name : String) (limit : Option UInt64) (conditions having : List Node) : Query :=
      ⟨{ Outline.empty with limit := limit }, [⟨name, none, none, none, none⟩], conditions, having,
        [], []⟩
    let q := query "t" (some 3)
      [extension "limit" "a", .ofValue (.compare .eq) "x" (.int 1),
        .group .any [extension "limit" "b"],
        ⟨.subquery, "id IN", some (.query (query "s" none [extension "m" "c"] [])), []⟩]
      [extension "k" "d"]
    let q' := query "t" (some 3)
      [extension "limit" "a", .ofValue (.compare .eq) "x" (.int 1),
        .group .any [extension "limit" "b"],
        ⟨.subquery, "id IN", some (.query (query "s" none [] [])), []⟩] []
    (Query.build [.source "t", .limit 3, .criterion (.extension "limit" (.string "a")),
        .criterion (.compare .eq "x" (.int 1)),
        .criterion (.group .any [.or, .extension "limit" (.string "b")]),
        .criterion (.subquery "id IN" [.source "s", .criterion (.extension "m" (.string "c"))]),
        .having [.extension "k" (.string "d")]] = .ok q ∧
      q.lastExtension? "limit" = some (extension "limit" "b") ∧
      q.lastExtension? "k" = none ∧ Query.Pruned Op.isExtension q q') ∧
    q.toVectorJson.entry? "limit" = some (.string "b") ∧
    q.toVectorJson.entry? "k" = (q.prune Op.isExtension).toVectorJson.entry? "k" ∧
    q'.toVectorJson = q.toVectorJson := by
  intro extension query q q'
  have hq : Query.build [.source "t", .limit 3, .criterion (.extension "limit" (.string "a")),
      .criterion (.compare .eq "x" (.int 1)),
      .criterion (.group .any [.or, .extension "limit" (.string "b")]),
      .criterion (.subquery "id IN" [.source "s", .criterion (.extension "m" (.string "c"))]),
      .having [.extension "k" (.string "d")]] = .ok q := rfl
  have hlimit : q.lastExtension? "limit" = some (extension "limit" "b") := rfl
  have hk : q.lastExtension? "k" = none := rfl
  have hp : Query.Pruned Op.isExtension q q' :=
    .mk (.table .same .nil) (.kept .same (.kept .same (.kept .same (.kept (.query
      (.mk (.table .same .nil) (.erased rfl .nil) .nil .nil .nil)) .nil)))) (.erased rfl .nil)
      .nil .nil
  obtain ⟨-, hlast, ⟨-, -, hother⟩, hsame⟩ := extensions_override hq
  obtain ⟨j, hj, hentry⟩ := hlast "limit" _ hlimit
  cases hj
  exact ⟨⟨hq, hlimit, hk, hp⟩, hentry, hother "k" hk, (hsame q' hp).2 rfl⟩

end QueryTree
