import QueryTree.Proofs.Arguments.Style
import QueryTree.Proofs.Condition.Pruning
import QueryTree.Proofs.Mutation.Filtered
import QueryTree.Proofs.Nesting.Places

/-!
# What statements do not show

A similarity search and an extension are for the similarity backend.  A statement is the same
without them: they take no connective, no argument and no name, a bare "or" next to them keeps
its place, and a group of nothing else is not written either.

* `conditionPieces` — a level of a condition tree as it is written, lexeme by lexeme.
* `Statement.Alike` — clauses that are written alike.
* `Query.statement_pruned` — a query is written like the query without some of these nodes.
* `backend_nodes_invisible` — so is each statement of a query, an update or a deletion.
-/

namespace QueryTree

variable {d : Dialect}

/-! ### Levels -/

/-- The texts of the lexemes of a level. -/
def conditionPieces (d : Dialect) (alternatives started pendingOr : Bool) (ns : List Node) :
    List Fragment :=
  (nodeLexemes d alternatives started pendingOr ns).map Lexeme.pieces

/-- The texts of the lexemes of a node. -/
def Node.ownPieces (d : Dialect) (n : Node) : List Fragment := (n.lexemes d).map Lexeme.pieces

theorem conditionPieces_cons (alternatives started pendingOr : Bool) (n : Node) (ns : List Node) :
    conditionPieces d alternatives started pendingOr (n :: ns) =
      if n.isConnective then conditionPieces d alternatives started true ns
      else if (n.ownPieces d).isEmpty then conditionPieces d alternatives started pendingOr ns
      else
        (if started then [(joining alternatives pendingOr n.op).pieces] else []) ++
          n.ownPieces d ++ conditionPieces d alternatives true false ns := by
  rw [conditionPieces, nodeLexemes, Node.ownPieces, List.isEmpty_map]
  split
  · rfl
  · split
    · rfl
    · rw [List.map_append, List.map_append]
      cases started <;> rfl

theorem Node.ownPieces_group {j : Junction} {key : String} {operand : Option Operand}
    {subs : List Node} :
    ownPieces d ⟨.group j, key, operand, subs⟩ =
      if (conditionPieces d (j == .any) false false subs).isEmpty then []
      else [.text "("] :: conditionPieces d (j == .any) false false subs ++ [[.text ")"]] := by
  rw [ownPieces, lexemes_group, conditionPieces, List.isEmpty_map]
  split
  · rfl
  · rw [List.map_append]
    rfl

theorem Node.ownPieces_group_of_nil {j : Junction} {key : String} {operand : Option Operand}
    {subs : List Node}
    (h : ∀ alternatives, conditionPieces d alternatives false false subs = []) :
    ownPieces d ⟨.group j, key, operand, subs⟩ = [] := by
  rw [ownPieces_group, h, List.isEmpty_nil, if_pos rfl]

theorem Node.ownPieces_of_leaf {n : Node} (h : n.op.isGroup = false) :
    n.ownPieces d = if (n.text d).isVoid then [] else [n.text d] := by
  rw [ownPieces, lexemes_of_leaf h]
  split <;> rfl

theorem conditionPieces_of_not_hasContent {ns : List Node} (h : Node.hasContent ns = false)
    (alternatives started pendingOr : Bool) :
    conditionPieces d alternatives started pendingOr ns = [] := by
  induction ns generalizing pendingOr with
  | nil => rfl
  | cons n ns ih =>
    obtain ⟨rfl, h⟩ := Node.eq_orMark_of_not_hasContent h
    rw [conditionPieces_cons]
    exact ih h true

/-- A node that is not written leaves the level as it is. -/
theorem conditionPieces_cons_of_ownPieces {n : Node} (hc : n.isConnective = false)
    (hn : n.ownPieces d = []) (alternatives started pendingOr : Bool) (ns : List Node) :
    conditionPieces d alternatives started pendingOr (n :: ns) =
      conditionPieces d alternatives started pendingOr ns := by
  rw [conditionPieces_cons, hc, if_neg Bool.false_ne_true, hn, List.isEmpty_nil, if_pos rfl]

theorem conditionPieces_congr {n n' : Node} {ns ns' : List Node} (ho : n'.op = n.op)
    (hc : n'.isConnective = n.isConnective) (hn : n'.ownPieces d = n.ownPieces d)
    (hns : ∀ alternatives started pendingOr, conditionPieces d alternatives started pendingOr ns' =
      conditionPieces d alternatives started pendingOr ns) (alternatives started pendingOr : Bool) :
    conditionPieces d alternatives started pendingOr (n' :: ns') =
      conditionPieces d alternatives started pendingOr (n :: ns) := by
  simp only [conditionPieces_cons, ho, hc, hn, hns]

/-! ### Clauses -/

section

variable {condition condition' : List Lexeme}

theorem Lexeme.isEmpty_congr (h : condition'.map Lexeme.pieces = condition.map Lexeme.pieces) :
    condition'.isEmpty = condition.isEmpty := by
  rw [← List.isEmpty_map (f := Lexeme.pieces), h, List.isEmpty_map]

theorem clause_congr (h : condition'.map Lexeme.pieces = condition.map Lexeme.pieces)
    (word : String) : clause word condition' = clause word condition := by
  rw [clause, clause, Lexeme.isEmpty_congr h, List.flatMap_def, h, ← List.flatMap_def]

end

/-- Clauses that are written alike; their conditions may tell of different nodes. -/
structure Statement.Alike (s s' : Statement) : Prop where
  ctes : s'.ctes = s.ctes
  items : s'.items = s.items
  sources : s'.sources = s.sources
  bound : s'.bound = s.bound
  conditions : s'.conditions.map Lexeme.pieces = s.conditions.map Lexeme.pieces
  hasConnective : s'.hasConnective = s.hasConnective
  groups : s'.groups = s.groups
  having : s'.having.map Lexeme.pieces = s.having.map Lexeme.pieces
  unions : s'.unions = s.unions
  order : s'.order = s.order
  window : s'.window = s.window

namespace Statement.Alike

variable {s s' : Statement}

theorem boundConditions (h : s.Alike s') :
    s'.boundConditions.map Lexeme.pieces = s.boundConditions.map Lexeme.pieces := by
  rw [Statement.boundConditions, Statement.boundConditions, h.bound,
    Lexeme.isEmpty_congr h.conditions, h.hasConnective]
  split
  · exact h.conditions
  · split
    · rfl
    · split <;> simp only [List.map_append, List.map_cons, h.conditions]

theorem body (h : s.Alike s') {condition condition' : List Lexeme}
    (hc : condition'.map Lexeme.pieces = condition.map Lexeme.pieces) :
    s'.body condition' = s.body condition := by
  rw [Statement.body, Statement.body, h.sources, clause_congr hc, h.groups, clause_congr h.having,
    h.unions]

theorem plain (h : s.Alike s') (pagination : Pagination) :
    s'.plain pagination = s.plain pagination := by
  rw [Statement.plain, Statement.plain, h.ctes, h.items, h.body h.boundConditions, h.order,
    h.window]

theorem unordered (h : s.Alike s') : s'.unordered = s.unordered := by
  rw [Statement.unordered, Statement.unordered, h.ctes, h.items, h.body h.conditions]

theorem count (h : s.Alike s') : s'.count = s.count := by
  rw [Statement.count, Statement.count, h.ctes, h.body h.conditions]

end Statement.Alike

/-! ### Nodes -/

namespace Node

theorem ownPieces_of_isBackendOnly {n : Node} (h : n.op.isBackendOnly = true) :
    n.isConnective = false ∧ n.ownPieces d = [] := by
  have unwritten (hg : n.op.isGroup = false) (ht : n.text d = []) : n.ownPieces d = [] := by
    rw [ownPieces_of_leaf hg, ht]
    rfl
  obtain ⟨op, key, operand, subs⟩ := n
  cases op with
  | search => exact ⟨rfl, unwritten rfl (text_of_ne_subquery (by simp))⟩
  | extension => exact ⟨rfl, unwritten rfl (text_of_ne_subquery (by simp))⟩
  | _ => cases h

theorem ownPieces_subquery (key : String) (q : Query) (subs : List Node) :
    ownPieces d ⟨.subquery, key, some (.query q), subs⟩ =
      [.text (key ++ " ") :: Fragment.parenthesized ((q.statement d).plain d.pagination)] := by
  rw [ownPieces, lexemes_subquery]
  rfl

theorem isConnective_pruned {op : Op} {key : String} {operand operand' : Option Operand}
    {subs : List Node} (h : Operand.Pruned Op.isBackendOnly operand operand') :
    isConnective ⟨op, key, operand', subs⟩ = isConnective ⟨op, key, operand, subs⟩ := by
  cases h with
  | same => rfl
  | query h => rfl

/-- Bare "or"s stay where they are. -/
theorem any_isConnective_pruned {ns ns' : List Node} (h : Node.Pruned Op.isBackendOnly ns ns') :
    ns'.any isConnective = ns.any isConnective := by
  induction ns generalizing ns' with
  | nil =>
    cases h
    rfl
  | cons n ns ih =>
    cases h with
    | erased hn h =>
      rw [List.any_cons, (ownPieces_of_isBackendOnly (d := .default) hn).1]
      exact ih h
    -- a group is no connective, whatever it held
    | emptied hs hc h => exact ih h
    | group hs h =>
      rw [List.any_cons, List.any_cons, ih h]
      rfl
    | kept ho h => rw [List.any_cons, List.any_cons, isConnective_pruned ho, ih h]

end Node

/-! ### Queries -/

theorem Source.isEmpty_pruned {sources sources' : List Source}
    (h : Source.Pruned Op.isBackendOnly sources sources') : sources'.isEmpty = sources.isEmpty := by
  cases h <;> rfl

theorem UnionMember.isEmpty_pruned {unions unions' : List UnionMember}
    (h : UnionMember.Pruned Op.isBackendOnly unions unions') :
    unions'.isEmpty = unions.isEmpty := by
  cases h <;> rfl

theorem Cte.isEmpty_pruned {ctes ctes' : List Cte} (h : Cte.Pruned Op.isBackendOnly ctes ctes') :
    ctes'.isEmpty = ctes.isEmpty := by
  cases h <;> rfl

theorem Cte.any_recursive_pruned {ctes ctes' : List Cte}
    (h : Cte.Pruned Op.isBackendOnly ctes ctes') : ctes'.any recursive = ctes.any recursive := by
  induction ctes generalizing ctes' with
  | nil =>
    cases h
    rfl
  | cons c ctes ih =>
    cases h with
    | cons hq h => rw [List.any_cons, List.any_cons, ih h]

-- the recursion is over the query as it was; what is left of each part is read off the relation
mutual

/-- **A query is written like the query without some of these nodes.** -/
theorem Query.statement_pruned (q : Query) {q' : Query} (h : Query.Pruned Op.isBackendOnly q q') :
    (q.statement d).Alike (q'.statement d) := by
  obtain ⟨outline, sources, conditions, having, ctes, unions⟩ := q
  cases h with
  | mk hs hw hh hc hu =>
    rw [Query.statement, Query.statement]
    constructor
    · -- whether a clause is left out is seen from its lists, which keep their lengths
      show (if _ then _ else _) = (if _ then _ else _)
      rw [Cte.isEmpty_pruned hc, Cte.any_recursive_pruned hc, ctePieces_pruned ctes hc]
    · rfl
    · show (if _ then _ else _) = (if _ then _ else _)
      rw [Source.isEmpty_pruned hs, sourcePieces_pruned true sources hs]
    · rfl
    · exact conditionPieces_pruned conditions hw false false false
    · exact Node.any_isConnective_pruned hw
    · rfl
    · exact conditionPieces_pruned having hh false false false
    · exact unionPieces_pruned unions hu
    · rfl
    · rfl
termination_by structural q

theorem ctePieces_pruned (ctes : List Cte) {ctes' : List Cte}
    (h : Cte.Pruned Op.isBackendOnly ctes ctes') : ctePieces d ctes' = ctePieces d ctes := by
  cases ctes with
  | nil =>
    cases h
    rfl
  | cons c rest =>
    obtain ⟨name, recursive, q⟩ := c
    cases h with
    | cons hq h =>
      rw [ctePieces, ctePieces, (Query.statement_pruned q hq).plain, ctePieces_pruned rest h]
termination_by structural ctes

theorem constraintPieces_pruned (constraint : Option Constraint) {constraint' : Option Constraint}
    (h : Constraint.Pruned Op.isBackendOnly constraint constraint') :
    constraintPieces d constraint' = constraintPieces d constraint := by
  cases constraint with
  | none =>
    cases h
    rfl
  | some constraint =>
    cases constraint with
    | columns names =>
      cases h
      rfl
    | condition nodes =>
      cases h with
      | same => rfl
      | condition h => exact clause_congr (conditionPieces_pruned nodes h false false false) _
termination_by structural constraint

theorem sourcePieces_pruned (first : Bool) (sources : List Source) {sources' : List Source}
    (h : Source.Pruned Op.isBackendOnly sources sources') :
    sourcePieces d first sources' = sourcePieces d first sources := by
  cases sources with
  | nil =>
    cases h
    rfl
  | cons s rest =>
    obtain ⟨name, nickname, join, constraint, nested⟩ := s
    cases nested with
    | none =>
      cases h with
      | table hc h =>
        rw [sourcePieces, sourcePieces, constraintPieces_pruned constraint hc,
          sourcePieces_pruned false rest h]
    | some q =>
      cases h with
      | nested hc hq h =>
        rw [sourcePieces, sourcePieces, referencePieces, referencePieces,
          (Query.statement_pruned q hq).plain, constraintPieces_pruned constraint hc,
          sourcePieces_pruned false rest h]
termination_by structural sources

theorem unionPieces_pruned (unions : List UnionMember) {unions' : List UnionMember}
    (h : UnionMember.Pruned Op.isBackendOnly unions unions') :
    unionPieces d unions' = unionPieces d unions := by
  cases unions with
  | nil =>
    cases h
    rfl
  | cons u rest =>
    obtain ⟨keepsDuplicates, q⟩ := u
    cases h with
    | cons hq h =>
      rw [unionPieces, unionPieces, (Query.statement_pruned q hq).plain, unionPieces_pruned rest h]
termination_by structural unions

theorem Node.ownPieces_pruned (op : Op) (key : String) (operand : Option Operand)
    (subs : List Node) {operand' : Option Operand}
    (h : Operand.Pruned Op.isBackendOnly operand operand') :
    Node.ownPieces d ⟨op, key, operand', subs⟩ = Node.ownPieces d ⟨op, key, operand, subs⟩ := by
  cases operand with
  | none =>
    cases h
    rfl
  | some operand =>
    cases operand with
    | query q =>
      cases h with
      | same => rfl
      | query h =>
        cases op with
        -- a group does not look at its operand
        | group j => rfl
        | subquery =>
          rw [Node.ownPieces_subquery, Node.ownPieces_subquery, (Query.statement_pruned q h).plain]
        | _ =>
          rw [Node.ownPieces_of_leaf rfl, Node.ownPieces_of_leaf rfl]
          rfl
    | _ =>
      cases h
      rfl
termination_by structural operand

theorem conditionPieces_pruned (ns : List Node) {ns' : List Node}
    (h : Node.Pruned Op.isBackendOnly ns ns') (alternatives started pendingOr : Bool) :
    conditionPieces d alternatives started pendingOr ns' =
      conditionPieces d alternatives started pendingOr ns := by
  cases ns with
  | nil =>
    cases h
    rfl
  | cons n ns =>
    obtain ⟨op, key, operand, subs⟩ := n
    cases h with
    | erased hn h =>
      obtain ⟨hc, hn⟩ := Node.ownPieces_of_isBackendOnly (d := d) hn
      rw [conditionPieces_cons_of_ownPieces hc hn,
        conditionPieces_pruned ns h alternatives started pendingOr]
    | emptied hs hc h =>
      -- only bare "or"s are left of the members, so they were not written before, either
      have hempty (alternatives : Bool) : conditionPieces d alternatives false false subs = [] := by
        rw [← conditionPieces_pruned subs hs, conditionPieces_of_not_hasContent hc]
      rw [conditionPieces_cons_of_ownPieces rfl (Node.ownPieces_group_of_nil hempty),
        conditionPieces_pruned ns h alternatives started pendingOr]
    | group hs h =>
      refine conditionPieces_congr ?_ ?_ ?_ (conditionPieces_pruned ns h)
        alternatives started pendingOr
      · rfl
      · rfl
      · rw [Node.ownPieces_group, Node.ownPieces_group, conditionPieces_pruned subs hs]
    | kept ho h =>
      refine conditionPieces_congr ?_ ?_ ?_ (conditionPieces_pruned ns h)
        alternatives started pendingOr
      · rfl
      · exact Node.isConnective_pruned ho
      · exact Node.ownPieces_pruned op key operand subs ho
termination_by structural ns

end

theorem whereClause_pruned {conditions conditions' : List Node}
    (h : Node.Pruned Op.isBackendOnly conditions conditions') :
    whereClause d conditions' = whereClause d conditions :=
  clause_congr (conditionPieces_pruned conditions h false false false) _

theorem Query.countsSources_pruned {q q' : Query} (h : Query.Pruned Op.isBackendOnly q q') :
    q'.countsSources = q.countsSources := by
  cases h with
  | mk hs hw hh hc hu => rw [countsSources, countsSources, UnionMember.isEmpty_pruned hu]

theorem Query.toSelect_pruned {q q' : Query} (h : Query.Pruned Op.isBackendOnly q q') :
    q'.toSelect d = q.toSelect d := by
  rw [toSelect, toSelect, (statement_pruned q h).plain]

theorem Query.toCount_pruned {q q' : Query} (h : Query.Pruned Op.isBackendOnly q q') :
    q'.toCount d = q.toCount d := by
  rw [toCount, toCount, countsSources_pruned h, (statement_pruned q h).count,
    (statement_pruned q h).unordered]

/-- **What only the backend acts on is invisible to statements.**  In any dialect, a query has the
same text, arguments and names, and the same statement for the number of its rows, after any
similarity searches and extensions have been taken out of it at any depth, and with them groups in
which nothing but bare "or"s is left.  The same holds of updates and deletions. -/
theorem backend_nodes_invisible (d : Dialect) :
    (∀ q q', Query.Pruned Op.isBackendOnly q q' →
      q'.toSelect d = q.toSelect d ∧ q'.toCount d = q.toCount d) ∧
    (∀ (u : Update) (conditions : List Node),
      Node.Pruned Op.isBackendOnly u.conditions conditions →
        Update.compile d { u with conditions := conditions } = u.compile d) ∧
    ∀ (x : Delete) (conditions : List Node),
      Node.Pruned Op.isBackendOnly x.conditions conditions →
        Delete.compile d { x with conditions := conditions } = x.compile d := by
  refine ⟨fun q q' h => ⟨Query.toSelect_pruned h, Query.toCount_pruned h⟩, fun u conditions h => ?_,
    fun x conditions h => ?_⟩
  · rw [Update.compile, Update.compile, whereClause_pruned h]
  · rw [Delete.compile, Delete.compile, whereClause_pruned h]

/-- In the condition of a nested query, an extension and a group of extensions go, and another
extension stays; the bare "or" between the rest still counts. -/
theorem backend_nodes_invisible_of_group :
    let extension (key : String) : Node := ⟨.extension, key, some (.json (.bool true)), []⟩
    let x : Node := .ofValue (.compare .eq) "x" (.int 1)
    let y : Node := .ofValue (.compare .eq) "y" (.int 2)
    let full := [extension "k", x, .orMark, .group .any [extension "l", .orMark, extension "m"],
      extension "n", y]
    let left := [x, .orMark, extension "n", y]
    let query (conditions : List Node) : Query :=
      ⟨.empty, [⟨"t", none, none, none, none⟩], conditions, [], [], []⟩
    let nested (conditions : List Node) : Query :=
      query [⟨.subquery, "id IN", some (.query (query conditions)), []⟩]
    (Query.Pruned Op.isBackendOnly (nested full) (nested left) ∧
      Node.Pruned Op.isBackendOnly full left) ∧
    (nested full).toSelect .postgres = (nested left).toSelect .postgres ∧
    ((nested left).toSelect .postgres).sql =
      "SELECT * FROM t WHERE id IN (SELECT * FROM t WHERE x = $1 OR y = $2)" ∧
    Update.compile .postgres ⟨"t", [⟨"c", .null⟩], left⟩ =
      Update.compile .postgres ⟨"t", [⟨"c", .null⟩], full⟩ ∧
    Delete.compile .postgres ⟨"t", left⟩ = Delete.compile .postgres ⟨"t", full⟩ := by
  intro extension x y full left query nested
  have hgroup : Node.Pruned Op.isBackendOnly [extension "l", .orMark, extension "m"] [.orMark] :=
    .erased rfl (.kept .same (.erased rfl .nil))
  have hlevel : Node.Pruned Op.isBackendOnly full left :=
    .erased rfl (.kept .same (.kept .same (.emptied hgroup rfl (.kept .same (.kept .same .nil)))))
  have hinner : Query.Pruned Op.isBackendOnly (query full) (query left) :=
    .mk (.table .same .nil) hlevel .nil .nil .nil
  have hq : Query.Pruned Op.isBackendOnly (nested full) (nested left) :=
    .mk (.table .same .nil) (.kept (.query hinner) .nil) .nil .nil .nil
  obtain ⟨hqueries, hupdates, hdeletions⟩ := backend_nodes_invisible .postgres
  refine ⟨⟨hq, hlevel⟩, (hqueries _ _ hq).1.symm, by decide +kernel,
    hupdates ⟨"t", [⟨"c", .null⟩], full⟩ left hlevel, hdeletions ⟨"t", full⟩ left hlevel⟩

end QueryTree
