import QueryTree.Proofs.Finite.Shown

/-!
# Values that queries and writes show

Which values a whole statement shows is collected from the tree, clause by clause and through all
nested queries, in the order in which the statement shows them.

* `Query.shown`, `Node.shown` — the values of a query and of a condition tree.
* `Query.shownCount`, `Query.shownNearest` — those of the two other statements of a query.
* `Insert.shown`, `Update.shown`, `Delete.shown` — those of writes.
* `Query.showsAll` — the clauses of a query show its values.
* `Compiled.Displays` — a statement shows some values.
* `Query.displays_toSelect`, `Insert.displays_compile` and so on — which values each statement shows.
-/

namespace QueryTree

variable {d : Dialect}

/-! ### The values of a query -/

/-- The value of the bound of the paging. -/
def boundShown (o : Outline) : List Shown := o.bound?.toList.map fun b => ⟨.normalized, b.value⟩

mutual

/-- The values that a query shows. -/
def Query.shown : Query → List Shown
  | ⟨outline, sources, conditions, having, ctes, unions⟩ =>
    cteShown ctes ++ sourceShown sources ++ boundShown outline ++ nodeShown conditions ++
      nodeShown having ++ unionShown unions

/-- The values of the named queries in front. -/
def cteShown : List Cte → List Shown
  | [] => []
  | ⟨_, _, q⟩ :: rest => q.shown ++ cteShown rest

/-- The values of a nested query. -/
def nestedShown : Option Query → List Shown
  | some q => q.shown
  | none => []

/-- The values of the constraint of a join. -/
def constraintShown : Option Constraint → List Shown
  | some (.condition nodes) => nodeShown nodes
  | _ => []

/-- The values of the sources; only a join that is no list has a constraint. -/
def sourceShown : List Source → List Shown
  | [] => []
  | ⟨_, _, join, constraint, nested⟩ :: rest =>
    nestedShown nested ++ (if join.all (· == .comma) then [] else constraintShown constraint) ++
      sourceShown rest

/-- The values of the further members of a union. -/
def unionShown : List UnionMember → List Shown
  | [] => []
  | ⟨_, q⟩ :: rest => q.shown ++ unionShown rest

/-- The values of a node. -/
def Node.shown : Node → List Shown
  | ⟨op, key, operand, subs⟩ =>
    match op, operand with
    | .group _, _ => nodeShown subs
    | .subquery, some (.query q) => q.shown
    | op, operand => leafShown op key operand

/-- The values of one level of a condition tree. -/
def nodeShown : List Node → List Shown
  | [] => []
  | n :: ns => n.shown ++ nodeShown ns

end

/-- The values of a source; only a join that is no list has a constraint. -/
def Source.shown (s : Source) : List Shown :=
  nestedShown s.nested ++ if s.join.all (· == .comma) then [] else constraintShown s.constraint

theorem cteShown_eq_flatMap (ctes : List Cte) :
    cteShown ctes = ctes.flatMap fun c => c.query.shown := by
  induction ctes with
  | nil => rfl
  | cons c rest ih =>
    obtain ⟨name, recursive, q⟩ := c
    rw [cteShown, ih, List.flatMap_cons]

theorem sourceShown_eq_flatMap (sources : List Source) :
    sourceShown sources = sources.flatMap Source.shown := by
  induction sources with
  | nil => rfl
  | cons s rest ih =>
    obtain ⟨name, nickname, join, constraint, nested⟩ := s
    rw [sourceShown, ih, List.flatMap_cons]
    rfl

theorem unionShown_eq_flatMap (unions : List UnionMember) :
    unionShown unions = unions.flatMap fun u => u.query.shown := by
  induction unions with
  | nil => rfl
  | cons u rest ih =>
    obtain ⟨keepsDuplicates, q⟩ := u
    rw [unionShown, ih, List.flatMap_cons]

theorem nodeShown_eq_flatMap (nodes : List Node) :
    nodeShown nodes = nodes.flatMap Node.shown := by
  induction nodes with
  | nil => rfl
  | cons n ns ih => rw [nodeShown, ih, List.flatMap_cons]

namespace Query

/-- The values of the statement that gives the number of rows, where the bound is left out. -/
def shownCount (q : Query) : List Shown :=
  cteShown q.ctes ++ sourceShown q.sources ++ nodeShown q.conditions ++ nodeShown q.having ++
    unionShown q.unions

/-- The values of the statement that gives the rows nearest to the vector of a search. -/
def shownNearest (q : Query) (search : Search) : List Shown :=
  cteShown q.ctes ++ [⟨.given, .vector search.vector⟩] ++ sourceShown q.sources ++
    boundShown q.outline ++ nodeShown q.conditions ++ nodeShown q.having ++ unionShown q.unions

end Query

/-! ### The values of writes -/

/-- The value of an assignment; a vector is assigned as it was given. -/
def Assigned.shown : Assigned → List Shown
  | value (.vector xs) => [⟨.given, .vector xs⟩]
  | value v => [⟨.normalized, v⟩]
  | _ => []

/-- The values of some assignments. -/
def assignedShown (assignments : List Assignment) : List Shown :=
  (assignments.map fun a => a.assigned.shown).flatten

/-- The values that an insertion shows. -/
def Insert.shown (i : Insert) : List Shown := assignedShown i.assignments

/-- The values that an update shows. -/
def Update.shown (u : Update) : List Shown :=
  assignedShown u.assignments ++ nodeShown u.conditions

/-- The values that a deletion shows. -/
def Delete.shown (x : Delete) : List Shown := nodeShown x.conditions

/-! ### Conditions -/

/-- The text of a condition shows some values. -/
def ConditionShows (condition : List Lexeme) (shown : List Shown) : Prop :=
  Shows (condition.flatMap Lexeme.pieces) shown

theorem Shows.eq_nil_of_nil {shown : List Shown} (h : Shows [] shown) : shown = [] := by
  cases h
  rfl

theorem ConditionShows.clause {condition : List Lexeme} {shown : List Shown}
    (h : ConditionShows condition shown) (word : String) :
    Shows (clause word condition) shown := by
  cases condition with
  | nil => exact h
  | cons l ls => exact .text word h

/-- The text of a node that is no group and holds no query. -/
theorem Node.shows_text {op : Op} {key : String} {operand : Option Operand} {subs : List Node}
    (hg : op.isGroup = false) (h : ∀ q, op = .subquery → operand ≠ some (.query q)) :
    Shows (Node.text d ⟨op, key, operand, subs⟩) (Node.shown ⟨op, key, operand, subs⟩) := by
  rw [Node.text, leafText, Node.shown]
  · exact shows_leafPieces op key operand
  · rintro j rfl
    cases hg
  · exact h
  · exact h

theorem conditionShows_of_text {n : Node} {shown : List Shown} (hg : n.op.isGroup = false)
    (h : Shows (n.text d) shown) : ConditionShows (n.lexemes d) shown := by
  rw [Node.lexemes_of_leaf hg]
  split
  · next hv =>
    rw [h.eq_nil_of_isVoid hv]
    exact .nil
  · rw [ConditionShows, List.flatMap_singleton]
    exact h

theorem conditionShows_group {j : Junction} {key : String} {operand : Option Operand}
    {subs : List Node}
    (h : ConditionShows (nodeLexemes d (j == .any) false false subs) (nodeShown subs)) :
    ConditionShows (Node.lexemes d ⟨.group j, key, operand, subs⟩) (nodeShown subs) := by
  rw [Node.lexemes_group]
  split
  · next he =>
    rw [List.isEmpty_iff.1 he] at h
    exact h
  · have := h.parenthesized
    simpa [ConditionShows, Lexeme.pieces, Fragment.parenthesized] using this

theorem shows_joining (alternatives pendingOr : Bool) (op : Op) :
    Shows (joining alternatives pendingOr op).pieces [] := by
  rw [joining]
  split <;> exact .text _ .nil

theorem conditionShows_cons {n : Node} {ns : List Node} (started : Bool)
    (hn : ConditionShows (n.lexemes d) n.shown)
    (h : ∀ started pendingOr,
      ConditionShows (nodeLexemes d alternatives started pendingOr ns) (nodeShown ns))
    (pendingOr : Bool) :
    ConditionShows (nodeLexemes d alternatives started pendingOr (n :: ns))
      (nodeShown (n :: ns)) := by
  rw [nodeLexemes, nodeShown]
  split
  · next hc =>
    rw [Node.eq_orMark_of_isConnective hc]
    exact h started true
  · split
    · -- a node without lexemes shows nothing, and its word is left out with it
      next he =>
      rw [List.isEmpty_iff.1 he] at hn
      rw [Shows.eq_nil_of_nil hn]
      exact h started pendingOr
    · rw [ConditionShows, List.flatMap_append, List.flatMap_append]
      refine Shows.append ?_ (h true false)
      cases started with
      | false => exact hn
      | true =>
        rw [if_pos rfl, List.flatMap_singleton]
        exact (shows_joining alternatives pendingOr n.op).append hn

/-! ### Clauses -/

/-- The clauses of a statement show values: those of the named queries, the sources, the bound, the
conditions on the rows and on the groups, and the unions. -/
structure Statement.ShowsAll (s : Statement)
    (ctes sources bound conditions having unions : List Shown) : Prop where
  ctes : Shows s.ctes ctes
  items : Shows s.items []
  sources : Shows s.sources sources
  bound : ConditionShows s.bound bound
  conditions : ConditionShows s.conditions conditions
  groups : Shows s.groups []
  having : ConditionShows s.having having
  unions : Shows s.unions unions

namespace Statement.ShowsAll

variable {s : Statement} {ctes sources bound conditions having unions shown : List Shown}
  {condition : List Lexeme}

theorem boundConditions (h : s.ShowsAll ctes sources bound conditions having unions) :
    ConditionShows s.boundConditions (bound ++ conditions) := by
  have hb := h.bound
  have hc := h.conditions
  unfold Statement.boundConditions
  split
  · -- without a bound, or without conditions, there is nothing to join
    next he =>
    rw [List.isEmpty_iff.1 he] at hb
    rw [Shows.eq_nil_of_nil hb]
    exact hc
  · split
    · next he =>
      rw [List.isEmpty_iff.1 he] at hc
      rw [Shows.eq_nil_of_nil hc, List.append_nil]
      exact hb
    · split
      · have := hb.append (.text " AND " hc.parenthesized)
        simpa [ConditionShows, Lexeme.pieces, Fragment.parenthesized] using this
      · have := hb.append (.text " AND " hc)
        simpa [ConditionShows, Lexeme.pieces] using this

theorem body (h : s.ShowsAll ctes sources bound conditions having unions)
    (hc : ConditionShows condition shown) :
    Shows (s.body condition) (sources ++ shown ++ having ++ unions) :=
  (((h.sources.append (hc.clause _)).append_of_nil h.groups).append (h.having.clause _)).append
    h.unions

theorem select (h : s.ShowsAll ctes sources bound conditions having unions) :
    Shows (s.ctes ++ .text "SELECT " :: s.items) ctes :=
  h.ctes.append_of_nil (.text _ h.items)

theorem plain (h : s.ShowsAll ctes sources bound conditions having unions) (p : Pagination) :
    Shows (s.plain p) (ctes ++ sources ++ bound ++ conditions ++ having ++ unions) := by
  have := ((h.select.append (h.body h.boundConditions)).append_of_nil
    (shows_orderText s.order)).append_of_nil (.text (p.text s.window) .nil)
  simpa only [Statement.plain, List.append_assoc] using this

theorem unordered (h : s.ShowsAll ctes sources bound conditions having unions) :
    Shows s.unordered (ctes ++ sources ++ conditions ++ having ++ unions) := by
  have := h.select.append (h.body h.conditions)
  simpa only [Statement.unordered, List.append_assoc] using this

theorem count (h : s.ShowsAll ctes sources bound conditions having unions) :
    Shows s.count (ctes ++ sources ++ conditions ++ having ++ unions) := by
  have := h.ctes.append (.text "SELECT COUNT(*)" (h.body h.conditions))
  simpa only [Statement.count, List.append_assoc] using this

theorem nearest (h : s.ShowsAll ctes sources bound conditions having unions) (p : Pagination)
    (field : String) (search : Search) :
    Shows (s.nearest p field search)
      (ctes ++ [⟨.given, .vector search.vector⟩] ++ sources ++ bound ++ conditions ++ having ++
        unions) := by
  have hitem : Shows (distanceItem field search) [⟨.given, .vector search.vector⟩] :=
    .text ", " ((shows_infixed (by decide) _ _ _).append_of_nil (.text _ .nil))
  have := (((h.select.append hitem).append (h.body h.boundConditions)).append_of_nil
    (shows_orderText ("distance" :: s.order))).append_of_nil
    (.text (p.text { s.window with limit := some search.fetchLimit }) .nil)
  simpa only [Statement.nearest, List.append_assoc] using this

end Statement.ShowsAll

/-! ### Queries -/

theorem shows_bound (o : Outline) :
    ConditionShows (o.bound?.elim [] boundLexemes) (boundShown o) := by
  rw [boundShown]
  cases o.bound? with
  | none => exact .nil
  | some b =>
    rw [ConditionShows, Option.elim_some, boundLexemes, List.flatMap_singleton]
    exact shows_infixed (by decide) _ _ _

theorem shows_ctes {ctes : List Cte}
    (h : List.Forall₂ Shows (ctePieces d ctes) (ctes.map fun c => c.query.shown)) :
    Shows
      (if ctes.isEmpty then []
        else
          .text (if ctes.any Cte.recursive then "WITH RECURSIVE " else "WITH ") ::
            Fragment.separated ", " (ctePieces d ctes) ++ [.text " "]) (cteShown ctes) := by
  split
  · next he =>
    rw [List.isEmpty_iff.1 he]
    exact .nil
  · rw [cteShown_eq_flatMap]
    exact .text _ ((Shows.separated _ h).append_of_nil (.text _ .nil))

theorem shows_sources {sources : List Source}
    (h : Shows (sourcePieces d true sources) (sourceShown sources)) :
    Shows (if sources.isEmpty then [] else .text " FROM " :: sourcePieces d true sources)
      (sourceShown sources) := by
  split
  · next he =>
    rw [List.isEmpty_iff.1 he]
    exact .nil
  · exact .text _ h

/-- The clauses of a query show its values. -/
def Query.ShowsAll (d : Dialect) (q : Query) : Prop :=
  (q.statement d).ShowsAll (cteShown q.ctes) (sourceShown q.sources) (boundShown q.outline)
    (nodeShown q.conditions) (nodeShown q.having) (unionShown q.unions)

theorem Query.ShowsAll.rows {q : Query} (h : q.ShowsAll d) :
    Shows ((q.statement d).plain d.pagination) q.shown := by
  have := h.plain d.pagination
  cases q
  exact this

mutual

/-- **The clauses of a query show its values,** and no other values. -/
theorem Query.showsAll (d : Dialect) (q : Query) : q.ShowsAll d := by
  obtain ⟨outline, sources, conditions, having, ctes, unions⟩ := q
  rw [Query.ShowsAll, Query.statement]
  exact {
    ctes := shows_ctes (shows_ctePieces d ctes)
    items := shows_selectItems outline
    sources := shows_sources (shows_sourcePieces d true sources)
    bound := shows_bound outline
    conditions := shows_nodeLexemes d false false false conditions
    groups := shows_groupText _
    having := shows_nodeLexemes d false false false having
    unions := shows_unionPieces d unions }

theorem shows_ctePieces (d : Dialect) (ctes : List Cte) :
    List.Forall₂ Shows (ctePieces d ctes) (ctes.map fun c => c.query.shown) := by
  cases ctes with
  | nil => exact .nil
  | cons c rest =>
    obtain ⟨name, recursive, q⟩ := c
    exact .cons (.text _ (Query.showsAll d q).rows.parenthesized) (shows_ctePieces d rest)

theorem shows_referencePieces (d : Dialect) (name : String) (nickname : Option String)
    (nested : Option Query) :
    Shows (referencePieces d name nickname nested) (nestedShown nested) := by
  cases nested with
  | none => exact .text _ .nil
  | some q =>
    refine (Query.showsAll d q).rows.parenthesized.append_of_nil ?_
    cases nickname with
    | none => exact .nil
    | some n => exact .text _ .nil

theorem shows_constraintPieces (d : Dialect) (constraint : Option Constraint) :
    Shows (constraintPieces d constraint) (constraintShown constraint) := by
  cases constraint with
  | none => exact .nil
  | some c =>
    cases c with
    | condition nodes => exact (shows_nodeLexemes d false false false nodes).clause _
    | columns names => exact .text _ .nil

theorem shows_sourcePieces (d : Dialect) (first : Bool) (sources : List Source) :
    Shows (sourcePieces d first sources) (sourceShown sources) := by
  cases sources with
  | nil => exact .nil
  | cons s rest =>
    obtain ⟨name, nickname, join, constraint, nested⟩ := s
    have href := shows_referencePieces d name nickname nested
    have hcon := shows_constraintPieces d constraint
    rw [sourcePieces, sourceShown]
    refine Shows.append ?_ (shows_sourcePieces d false rest)
    cases join with
    -- only the joins that are words write the constraint
    | none =>
      rw [Option.all_none, if_pos rfl, List.append_nil]
      cases first with
      | true => exact href
      | false => exact .text _ href
    | some j =>
      cases j with
      | comma =>
        rw [Option.all_some, if_pos (beq_self_eq_true _), List.append_nil]
        exact .text _ href
      | _ => exact .text _ (href.append hcon)

theorem shows_unionPieces (d : Dialect) (unions : List UnionMember) :
    Shows (unionPieces d unions) (unionShown unions) := by
  cases unions with
  | nil => exact .nil
  | cons u rest =>
    obtain ⟨keepsDuplicates, q⟩ := u
    exact .text _ ((Query.showsAll d q).rows.append (shows_unionPieces d rest))

theorem Node.shows_lexemes (d : Dialect) (n : Node) : ConditionShows (n.lexemes d) n.shown := by
  obtain ⟨op, key, operand, subs⟩ := n
  cases op with
  | group j => exact conditionShows_group (shows_nodeLexemes d (j == .any) false false subs)
  | subquery =>
    refine conditionShows_of_text rfl ?_
    -- of a sub-query only an operand that is a query is written
    rcases operand with - | ⟨v⟩ | vs | q | s | bound | j
    case some.query => exact .text _ (Query.showsAll d q).rows.parenthesized
    all_goals exact Node.shows_text rfl nofun
  | _ => exact conditionShows_of_text rfl (Node.shows_text rfl nofun)

theorem shows_nodeLexemes (d : Dialect) (alternatives started pendingOr : Bool)
    (ns : List Node) :
    ConditionShows (nodeLexemes d alternatives started pendingOr ns) (nodeShown ns) := by
  cases ns with
  | nil => exact .nil
  | cons n ns =>
    exact conditionShows_cons started (Node.shows_lexemes d n)
      (fun started pendingOr => shows_nodeLexemes d alternatives started pendingOr ns) pendingOr

end

/-! ### Statements -/

/-- A statement shows some values: as its arguments, in order, and as literals in its text. -/
def Compiled.Displays (d : Dialect) (c : Compiled) (shown : List Shown) : Prop :=
  ∃ f, Shows f shown ∧ c = Fragment.compile d f

theorem Compiled.Displays.arguments {c : Compiled} {shown : List Shown}
    (h : c.Displays d shown) :
    c.arguments = (shown.filter fun s => s.way != .literal).map Shown.value := by
  obtain ⟨f, hf, rfl⟩ := h
  exact hf.arguments

namespace Query

variable (d) (q : Query)

theorem displays_toSelect : (q.toSelect d).compiled.Displays d q.shown :=
  ⟨_, (q.showsAll d).rows, rfl⟩

theorem displays_toCount : (q.toCount d).Displays d q.shownCount := by
  have h := q.showsAll d
  rw [toCount]
  split
  · exact ⟨_, h.count, rfl⟩
  · exact ⟨_, .text _ (h.unordered.parenthesized.append_of_nil (.text _ .nil)), rfl⟩

theorem displays_toVectorSearch {c : Compiled} (hc : q.toVectorSearch d = .ok c) :
    ∃ field search, q.vectorSearch? = some (field, search) ∧
      c.Displays d (q.shownNearest search) := by
  rw [toVectorSearch] at hc
  split at hc
  · next field search hs =>
    cases hc
    exact ⟨field, search, hs, _, (q.showsAll d).nearest d.pagination field search, rfl⟩
  · cases hc

end Query

theorem Assigned.shows_pieces (a : Assigned) : Shows a.pieces a.shown := by
  cases a with
  | value v =>
    cases v with
    | vector xs => exact .argument (by decide) _ .nil
    | _ => exact .argument (by decide) _ .nil
  | null => exact .text _ .nil
  | expression text => exact .text _ .nil

theorem shows_assignments {pieces : Assignment → Fragment} (assignments : List Assignment)
    (h : ∀ a, Shows (pieces a) a.assigned.shown) :
    Shows (Fragment.separated ", " (assignments.map pieces)) (assignedShown assignments) := by
  refine .separated _ ?_
  rw [List.forall₂_map_left_iff, List.forall₂_map_right_iff, List.forall₂_same]
  exact fun a _ => h a

theorem Insert.displays_compile (d : Dialect) (i : Insert) :
    (i.compile d).Displays d i.shown :=
  ⟨_, .text _ ((shows_assignments i.assignments fun a => a.assigned.shows_pieces).append_of_nil
    (.text _ .nil)), rfl⟩

theorem shows_whereClause (d : Dialect) (conditions : List Node) :
    Shows (whereClause d conditions) (nodeShown conditions) :=
  (shows_nodeLexemes d false false false conditions).clause " WHERE "

theorem Update.displays_compile (d : Dialect) (u : Update) :
    (u.compile d).Displays d u.shown :=
  ⟨_, .text _ ((shows_assignments u.assignments fun a => .text _ a.assigned.shows_pieces).append
    (shows_whereClause d u.conditions)), rfl⟩

theorem Delete.displays_compile (d : Dialect) (x : Delete) :
    (x.compile d).Displays d x.shown :=
  ⟨_, .text _ (shows_whereClause d x.conditions), rfl⟩

end QueryTree
