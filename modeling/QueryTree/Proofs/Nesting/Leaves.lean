import QueryTree.Proofs.Nesting.Renumbering

/-!
# Leaves in statements

A node can stand at any depth of a statement: in groups, in the conditions of queries, and in the
queries in these.  Its text stands in the statement as it is, and something that sets it off stands
behind it, if anything does.

* `Fragment.Follows` — what can stand behind a condition.
* `Fragment.Delimited` — a part of a whole, with such a thing behind it.
* `Node.WrittenOn`, `Node.WrittenIn` — the nodes that are written for a level and for a query.
* `Node.WrittenIn.delimited` — their texts in the clauses of a query, whatever these make up.
* `Node.CompiledIn.exists_sql` — their texts in the statements of queries and writes.
-/

namespace QueryTree

/-! ### Delimited parts -/

/-- The characters that set off a condition from what is behind it. -/
def isDelimiter (c : Char) : Bool := c == ' ' || c == ')' || c == ','

namespace Fragment

/-- A fragment that begins with a delimiter, if it has any text. -/
def Follows (f : Fragment) : Prop :=
  ∀ p n, ∀ c ∈ (f.render p n).toList.head?, isDelimiter c = true

theorem follows_nil : Follows [] := fun _ _ => nofun

theorem follows_text {s : String} {f : Fragment} (h : s.toList.head?.any isDelimiter = true) :
    Follows (.text s :: f) := by
  intro p n c hc
  obtain ⟨c', hs, hd⟩ := (Option.any_eq_true _ _).1 h
  rw [render, Piece.render, String.toList_append, List.head?_append, hs] at hc
  cases hc
  exact hd

theorem Follows.append {f g : Fragment} (hf : f.Follows) (hg : g.Follows) : (f ++ g).Follows := by
  intro p n c hc
  rw [render_append, String.toList_append, List.head?_append] at hc
  cases hs : (f.render p n).toList.head? with
  | some c' =>
    rw [hs] at hc
    exact hf p n c (hs.trans hc)
  -- where `f` is written as nothing, the text begins with that of `g`
  | none =>
    rw [hs] at hc
    exact hg p _ c hc

/-- A part stands in a whole, and what is behind it begins with a delimiter, if anything is.  Of a
part that `Surrounds` speaks of, the neighbours are not known. -/
def Delimited (part whole : Fragment) : Prop :=
  ∃ before behind, Follows behind ∧ whole = before ++ part ++ behind

namespace Delimited

variable {part middle whole f : Fragment}

theorem refl (f : Fragment) : Delimited f f := ⟨[], [], follows_nil, by simp⟩

theorem trans (h : Delimited part middle) (h' : Delimited middle whole) : Delimited part whole := by
  obtain ⟨before, behind, hf, rfl⟩ := h
  obtain ⟨before', behind', hf', rfl⟩ := h'
  exact ⟨before' ++ before, behind ++ behind', hf.append hf', by simp only [List.append_assoc]⟩

theorem append_left (before : Fragment) (h : Delimited part whole) :
    Delimited part (before ++ whole) :=
  h.trans ⟨before, [], follows_nil, (List.append_nil _).symm⟩

theorem append_right {behind : Fragment} (h : Delimited part whole) (hb : behind.Follows) :
    Delimited part (whole ++ behind) :=
  h.trans ⟨[], behind, hb, rfl⟩

theorem cons (piece : Piece) (h : Delimited part whole) : Delimited part (piece :: whole) :=
  h.append_left [piece]

theorem parenthesized (h : Delimited part whole) : Delimited part whole.parenthesized :=
  (h.cons (.text "(")).append_right (follows_text (by decide))

theorem separated {fs : List Fragment} (h : f ∈ fs) : Delimited f (Fragment.separated ", " fs) := by
  induction fs with
  | nil => cases h
  | cons g fs ih =>
    cases fs with
    | nil =>
      cases List.mem_singleton.1 h
      exact refl f
    | cons g' fs =>
      obtain rfl | h := List.mem_cons.1 h
      · exact (refl f).append_right (follows_text (by decide))
      · exact ((ih h).cons _).append_left g

theorem ne_nil {α : Type} {ls : List α} {g : α → Fragment} (h : Delimited part (ls.flatMap g))
    (hp : part ≠ []) : ls ≠ [] := by
  rintro rfl
  obtain ⟨before, behind, -, he⟩ := h
  simp [hp] at he

theorem clause {condition : List Lexeme} (word : String) (hp : part ≠ [])
    (h : Delimited part (condition.flatMap Lexeme.pieces)) :
    Delimited part (QueryTree.clause word condition) := by
  rw [QueryTree.clause, if_neg (by simpa using h.ne_nil hp)]
  exact h.cons _

end Delimited

end Fragment

open Fragment

variable {d : Dialect}

/-! ### Levels of conditions -/

/-- Further nodes of a level stand behind a connective. -/
theorem follows_nodeLexemes (alternatives pendingOr : Bool) (ns : List Node) :
    Follows ((nodeLexemes d alternatives true pendingOr ns).flatMap Lexeme.pieces) := by
  induction ns generalizing pendingOr with
  | nil => exact follows_nil
  | cons n ns ih =>
    rw [nodeLexemes]
    split
    · exact ih true
    · split
      · exact ih pendingOr
      · -- the first node that is written brings a connective with it
        rw [if_pos rfl, List.append_assoc, List.singleton_append, List.flatMap_cons, joining]
        split <;> exact follows_text (by decide)

theorem delimited_nodeLexemes {n : Node} {ns : List Node} (hn : n ∈ ns)
    (hc : n.isConnective = false) (hne : n.lexemes d ≠ []) (alternatives started pendingOr : Bool) :
    Delimited ((n.lexemes d).flatMap Lexeme.pieces)
      ((nodeLexemes d alternatives started pendingOr ns).flatMap Lexeme.pieces) := by
  induction ns generalizing started pendingOr with
  | nil => cases hn
  | cons m ns ih =>
    rw [nodeLexemes]
    obtain rfl | hn := List.mem_cons.1 hn
    · rw [hc, if_neg Bool.false_ne_true, if_neg (by simpa using hne), List.flatMap_append,
        List.flatMap_append]
      -- behind the node stands a connective or nothing
      exact ((Delimited.refl _).append_left _).append_right (follows_nodeLexemes _ _ ns)
    · split
      · exact ih hn started true
      · split
        · exact ih hn started pendingOr
        · rw [List.flatMap_append]
          exact (ih hn true false).append_left _

mutual

/-- A node that is written for a level of conditions: on the level itself, in a group, or in a
query. -/
inductive Node.WrittenOn (n : Node) : List Node → Prop where
  | here {ns : List Node} (h : n ∈ ns) : Node.WrittenOn n ns
  | member {ns subs : List Node} {j : Junction} {key : String} {operand : Option Operand}
    (hm : ⟨.group j, key, operand, subs⟩ ∈ ns) (h : Node.WrittenOn n subs) : Node.WrittenOn n ns
  | operand {ns subs : List Node} {key : String} {q : Query}
    (hm : ⟨.subquery, key, some (.query q), subs⟩ ∈ ns) (h : Node.WrittenIn n q) :
    Node.WrittenOn n ns

/-- A node that is written for a query.  The condition of a join is not written without the join, or
behind a comma. -/
inductive Node.WrittenIn (n : Node) : Query → Prop where
  | conditions {q : Query} (h : Node.WrittenOn n q.conditions) : Node.WrittenIn n q
  | having {q : Query} (h : Node.WrittenOn n q.having) : Node.WrittenIn n q
  | on {q : Query} {s : Source} {nodes : List Node} (hs : s ∈ q.sources)
    (hj : (s.join.any fun j => j != .comma) = true) (hc : s.constraint = some (.condition nodes))
    (h : Node.WrittenOn n nodes) : Node.WrittenIn n q
  | nested {q q' : Query} {s : Source} (hs : s ∈ q.sources) (hn : s.nested = some q')
    (h : Node.WrittenIn n q') : Node.WrittenIn n q
  | cte {q : Query} {c : Cte} (hc : c ∈ q.ctes) (h : Node.WrittenIn n c.query) : Node.WrittenIn n q
  | union {q : Query} {u : UnionMember} (hu : u ∈ q.unions) (h : Node.WrittenIn n u.query) :
    Node.WrittenIn n q

end

theorem delimited_lexemes_group {f : Fragment} (hf : f ≠ []) {j : Junction} {key : String}
    {operand : Option Operand} {subs : List Node}
    (h : Delimited f ((nodeLexemes d (j == .any) false false subs).flatMap Lexeme.pieces)) :
    Node.lexemes d ⟨.group j, key, operand, subs⟩ ≠ [] ∧
      Delimited f ((Node.lexemes d ⟨.group j, key, operand, subs⟩).flatMap Lexeme.pieces) := by
  rw [Node.lexemes_group, if_neg (by simpa using h.ne_nil hf)]
  refine ⟨List.cons_ne_nil _ _, ?_⟩
  rw [List.cons_append, List.flatMap_cons, List.flatMap_append]
  exact (h.append_right (follows_text (by decide))).append_left _

/-! ### Clauses -/

theorem follows_clause {word : String} (hw : word.toList.head?.any isDelimiter = true)
    (condition : List Lexeme) : Follows (clause word condition) := by
  rw [clause]
  split
  · exact follows_nil
  · exact follows_text hw

theorem follows_sourcePieces (sources : List Source) : Follows (sourcePieces d false sources) := by
  cases sources with
  | nil => exact follows_nil
  | cons s sources =>
    rw [sourcePieces_cons_eq, Source.pieces, List.append_assoc, List.append_assoc, Source.lead]
    split
    · exact follows_text (by decide)
    · exact follows_text (by decide)
    · refine follows_text ?_
      simp [isDelimiter]

theorem Source.follows_tail (s : Source) : Follows (s.tail d) := by
  rw [Source.tail]
  split
  · exact follows_nil
  · exact follows_nil
  · rw [constraintPieces.eq_def]
    split
    · exact follows_clause (by decide) _
    · refine follows_text ?_
      simp [isDelimiter]
    · exact follows_nil

/-- One step: from the condition of a join that is written to its source. -/
theorem Source.delimited_on {f : Fragment} {s : Source} {nodes : List Node} {first : Bool}
    (hf : f ≠ []) (hj : (s.join.any fun j => j != .comma) = true)
    (hc : s.constraint = some (.condition nodes))
    (h : Delimited f ((nodeLexemes d false false false nodes).flatMap Lexeme.pieces)) :
    Delimited f (s.pieces d first) := by
  -- a join that is a word writes its condition
  have ht : s.tail d = clause " ON " (nodeLexemes d false false false nodes) := by
    rw [tail]
    split
    · next hnone =>
      rw [hnone] at hj
      cases hj
    · next hcomma =>
      rw [hcomma] at hj
      cases hj
    · rw [hc]
      rfl
  rw [pieces, ht]
  exact (h.clause " ON " hf).append_left _

/-- One step: from a nested query to its source. -/
theorem Source.delimited_nested {f : Fragment} {s : Source} {q : Query} {first : Bool}
    (hn : s.nested = some q) (h : Delimited f (q.pieces d)) : Delimited f (s.pieces d first) := by
  have hr : referencePieces d s.name s.nickname s.nested =
      parenthesized (q.pieces d) ++ s.nickname.toList.map fun n => .text (" " ++ n) := by
    rw [hn]
    rfl
  have hnickname : Follows (s.nickname.toList.map fun n => .text (" " ++ n)) := by
    cases s.nickname with
    | none => exact follows_nil
    | some n =>
      refine follows_text ?_
      simp [isDelimiter]
  rw [pieces, hr]
  exact ((h.parenthesized.append_right hnickname).append_left _).append_right (s.follows_tail)

theorem follows_unionPieces (unions : List UnionMember) : Follows (unionPieces d unions) := by
  cases unions with
  | nil => exact follows_nil
  | cons u unions =>
    rw [unionPieces_eq_flatMap, List.flatMap_cons]
    refine follows_text ?_
    split <;> decide

theorem follows_groupText (columns : List String) : Follows (groupText columns) := by
  rw [groupText]
  split
  · exact follows_nil
  · refine follows_text ?_
    simp [isDelimiter]

theorem follows_orderText (keys : List String) : Follows (orderText keys) := by
  rw [orderText]
  split
  · exact follows_nil
  · refine follows_text ?_
    simp [isDelimiter]

theorem follows_windowText (p : Pagination) (w : Window) : Follows [.text (p.text w)] := by
  obtain ⟨_ | limit, _ | offset⟩ := w
  · cases p <;> exact fun _ _ => nofun
  all_goals
    refine follows_text ?_
    cases p <;> simp [Pagination.text, isDelimiter]

theorem follows_order_window (keys : List String) (p : Pagination) (w : Window) :
    Follows (orderText keys ++ [.text (p.text w)]) :=
  (follows_orderText keys).append (follows_windowText p w)

namespace Statement

variable {s : Statement} {f : Fragment} {head tail : Fragment} {bounded : Bool}

theorem delimited_sources (hg : s.groups.Follows) (hu : s.unions.Follows) (ht : tail.Follows)
    (h : Delimited f s.sources) : Delimited f (s.framed head tail bounded) :=
  (((((h.append_right (follows_clause (by decide) _)).append_right hg).append_right
    (follows_clause (by decide) _)).append_right hu).append_left _).append_right ht

theorem delimited_boundConditions (hf : f ≠ [])
    (h : Delimited f (s.conditions.flatMap Lexeme.pieces)) :
    Delimited f (s.boundConditions.flatMap Lexeme.pieces) := by
  rw [boundConditions]
  split
  · exact h
  · rw [if_neg (by simpa using h.ne_nil hf)]
    split
    · simp only [List.flatMap_append, List.flatMap_cons]
      exact (((h.append_left _).append_left _).append_left _).append_right (follows_text (by decide))
    · simp only [List.flatMap_append, List.flatMap_cons]
      exact (h.append_left _).append_left _

theorem delimited_conditions (hf : f ≠ []) (hg : s.groups.Follows) (hu : s.unions.Follows)
    (ht : tail.Follows) (h : Delimited f (s.conditions.flatMap Lexeme.pieces)) :
    Delimited f (s.framed head tail bounded) := by
  have hc : Delimited f (clause " WHERE " (s.condition bounded)) := by
    cases bounded with
    | true => exact (delimited_boundConditions hf h).clause _ hf
    | false => exact h.clause _ hf
  exact (((((hc.append_left _).append_right hg).append_right
    (follows_clause (by decide) _)).append_right hu).append_left _).append_right ht

theorem delimited_having (hf : f ≠ []) (hu : s.unions.Follows) (ht : tail.Follows)
    (h : Delimited f (s.having.flatMap Lexeme.pieces)) :
    Delimited f (s.framed head tail bounded) :=
  ((((h.clause _ hf).append_left _).append_right hu).append_left _).append_right ht

theorem delimited_unions (ht : tail.Follows) (h : Delimited f s.unions) :
    Delimited f (s.framed head tail bounded) :=
  ((h.append_left _).append_left _).append_right ht

end Statement

namespace Query

variable {f : Fragment} {q : Query} {head tail : Fragment} {bounded : Bool}

theorem follows_groups (q : Query) : Follows (q.statement d).groups := by
  rw [groups_statement]
  exact follows_groupText _

theorem follows_unions (q : Query) : Follows (q.statement d).unions := by
  rw [unions_statement]
  exact follows_unionPieces _

/-- What is delimited in whatever the clauses of a query make up is delimited in the query as it is
written. -/
theorem delimited_pieces
    (h : ∀ head tail bounded, Follows tail →
      Delimited f ((q.statement d).framed head tail bounded)) : Delimited f (q.pieces d) := by
  rw [pieces_eq_framed]
  exact h _ _ _ (follows_order_window _ _ _)

/-- One step: from a named query to the query in front of which it stands. -/
theorem delimited_cte {c : Cte} (hc : c ∈ q.ctes) (h : Delimited f (c.query.pieces d)) :
    Delimited f ((q.statement d).framed head tail bounded) := by
  have hne : q.ctes ≠ [] := List.ne_nil_of_mem hc
  obtain ⟨word, hw⟩ : ∃ word, (q.statement d).ctes =
      .text word :: Fragment.separated ", " (ctePieces d q.ctes) ++ [.text " "] := by
    obtain ⟨outline, sources, conditions, having, ctes, unions⟩ := q
    rw [statement]
    exact ⟨_, if_neg (by simpa using hne)⟩
  have hmem : .text (c.name ++ " AS ") :: parenthesized (c.query.pieces d) ∈ ctePieces d q.ctes := by
    rw [ctePieces_eq_map]
    exact List.mem_map_of_mem hc
  have hs : Delimited f (.text word :: Fragment.separated ", " (ctePieces d q.ctes)) :=
    ((h.parenthesized.cons _).trans (.separated hmem)).cons _
  rw [Statement.framed, hw]
  simp only [List.append_assoc]
  exact hs.append_right (follows_text (by decide))

/-- One step: from the text of a source to the query. -/
theorem delimited_source {s : Source} (hs : s ∈ q.sources) (ht : tail.Follows)
    (h : ∀ first, Delimited f (s.pieces d first)) :
    Delimited f ((q.statement d).framed head tail bounded) := by
  obtain ⟨before, behind, hq⟩ := List.append_of_mem hs
  have hst : (q.statement d).sources = .text " FROM " :: sourcePieces d true q.sources := by
    obtain ⟨outline, sources, conditions, having, ctes, unions⟩ := q
    rw [statement]
    exact if_neg (by simpa using List.ne_nil_of_mem hs)
  refine Statement.delimited_sources q.follows_groups q.follows_unions ht ?_
  rw [hst, hq, sourcePieces_append]
  exact (((h _).append_left _).append_right (follows_sourcePieces _)).cons _

/-- One step: from a member of the union to the query. -/
theorem delimited_member {u : UnionMember} (hu : u ∈ q.unions) (ht : tail.Follows)
    (h : Delimited f (u.query.pieces d)) :
    Delimited f ((q.statement d).framed head tail bounded) := by
  obtain ⟨before, behind, hq⟩ := List.append_of_mem hu
  refine Statement.delimited_unions ht ?_
  rw [unions_statement, hq, unionPieces_eq_flatMap, List.flatMap_append, List.flatMap_cons,
    ← unionPieces_eq_flatMap, ← unionPieces_eq_flatMap]
  exact ((h.cons _).append_right (follows_unionPieces _)).append_left _

end Query

/-! ### Nodes in queries -/

/-- A node with a text of its own. -/
structure Node.HasText (d : Dialect) (n : Node) : Prop where
  connective : n.isConnective = false
  group : n.op.isGroup = false
  void : (n.text d).isVoid = false

namespace Node

variable {n : Node}

theorem HasText.ne_nil (hn : n.HasText d) : n.text d ≠ [] := by
  intro h
  have hv := hn.void
  rw [h] at hv
  cases hv

theorem HasText.lexemes (hn : n.HasText d) : n.lexemes d = [.leaf n (n.text d)] := by
  rw [lexemes_of_leaf hn.group, hn.void, if_neg Bool.false_ne_true]

mutual

theorem WrittenOn.delimited (hn : n.HasText d) {ns : List Node} :
    n.WrittenOn ns → ∀ alternatives started pendingOr, Delimited (n.text d)
      ((nodeLexemes d alternatives started pendingOr ns).flatMap Lexeme.pieces)
  | .here h => fun alternatives started pendingOr => by
    have hl := delimited_nodeLexemes (d := d) h hn.connective (by simp [hn.lexemes]) alternatives
      started pendingOr
    rw [hn.lexemes, List.flatMap_singleton] at hl
    exact hl
  | .member hm h => fun alternatives started pendingOr => by
    obtain ⟨hne, hg⟩ := delimited_lexemes_group hn.ne_nil (h.delimited hn _ false false)
    exact hg.trans (delimited_nodeLexemes hm rfl hne _ _ _)
  | .operand hm h => fun alternatives started pendingOr => by
    have hl := delimited_nodeLexemes (d := d) hm rfl (by simp [lexemes_subquery]) alternatives
      started pendingOr
    rw [lexemes_subquery, List.flatMap_singleton] at hl
    exact ((Query.delimited_pieces (h.delimited hn)).parenthesized.cons _).trans hl

/-- The text of a node that is written for a query is delimited in whatever the clauses of the query
make up. -/
theorem WrittenIn.delimited (hn : n.HasText d) {q : Query} :
    n.WrittenIn q → ∀ head tail bounded, Follows tail → Delimited (n.text d)
      ((q.statement d).framed head tail bounded)
  | .conditions h => fun head tail bounded ht => by
    refine Statement.delimited_conditions hn.ne_nil q.follows_groups q.follows_unions ht ?_
    rw [Query.conditions_statement]
    exact h.delimited hn false false false
  | .having h => fun head tail bounded ht => by
    refine Statement.delimited_having hn.ne_nil q.follows_unions ht ?_
    rw [Query.having_statement]
    exact h.delimited hn false false false
  | .on hs hj hc h => fun head tail bounded ht => by
    refine Query.delimited_source hs ht fun first => Source.delimited_on hn.ne_nil hj hc ?_
    exact h.delimited hn false false false
  | .nested hs hq h => fun head tail bounded ht =>
    Query.delimited_source hs ht fun first =>
      Source.delimited_nested hq (Query.delimited_pieces (h.delimited hn))
  | .cte hc h => fun head tail bounded _ =>
    Query.delimited_cte hc (Query.delimited_pieces (h.delimited hn))
  | .union hu h => fun head tail bounded ht =>
    Query.delimited_member hu ht (Query.delimited_pieces (h.delimited hn))

end

end Node

/-! ### Nodes in statements -/

/-- A statement of a query or of a write in which a node is written. -/
inductive Node.CompiledIn (d : Dialect) (n : Node) : Compiled → Prop where
  | rows {q : Query} (h : n.WrittenIn q) :
    Node.CompiledIn d n ⟨(q.toSelect d).sql, (q.toSelect d).arguments⟩
  | count {q : Query} (h : n.WrittenIn q) : Node.CompiledIn d n (q.toCount d)
  | nearest {q : Query} {c : Compiled} (h : n.WrittenIn q) (hc : q.toVectorSearch d = .ok c) :
    Node.CompiledIn d n c
  | update {u : Update} (h : n.WrittenOn u.conditions) : Node.CompiledIn d n (u.compile d)
  | delete {x : Delete} (h : n.WrittenOn x.conditions) : Node.CompiledIn d n (x.compile d)

namespace Node

variable {n : Node}

/-- The rows are counted directly, or in the query around which the count is written. -/
theorem WrittenIn.delimited_count (hn : n.HasText d) {q : Query} (h : n.WrittenIn q) :
    ∃ whole, q.toCount d = Fragment.compile d whole ∧ Delimited (n.text d) whole := by
  rw [Query.toCount]
  split
  · refine ⟨_, rfl, ?_⟩
    have hc := h.delimited hn [.text "SELECT COUNT(*)"] [] false follows_nil
    simpa [Statement.framed, Statement.condition, Statement.count] using hc
  · refine ⟨_, rfl, ?_⟩
    -- the counted query has neither order nor window, and no bound
    have hu := h.delimited hn (.text "SELECT " :: (q.statement d).items) [] false follows_nil
    have hu : Delimited (n.text d) (q.statement d).unordered := by
      simpa [Statement.framed, Statement.condition, Statement.unordered] using hu
    exact (hu.parenthesized.cons _).append_right (follows_text (by decide))

theorem WrittenIn.delimited_nearest (hn : n.HasText d) {q : Query} (h : n.WrittenIn q)
    (field : String) (search : Search) :
    Delimited (n.text d) ((q.statement d).nearest d.pagination field search) := by
  have hs := h.delimited hn
    (.text "SELECT " :: (q.statement d).items ++ Statement.distanceItem field search) _ true
    (follows_order_window ("distance" :: (q.statement d).order) d.pagination
      { (q.statement d).window with limit := some search.fetchLimit })
  simpa [Statement.framed, Statement.condition, Statement.nearest] using hs

theorem WrittenOn.delimited_where (hn : n.HasText d) {ns : List Node} (h : n.WrittenOn ns) :
    Delimited (n.text d) (whereClause d ns) :=
  (h.delimited hn false false false).clause " WHERE " hn.ne_nil

/-- **The text of a node is delimited in each statement in which the node is written,** whatever it
is nested in. -/
theorem CompiledIn.delimited (hn : n.HasText d) {c : Compiled} (h : n.CompiledIn d c) :
    ∃ whole, c = Fragment.compile d whole ∧ Delimited (n.text d) whole := by
  cases h with
  | rows h => exact ⟨_, rfl, Query.delimited_pieces (h.delimited hn)⟩
  | count h => exact h.delimited_count hn
  | @nearest q _ h hc =>
    rw [Query.toVectorSearch] at hc
    -- only a query with a similarity search has such a statement
    split at hc
    · next field search _ =>
      cases hc
      exact ⟨_, rfl, h.delimited_nearest hn field search⟩
    · cases hc
  | update h => exact ⟨_, rfl, (h.delimited_where hn).append_left _⟩
  | delete h => exact ⟨_, rfl, (h.delimited_where hn).cons _⟩

/-- So its text stands in the statement, in front of a delimiter or of nothing. -/
theorem CompiledIn.exists_sql (hn : n.HasText d) {c : Compiled} (h : n.CompiledIn d c) :
    ∃ lead k rest, c.sql = lead ++ (n.text d).render d.placeholder k ++ rest ∧
      ∀ ch ∈ rest.toList.head?, isDelimiter ch = true := by
  obtain ⟨whole, rfl, before, behind, hf, rfl⟩ := h.delimited hn
  have hsql : (Fragment.compile d (before ++ n.text d ++ behind)).sql =
      before.render d.placeholder .start ++
        (n.text d).render d.placeholder (Numbering.start.afterAll before) ++
        behind.render d.placeholder (Numbering.start.afterAll (before ++ n.text d)) := by
    rw [Fragment.compile, render_append, render_append]
  exact ⟨_, _, _, hsql, hf _ _⟩

end Node

end QueryTree
