import QueryTree.Proofs.Nesting.Renumbering
import QueryTree.Proofs.Paging.Window
import QueryTree.Proofs.Similarity.First

/-!
# What is nearest to a vector

The statement that looks for the rows nearest to a vector is the statement of the rows with three
edits: a distance at the end of the select list, the distance in front of the sort keys, and the
limit of the search in place of that of the rows.  The vector is one more argument, and the marks
behind it are counted on.

* `statementText` — a statement by its parts, those that are edited and those that are not.
* `Stretch.writeAll_shift_question` — question marks need no counting on.
* `Query.IsNearest` — the statement with the edits.
* `Query.toVectorSearch_isNearest` — what a query without or with a search is turned into.
-/

namespace QueryTree

/-! ### Parts of a statement -/

/-- The order as it is written. -/
def orderSql (keys : List String) : String :=
  if keys.isEmpty then "" else " ORDER BY " ++ ", ".intercalate keys

theorem render_orderText (p : Placeholder) (n : Numbering) (keys : List String) :
    (orderText keys).render p n = orderSql keys := by
  rw [orderText, orderSql]
  split
  · rfl
  · exact String.append_empty

/-- A statement by its parts: up to the end of the select list, what is added to that list, the
clauses from the sources to the unions, the sort keys and the window. -/
def statementText (p : Pagination) (head added body : String) (keys : List String)
    (w : Window) : String :=
  head ++ added ++ body ++ orderSql keys ++ p.text w

namespace Stretch

theorem writeAll_shift_question (a : Nat) (ss : List Stretch) :
    writeAll .question (ss.map (shift a 0)) = writeAll .question ss := by
  induction ss with
  | nil => rfl
  | cons s ss ih =>
    rw [List.map_cons, writeAll, writeAll, ih]
    cases s <;> rfl

end Stretch

namespace Query

variable (d : Dialect) (q : Query)

/-- The query up to the end of its select list. -/
def head : Fragment := (q.statement d).ctes ++ .text "SELECT " :: (q.statement d).items

/-- The clauses from the sources to the unions. -/
def body : Fragment := (q.statement d).body (q.statement d).boundConditions

/-- These clauses in stretches, which are numbered from the end of the select list on. -/
def bodyStretches : List Stretch := (q.body d).stretches (Numbering.start.afterAll (q.head d))

/-- The arguments of the named queries. -/
def cteArguments : List Value := q.ctes.flatMap fun c => (c.query.toSelect d).arguments

theorem plain_eq :
    (q.statement d).plain d.pagination =
      q.head d ++ q.body d ++ orderText (q.outline.sorts.map SortKey.text) ++
        [.text (d.pagination.text q.outline.window)] := by
  rw [Statement.plain, order_statement, window_statement]
  rfl

theorem nearest_eq (field : String) (s : Search) :
    (q.statement d).nearest d.pagination field s =
      q.head d ++ Statement.distanceItem field s ++ q.body d ++
        orderText ("distance" :: q.outline.sorts.map SortKey.text) ++
        [.text (d.pagination.text { q.outline.window with limit := some s.fetchLimit })] := by
  rw [Statement.nearest, order_statement, window_statement]
  rfl

/-! ### Arguments -/

theorem arguments_separated (separator : String) (fs : List Fragment) :
    (Fragment.separated separator fs).arguments = fs.flatMap Fragment.arguments := by
  induction fs with
  | nil => rfl
  | cons f fs ih =>
    cases fs with
    | nil => exact (List.append_nil _).symm
    | cons g fs =>
      show (f ++ .text separator :: Fragment.separated separator (g :: fs)).arguments = _
      rw [Fragment.arguments_append, List.flatMap_cons, ← ih]
      rfl

theorem arguments_columnPiece (column : String) :
    Fragment.arguments [columnPiece column] = [] := by
  rw [columnPiece]
  split
  · rfl
  · split <;> rfl

theorem arguments_separated_singletons (separator : String) {pieces : List Piece}
    (h : ∀ piece ∈ pieces, Fragment.arguments [piece] = []) :
    (Fragment.separated separator (pieces.map ([·]))).arguments = [] := by
  rw [arguments_separated, List.flatMap_map]
  exact List.flatMap_eq_nil_iff.2 h

theorem arguments_selectItems (o : Outline) : (selectItems o).arguments = [] := by
  have hd : Fragment.arguments (if o.distinct then [.text "DISTINCT "] else []) = [] := by
    cases o.distinct <;> rfl
  rw [selectItems, Fragment.arguments_append, hd, List.nil_append]
  split
  · rfl
  · apply arguments_separated_singletons
    rw [List.forall_mem_append, List.forall_mem_map, List.forall_mem_map]
    refine ⟨fun c _ => arguments_columnPiece c, fun a _ => ?_⟩
    cases a.label <;> rfl

theorem arguments_parenthesized (f : Fragment) : f.parenthesized.arguments = f.arguments := by
  show Fragment.arguments (f ++ [.text ")"]) = _
  rw [Fragment.arguments_append]
  exact List.append_nil _

theorem arguments_ctePieces (ctes : List Cte) :
    (ctePieces d ctes).flatMap Fragment.arguments =
      ctes.flatMap fun c => (c.query.toSelect d).arguments := by
  rw [ctePieces_eq_map, List.flatMap_map]
  exact congrArg (ctes.flatMap ·) (funext fun c => arguments_parenthesized (c.query.pieces d))

/-- The only arguments up to the end of the select list are those of the named queries. -/
theorem arguments_head : (q.head d).arguments = q.cteArguments d := by
  -- the select list adds none
  have hs : Fragment.arguments (.text "SELECT " :: selectItems q.outline) = [] :=
    arguments_selectItems q.outline
  rw [head, items_statement, Fragment.arguments_append, hs, List.append_nil]
  obtain ⟨outline, sources, conditions, having, ctes, unions⟩ := q
  rw [statement, cteArguments, ← arguments_ctePieces, ← arguments_separated ", "]
  cases ctes with
  | nil => rfl
  | cons c ctes =>
    rw [if_neg (by simp), Fragment.arguments_append]
    exact List.append_nil _

theorem arguments_orderText (keys : List String) : (orderText keys).arguments = [] := by
  rw [orderText]
  split <;> rfl

/-! ### The statement with the edits -/

/-- The statement of what is nearest is the statement of the rows with three edits, and its
arguments are those of the rows with the vector behind those of the named queries. -/
structure IsNearest (field : String) (s : Search) (c : Compiled) : Prop where
  select : (q.toSelect d).sql =
    statementText d.pagination ((q.head d).render d.placeholder .start) ""
      (Stretch.writeAll d.placeholder (q.bodyStretches d)) (q.outline.sorts.map SortKey.text)
      q.outline.window
  nearest : c.sql =
    statementText d.pagination ((q.head d).render d.placeholder .start)
      (", " ++ field ++ " " ++ s.metric.operator ++ " " ++
        d.placeholder.mark (q.cteArguments d).length ++ " AS distance")
      (Stretch.writeAll d.placeholder ((q.bodyStretches d).map (.shift 1 0)))
      ("distance" :: q.outline.sorts.map SortKey.text)
      { q.outline.window with limit := some s.fetchLimit }
  /-- Question marks need no counting on. -/
  question : d.placeholder = .question →
    Stretch.writeAll d.placeholder ((q.bodyStretches d).map (.shift 1 0)) =
      Stretch.writeAll d.placeholder (q.bodyStretches d)
  /-- Read back, both windows pass over the same rows, and the search has a limit of its own. -/
  window :
    d.pagination.read? (d.pagination.text q.outline.window) =
        some ⟨q.outline.window.limit.map UInt64.toNat, q.outline.window.extent.offset⟩ ∧
      d.pagination.read? (d.pagination.text { q.outline.window with limit := some s.fetchLimit }) =
        some ⟨some s.fetchLimit.toNat, q.outline.window.extent.offset⟩
  arguments : ∃ behind, (q.toSelect d).arguments = q.cteArguments d ++ behind ∧
    c.arguments = q.cteArguments d ++ .vector s.vector :: behind

theorem sql_toSelect_eq : (q.toSelect d).sql =
    statementText d.pagination ((q.head d).render d.placeholder .start) ""
      (Stretch.writeAll d.placeholder (q.bodyStretches d)) (q.outline.sorts.map SortKey.text)
      q.outline.window := by
  rw [bodyStretches, Fragment.writeAll_stretches, statementText, String.append_empty, toSelect,
    plain_eq]
  simp only [Fragment.compileSelect, Fragment.render_append, render_orderText]
  exact congrArg _ String.append_empty

theorem render_distanceItem (field : String) (s : Search) :
    (Statement.distanceItem field s).render d.placeholder (Numbering.start.afterAll (q.head d)) =
      ", " ++ field ++ " " ++ s.metric.operator ++ " " ++
        d.placeholder.mark (q.cteArguments d).length ++ " AS distance" := by
  have hn : (Numbering.start.afterAll (q.head d)).arguments = (q.cteArguments d).length := by
    rw [Fragment.arguments_afterAll, arguments_head]
    exact Nat.zero_add _
  cases d.placeholder <;>
    simp [Statement.distanceItem, infixed, Fragment.render, Piece.render, Numbering.after, hn,
      Placeholder.mark, String.append_assoc]

/-- Behind the distance, one more argument has been used. -/
theorem render_body_nearest (field : String) (s : Search) :
    (q.body d).render d.placeholder
        (Numbering.start.afterAll (q.head d ++ Statement.distanceItem field s)) =
      Stretch.writeAll d.placeholder ((q.bodyStretches d).map (.shift 1 0)) := by
  rw [bodyStretches, ← Fragment.stretches_shifted, Fragment.writeAll_stretches,
    Numbering.afterAll_append]
  rfl

theorem sql_nearest_eq (field : String) (s : Search) :
    (((q.statement d).nearest d.pagination field s).compile d).sql =
      statementText d.pagination ((q.head d).render d.placeholder .start)
        (", " ++ field ++ " " ++ s.metric.operator ++ " " ++
          d.placeholder.mark (q.cteArguments d).length ++ " AS distance")
        (Stretch.writeAll d.placeholder ((q.bodyStretches d).map (.shift 1 0)))
        ("distance" :: q.outline.sorts.map SortKey.text)
        { q.outline.window with limit := some s.fetchLimit } := by
  rw [nearest_eq, statementText, ← render_distanceItem, ← render_body_nearest d q field s]
  simp only [Fragment.compile, Fragment.render_append, render_orderText]
  exact congrArg _ String.append_empty

/-- The vector is the only further argument. -/
theorem arguments_nearest (field : String) (s : Search) :
    ∃ behind, (q.toSelect d).arguments = q.cteArguments d ++ behind ∧
      (((q.statement d).nearest d.pagination field s).compile d).arguments =
        q.cteArguments d ++ .vector s.vector :: behind := by
  refine ⟨(q.body d).arguments, ?_, ?_⟩
  · rw [toSelect, plain_eq]
    simp only [Fragment.compileSelect, Fragment.arguments_append, arguments_orderText,
      arguments_head, List.append_nil, Fragment.arguments]
  · have hi : (Statement.distanceItem field s).arguments = [.vector s.vector] := rfl
    rw [nearest_eq]
    simp only [Fragment.compile, Fragment.arguments_append, arguments_orderText, arguments_head,
      List.append_nil, Fragment.arguments, hi, List.append_assoc, List.singleton_append]

theorem isNearest (field : String) (s : Search) :
    q.IsNearest d field s (((q.statement d).nearest d.pagination field s).compile d) where
  select := q.sql_toSelect_eq d
  nearest := q.sql_nearest_eq d field s
  question hp := by rw [hp, Stretch.writeAll_shift_question]
  window := ⟨d.pagination.read?_text _, d.pagination.read?_text _⟩
  arguments := q.arguments_nearest d field s

/-- **A search for what is nearest is the statement of the rows with three edits,** up to the
numbers of the arguments.  The search is the first one in the order of the tree; without one,
nothing can be looked for. -/
theorem toVectorSearch_isNearest {clauses : List Clause} {q : Query}
    (h : Query.build clauses = .ok q) (d : Dialect) :
    match (Node.walkAll q.conditions).find? fun n => n.op == .search with
    | some n => ∃ s c, n.operand = some (.search s) ∧ q.toVectorSearch d = .ok c ∧
        q.IsNearest d n.key s c
    | none => q.toVectorSearch d = .error .noVectorSearch ∧ Error.noVectorSearch.kind = .query := by
  have hd := Node.Declared.walkAll q.conditions (declared_conditions h)
  rw [toVectorSearch, vectorSearch?, Node.findIn?_eq_find?]
  cases hf : (Node.walkAll q.conditions).find? fun n => n.op == .search with
  | none => exact ⟨rfl, rfl⟩
  | some n =>
    have ho : n.op = .search := by simpa using List.find?_some hf
    -- a declared node of this operator has parameters, so the statement is written
    obtain ⟨s, hs⟩ := (hd n (List.mem_of_find?_eq_some hf)).operand_search ho
    obtain ⟨op, key, operand, subs⟩ := n
    cases ho
    cases hs
    exact ⟨s, _, rfl, rfl, q.isNearest d key s⟩

/-- The vector is the second argument, behind that of the named query. -/
theorem toVectorSearch_isNearest_of_cte :
    let search : Search := .new [.ofInt .single 1] 4
    let clauses : List Clause :=
      [.cte "top" false [.source "sale", .criterion (.compare .gt "total" (.int 100))],
        .source "item", .criterion (.search "embedding" search),
        .criterion (.compare .eq "brand" (.text "acme"))]
    ∃ q c, Query.build clauses = .ok q ∧ q.cteArguments .postgres = [.int 100] ∧
      q.toVectorSearch .postgres = .ok c ∧ q.IsNearest .postgres "embedding" search c := by
  intro search clauses
  have hb : ∃ q, Query.build clauses = .ok q ∧ q.cteArguments .postgres = [.int 100] ∧
      (Node.walkAll q.conditions).find? (fun n => n.op == .search) =
        some ⟨.search, "embedding", some (.search search), []⟩ := ⟨_, rfl, rfl, rfl⟩
  obtain ⟨q, hq, ha, hf⟩ := hb
  have h := toVectorSearch_isNearest hq .postgres
  rw [hf] at h
  obtain ⟨s, c, hs, hc, hn⟩ := h
  cases hs
  exact ⟨q, c, hq, ha, hc, hn⟩

end Query

end QueryTree
