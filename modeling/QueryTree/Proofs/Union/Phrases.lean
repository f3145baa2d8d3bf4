import QueryTree.Proofs.Nesting.Places

/-!
# Phrases of a statement

The statement of a query is a row of phrases: named queries, plain selections with what joins them,
an order and a window.  The members of a union are written one behind the other at one level, each
with its own phrases.

* `Selection` — a plain selection, from the select list to the conditions on the groups.
* `Phrase` — the parts that matter to how a statement with unions is read.
* `Query.phrases` — the phrases of a query and, through it, of the members of its union.
* `Query.toSelect_eq` — they make up the statement of its rows.
-/

namespace QueryTree

/-! ### Empty text -/

namespace Fragment

/-- The fragment without its empty texts. -/
def dense (f : Fragment) : Fragment :=
  f.filter fun
    | .text s => !s.isEmpty
    | _ => true

@[simp] theorem dense_append (f g : Fragment) : dense (f ++ g) = dense f ++ dense g :=
  List.filter_append f g

/-- Either the first piece is an empty text, or it stays. -/
theorem dense_cons (piece : Piece) (f : Fragment) :
    (piece = .text "" ∧ dense (piece :: f) = dense f) ∨
      dense (piece :: f) = piece :: dense f := by
  cases piece with
  | text s =>
    by_cases hs : s = ""
    · exact .inl ⟨congrArg Piece.text hs, by rw [hs]; rfl⟩
    · exact .inr (List.filter_cons_of_pos (by simpa using hs))
  | argument v => exact .inr rfl
  | item expression => exact .inr rfl
  | labelled expression label => exact .inr rfl

theorem render_dense {p : Placeholder} {n : Numbering} {f : Fragment} :
    render p n f.dense = render p n f := by
  induction f generalizing n with
  | nil => rfl
  | cons piece f ih =>
    obtain ⟨rfl, h⟩ | h := dense_cons piece f
    · rw [h, ih]
      exact String.empty_append.symm
    · rw [h, render, render, ih]

theorem arguments_dense {f : Fragment} : arguments f.dense = arguments f := by
  induction f with
  | nil => rfl
  | cons piece f ih =>
    obtain ⟨rfl, h⟩ | h := dense_cons piece f
    · rw [h, ih]
      rfl
    · rw [h]
      cases piece with
      | argument v => exact congrArg (v :: ·) ih
      | _ => exact ih

theorem labels_dense {n : Numbering} {f : Fragment} : labels n f.dense = labels n f := by
  induction f generalizing n with
  | nil => rfl
  | cons piece f ih =>
    obtain ⟨rfl, h⟩ | h := dense_cons piece f
    · rw [h, ih]
      rfl
    · rw [h, labels, labels, ih]

/-- Empty texts make no difference to a statement. -/
theorem compile_congr {d : Dialect} {f g : Fragment} (h : f.dense = g.dense) :
    f.compile d = g.compile d := by
  rw [compile, compile, ← render_dense (f := f), ← arguments_dense (f := f), h, render_dense,
    arguments_dense]

theorem compileSelect_congr {d : Dialect} {f g : Fragment} (h : f.dense = g.dense) :
    f.compileSelect d = g.compileSelect d := by
  rw [compileSelect, compileSelect, ← render_dense (f := f), ← arguments_dense (f := f),
    ← labels_dense (f := f), h, render_dense, arguments_dense, labels_dense]

end Fragment

/-! ### Plain selections -/

/-- A plain selection. -/
structure Selection where
  distinct : Bool
  /-- The select items; without any, all columns are selected. -/
  items : List Piece
  sources : Fragment
  /-- The conditions on the rows. -/
  conditions : List Lexeme
  /-- The columns that the rows are grouped by. -/
  groupBy : List String
  /-- The conditions on the groups. -/
  having : List Lexeme

namespace Selection

/-- The text behind the select list. -/
def body (s : Selection) : Fragment :=
  s.sources ++ clause " WHERE " s.conditions ++ groupText s.groupBy ++ clause " HAVING " s.having

/-- The text of a plain selection. -/
def pieces (s : Selection) : Fragment :=
  .text "SELECT " :: (if s.distinct then [.text "DISTINCT "] else []) ++
    (if s.items.isEmpty then [.text "*"] else Fragment.separated ", " (s.items.map ([·]))) ++ s.body

end Selection

/-- The select items of a query. -/
def Outline.items (o : Outline) : List Piece :=
  o.results.map columnPiece ++ o.aggregates.map fun a =>
    match a.label with
    | some label => .labelled a.expression label
    | none => .text a.expression

/-- The plain selection of a query. -/
def Query.selection (d : Dialect) (q : Query) : Selection where
  distinct := q.outline.distinct
  items := q.outline.items
  sources := (q.statement d).sources
  conditions := (q.statement d).boundConditions
  groupBy := q.outline.groupBy
  having := (q.statement d).having

/-! ### Phrases -/

/-- A phrase of a statement. -/
inductive Phrase where
  /-- Named queries. -/
  | named (ctes : Fragment)
  | select (s : Selection)
  /-- What joins a plain selection to those before it. -/
  | union (keepsDuplicates : Bool)
  | order (keys : List String)
  | window (w : Window)

/-- The text of a phrase. -/
def Phrase.pieces (p : Pagination) : Phrase → Fragment
  | named ctes => ctes
  | select s => s.pieces
  | union keepsDuplicates => [.text (if keepsDuplicates then " UNION ALL " else " UNION ")]
  | order keys => orderText keys
  | window w => [.text (p.text w)]

namespace Outline

/-- The order, if there are sort keys. -/
def order? (o : Outline) : Option (List String) :=
  if o.sorts.isEmpty then none else some (o.sorts.map SortKey.text)

/-- The window, if it is not all rows. -/
def window? (o : Outline) : Option Window :=
  match o.window with
  | ⟨none, none⟩ => none
  | w => some w

end Outline

/-- The named queries, if there are any. -/
def Query.named? (d : Dialect) (q : Query) : Option Fragment :=
  if q.ctes.isEmpty then none else some (q.statement d).ctes

mutual

/-- The phrases of a query. -/
def Query.phrases (d : Dialect) : Query → List Phrase
  | ⟨outline, sources, conditions, having, ctes, unions⟩ =>
    let q : Query := ⟨outline, sources, conditions, having, ctes, unions⟩
    (q.named? d).toList.map .named ++ .select (q.selection d) :: memberPhrases d unions ++
      outline.order?.toList.map .order ++ outline.window?.toList.map .window

/-- The phrases of the members of a union behind the first. -/
def memberPhrases (d : Dialect) : List UnionMember → List Phrase
  | [] => []
  | ⟨keepsDuplicates, q⟩ :: rest =>
    .union keepsDuplicates :: q.phrases d ++ memberPhrases d rest

end

/-! ### Text -/

section

variable (d : Dialect)

/-- The text of some phrases. -/
def phraseText (phrases : List Phrase) : Fragment := phrases.flatMap (Phrase.pieces d.pagination)

theorem phraseText_append (ps qs : List Phrase) :
    phraseText d (ps ++ qs) = phraseText d ps ++ phraseText d qs := List.flatMap_append

theorem phraseText_cons (p : Phrase) (ps : List Phrase) :
    phraseText d (p :: ps) = p.pieces d.pagination ++ phraseText d ps := List.flatMap_cons

theorem Query.getD_named? (q : Query) : (q.named? d).getD [] = (q.statement d).ctes := by
  obtain ⟨outline, sources, conditions, having, ctes, unions⟩ := q
  cases ctes <;> simp [named?, statement]

theorem phraseText_named (q : Query) :
    phraseText d ((q.named? d).toList.map .named) = (q.statement d).ctes := by
  rw [← q.getD_named?]
  cases q.named? d with
  | none => rfl
  | some ctes => exact List.append_nil _

theorem phraseText_order (o : Outline) :
    phraseText d (o.order?.toList.map .order) = orderText (o.sorts.map SortKey.text) := by
  unfold Outline.order?
  split
  · next h => rw [List.isEmpty_iff.1 h]; rfl
  · exact List.append_nil _

theorem dense_phraseText_window (o : Outline) :
    (phraseText d (o.window?.toList.map .window)).dense =
      Fragment.dense [.text (d.pagination.text o.window)] := by
  unfold Outline.window?
  split
  · next h =>
    rw [h]
    cases d.pagination <;> rfl
  · exact congrArg Fragment.dense (List.append_nil _)

theorem selectItems_eq (o : Outline) :
    selectItems o = (if o.distinct then [.text "DISTINCT "] else []) ++
      if o.items.isEmpty then [.text "*"] else Fragment.separated ", " (o.items.map ([·])) := rfl

/-- The plain selection of a query, and its unions. -/
theorem pieces_selection (q : Query) :
    (q.selection d).pieces ++ (q.statement d).unions =
      .text "SELECT " :: selectItems q.outline ++
        (q.statement d).body (q.statement d).boundConditions := by
  rw [selectItems_eq, Statement.body, Query.groups_statement, Selection.pieces, Selection.body]
  simp only [List.append_assoc, List.cons_append]
  rfl

theorem Query.phrases_eq (q : Query) :
    q.phrases d =
      (q.named? d).toList.map .named ++ .select (q.selection d) :: memberPhrases d q.unions ++
        q.outline.order?.toList.map .order ++ q.outline.window?.toList.map .window := by
  obtain ⟨outline, sources, conditions, having, ctes, unions⟩ := q
  rw [Query.phrases]

/-- What is written for a query, clause by clause. -/
theorem Query.pieces_eq (q : Query) :
    q.pieces d =
      (q.statement d).ctes ++ ((q.selection d).pieces ++ unionPieces d q.unions) ++
        orderText (q.outline.sorts.map SortKey.text) ++
        [.text (d.pagination.text q.outline.window)] := by
  rw [pieces, Statement.plain, items_statement, order_statement, window_statement,
    ← unions_statement, pieces_selection]
  simp only [List.append_assoc, List.cons_append]

theorem Query.dense_pieces_of {q : Query}
    (h : (unionPieces d q.unions).dense = (phraseText d (memberPhrases d q.unions)).dense) :
    (q.pieces d).dense = (phraseText d (q.phrases d)).dense := by
  rw [q.pieces_eq, q.phrases_eq]
  simp only [phraseText_append, phraseText_cons, phraseText_named, phraseText_order,
    Fragment.dense_append, dense_phraseText_window, h]
  rfl

mutual

theorem Query.dense_pieces (q : Query) :
    (q.pieces d).dense = (phraseText d (q.phrases d)).dense := by
  obtain ⟨outline, sources, conditions, having, ctes, unions⟩ := q
  exact Query.dense_pieces_of d (dense_unionPieces unions)

theorem dense_unionPieces (unions : List UnionMember) :
    (unionPieces d unions).dense = (phraseText d (memberPhrases d unions)).dense := by
  cases unions with
  | nil => rw [unionPieces, memberPhrases]; rfl
  | cons u rest =>
    obtain ⟨keepsDuplicates, q⟩ := u
    rw [unionPieces, memberPhrases]
    -- the word of the member, its query, and the members behind
    change Fragment.dense ([.text _] ++ q.pieces d ++ unionPieces d rest) = _
    rw [phraseText_append, phraseText_cons]
    simp only [Fragment.dense_append, Query.dense_pieces q, dense_unionPieces rest]
    rfl

end

/-- **The statement of the rows of a query is made up of its phrases.** -/
theorem Query.toSelect_eq (q : Query) :
    q.toSelect d = (phraseText d (q.phrases d)).compileSelect d :=
  Fragment.compileSelect_congr (q.dense_pieces d)

end

end QueryTree
