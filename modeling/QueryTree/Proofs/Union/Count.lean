import QueryTree.Proofs.Union.Combination

/-!
# The number of rows

A listing by pages comes with the number of all rows: that of the query without order and window.
Either the rows of the sources are counted, or those of the whole statement as a source.

* `World` — what the sources hold, and what the parts of a selection are worth there.
* `Selection.rows` — the rows of a plain selection: grouped, collapsed by aggregates, and without
  duplicates where it is distinct.
* `Query.unpaged`, `Query.pageRows?` — the query without order and window, and the rows of its
  statement.
* `CountStatement.number?` — the number that a statement of the count gives.
* `Query.counts_iff` — where it is the number of rows.
-/

namespace QueryTree

/-! ### Meaning of a selection -/

/-- What the sources hold, and what the parts of a selection are worth. -/
structure World (Row Datum : Type) where
  /-- The rows of the sources that pass the conditions, behind some named queries. -/
  passing : Option Fragment → Fragment → List Lexeme → List Row
  /-- A column that rows are grouped by. -/
  key : String → Row → Datum
  /-- Whether a group passes a condition. -/
  holds : List Lexeme → List Row → Bool
  /-- A select item for a group. -/
  value : Piece → List Row → Datum
  /-- All columns for a group. -/
  all : List Row → List Datum

/-- Which expressions are aggregates: the calls of the aggregate functions at least. -/
structure AggregateTest where
  passes : String → Bool
  call (f : AggregateFunction) (column : String) : passes (f.call column) = true

/-- The expression of a select item. -/
def Piece.expression : Piece → String
  | text s => s
  | argument _ => ""
  | item expression => expression
  | labelled expression _ => expression

/-- An expression that asks for a list of distinct values. -/
def isDistinctExpression (expression : String) : Bool :=
  distinctKeyword.length < expression.toList.length &&
    Text.startsWithKeyword distinctKeyword expression.toList

namespace Selection

/-- No two of the rows are equal. -/
def isDistinct (s : Selection) : Bool :=
  s.distinct || s.items.any fun i => isDistinctExpression i.expression

/-- Without a grouping, an aggregate or a condition on groups makes all rows one group. -/
def collapses (a : AggregateTest) (s : Selection) : Bool :=
  s.items.any (fun i => a.passes i.expression) || !s.having.isEmpty

section

variable {Row Datum : Type} [DecidableEq Datum] (a : AggregateTest) (w : World Row Datum)
  (named : Option Fragment) (s : Selection)

/-- The groups of the rows that pass the conditions.  Without a grouping each row is one, unless all
rows together are. -/
def groups : List (List Row) :=
  let rows := w.passing named s.sources s.conditions
  if s.groupBy.isEmpty then
    if s.collapses a then [rows] else rows.map ([·])
  else
    let key (r : Row) : List Datum := s.groupBy.map fun column => w.key column r
    (rows.map key).eraseDups.map fun k => rows.filter fun r => key r = k

/-- The groups that pass the conditions on groups. -/
def keptGroups : List (List Row) :=
  if s.having.isEmpty then s.groups a w named else (s.groups a w named).filter (w.holds s.having)

/-- The rows of the selection. -/
def rows : List (List Datum) :=
  let rows := (s.keptGroups a w named).map fun g =>
    if s.items.isEmpty then w.all g else s.items.map fun i => w.value i g
  if s.isDistinct then rows.eraseDups else rows

end

/-- The selection with the number of rows in place of its select list. -/
def counted (s : Selection) : Selection :=
  { s with distinct := false, items := [.text (AggregateFunction.count.call "")] }

end Selection

/-- The rows of a statement. -/
def SetStatement.valuedRows {Row Datum : Type} [DecidableEq Datum] (a : AggregateTest)
    (w : World Row Datum) (sort : List String → List (List Datum) → List (List Datum))
    (e : SetStatement) : List (List Datum) :=
  e.rows (fun _ s => s.rows a w e.named) sort

/-! ### Statements of the count -/

/-- A statement that gives a number of rows. -/
inductive CountStatement where
  /-- The rows that a plain selection selects from. -/
  | direct (named : Option Fragment) (s : Selection)
  /-- The rows of a statement, as a source. -/
  | wrapped (phrases : List Phrase)

namespace CountStatement

/-- The text of the statement. -/
def pieces (d : Dialect) : CountStatement → Fragment
  | direct named s => named.getD [] ++ .text "SELECT COUNT(*)" :: s.body
  | wrapped phrases =>
    .text "SELECT COUNT(*) FROM " :: (phraseText d phrases).parenthesized ++
      [.text " AS t_count"]

/-- The number that the statement gives, if it gives one. -/
def number? {Row Datum : Type} [DecidableEq Datum] (a : AggregateTest) (w : World Row Datum)
    (sort : List String → List (List Datum) → List (List Datum)) : CountStatement → Option Nat
  | direct named s =>
    match s.counted.keptGroups a w named with
    | [g] => some g.length
    | _ => none
  | wrapped phrases => (SetStatement.read? phrases).map fun e => (e.valuedRows a w sort).length

end CountStatement

namespace Query

/-- The query without order and window. -/
def unpaged (q : Query) : Query :=
  { q with outline := { q.outline with sorts := [], page := none, limit := none, offset := none } }

/-- The statement that counts the rows of a query. -/
def countStatement (d : Dialect) (q : Query) : CountStatement :=
  if q.countsSources then .direct (q.named? d) (q.unpaged.selection d)
  else .wrapped (q.unpaged.phrases d)

section

variable (d : Dialect)

/-! ### Text -/

theorem statement_unpaged (q : Query) :
    q.unpaged.statement d =
      { q.statement d with bound := [], order := [], window := ⟨none, none⟩ } := by
  obtain ⟨outline, sources, conditions, having, ctes, unions⟩ := q
  simp only [unpaged, statement]
  rfl

theorem selection_unpaged (q : Query) :
    q.unpaged.selection d = { q.selection d with conditions := (q.statement d).conditions } := by
  rw [selection, statement_unpaged]
  rfl

theorem named?_unpaged (q : Query) : q.unpaged.named? d = q.named? d := by
  rw [named?, statement_unpaged]
  rfl

theorem pieces_unpaged (q : Query) :
    q.unpaged.pieces d = (q.statement d).unordered ++ [.text (d.pagination.text ⟨none, none⟩)] := by
  rw [pieces, statement_unpaged]
  simp [Statement.plain, Statement.unordered, Statement.boundConditions, Statement.body, orderText]

theorem count_eq {q : Query} (h : q.countsSources = true) :
    (q.statement d).count =
      (q.named? d).getD [] ++ .text "SELECT COUNT(*)" :: (q.unpaged.selection d).body := by
  rw [countsSources, Bool.and_eq_true, List.isEmpty_iff] at h
  rw [Statement.count, Statement.body, unions_statement, h.2, unionPieces, groups_statement,
    getD_named?, selection_unpaged, Selection.body, List.append_nil]
  rfl

/-- **The statement of the count is the text of what is counted.** -/
theorem toCount_eq (q : Query) : q.toCount d = ((q.countStatement d).pieces d).compile d := by
  rw [toCount, countStatement]
  split
  · next h => rw [count_eq d h]; rfl
  · refine Fragment.compile_congr ?_
    -- the two differ in empty texts only
    have hdense : (q.statement d).unordered.dense =
        (phraseText d (q.unpaged.phrases d)).dense := by
      rw [← dense_pieces, pieces_unpaged, Fragment.dense_append]
      cases d.pagination <;> exact (List.append_nil _).symm
    change Fragment.dense ([.text "SELECT COUNT(*) FROM ", .text "("] ++
        (q.statement d).unordered ++ [.text ")"] ++ [.text " AS t_count"]) =
      Fragment.dense ([.text "SELECT COUNT(*) FROM ", .text "("] ++
        phraseText d (q.unpaged.phrases d) ++ [.text ")"] ++ [.text " AS t_count"])
    simp only [Fragment.dense_append, hdense]

end

end Query

/-! ### Selections that lose rows -/

namespace Selection

variable (a : AggregateTest)

theorem collapses_counted (s : Selection) : s.counted.collapses a = true := by
  rw [collapses, counted, List.any_cons]
  exact Bool.or_eq_true_iff.2 (.inl (Bool.or_eq_true_iff.2 (.inl (a.call .count ""))))

section

variable {Row Datum : Type} [DecidableEq Datum] (w : World Row Datum) (named : Option Fragment)

theorem groups_of_collapses {s : Selection} (hg : s.groupBy = []) (hc : s.collapses a = true) :
    s.groups a w named = [w.passing named s.sources s.conditions] := by
  rw [groups, if_pos (List.isEmpty_iff.2 hg), if_pos hc]

theorem groups_of_not_collapses {s : Selection} (hg : s.groupBy = [])
    (hc : s.collapses a = false) :
    s.groups a w named = (w.passing named s.sources s.conditions).map ([·]) := by
  rw [groups, if_pos (List.isEmpty_iff.2 hg), if_neg (Bool.eq_false_iff.1 hc)]

/-- A selection that neither leaves out duplicates nor collapses has a row for each that it selects
from. -/
theorem number?_direct {s : Selection} (hg : s.groupBy = []) (hd : s.isDistinct = false)
    (hc : s.collapses a = false)
    (sort : List String → List (List Datum) → List (List Datum)) :
    (CountStatement.direct named s).number? a w sort = some (s.rows a w named).length := by
  have hh : s.having.isEmpty = true := by
    rw [collapses, Bool.or_eq_false_iff, Bool.not_eq_false'] at hc
    exact hc.2
  -- the count has one group, with all rows that pass
  have hk : s.counted.keptGroups a w named = [w.passing named s.sources s.conditions] := by
    rw [keptGroups, if_pos (show s.counted.having.isEmpty = true from hh),
      groups_of_collapses a w named (s := s.counted) hg (s.collapses_counted a)]
    rfl
  rw [CountStatement.number?, hk, rows, hd, if_neg Bool.false_ne_true, List.length_map, keptGroups,
    if_pos hh, groups_of_not_collapses a w named hg hc, List.length_map]

end

/-- Two equal rows, in any source and under any condition. -/
def twins : World Unit Unit where
  passing _ _ _ := [(), ()]
  key _ _ := ()
  holds _ _ := true
  value _ _ := ()
  all _ := []

theorem keptGroups_twins (named : Option Fragment) (s : Selection) :
    s.keptGroups a twins named = s.groups a twins named := by
  rw [keptGroups]
  split
  · rfl
  · exact List.filter_true _

/-- A selection that leaves out duplicates or collapses has one row for two equal ones. -/
theorem length_rows_twins {s : Selection} (hg : s.groupBy = [])
    (h : s.isDistinct = true ∨ s.collapses a = true) (named : Option Fragment) :
    (s.rows a twins named).length = 1 := by
  rw [rows, keptGroups_twins]
  by_cases hc : s.collapses a = true
  · rw [groups_of_collapses a twins named hg hc]
    cases s.isDistinct <;> rfl
  · rw [groups_of_not_collapses a twins named hg (eq_false_of_ne_true hc),
      if_pos (h.resolve_right hc)]
    -- two equal rows are one row without duplicates
    have hrow (r : List Unit) : [r, r].eraseDups = [r] := by
      rw [List.eraseDups_cons]
      simp
    exact congrArg List.length (hrow _)

theorem number?_twins {s : Selection} (hg : s.groupBy = []) (named : Option Fragment)
    (sort : List String → List (List Unit) → List (List Unit)) :
    (CountStatement.direct named s).number? a twins sort = some 2 := by
  rw [CountStatement.number?, keptGroups_twins,
    groups_of_collapses a twins named (s := s.counted) hg (s.collapses_counted a)]
  rfl

end Selection

/-! ### Queries that lose rows -/

namespace Query

/-- The rows of the statement of a query without order and window. -/
def pageRows? {Row Datum : Type} [DecidableEq Datum] (d : Dialect) (a : AggregateTest)
    (w : World Row Datum) (sort : List String → List (List Datum) → List (List Datum)) (q : Query) :
    Option (List (List Datum)) :=
  (SetStatement.read? (q.unpaged.phrases d)).map (SetStatement.valuedRows a w sort)

theorem groupBy_of_countsSources (d : Dialect) {q : Query} (h : q.countsSources = true) :
    (q.unpaged.selection d).groupBy = [] := by
  rw [countsSources, Bool.and_eq_true, Bool.and_eq_true, List.isEmpty_iff] at h
  exact h.1.1

/-- A query without unions is read as its selection. -/
theorem pageRows?_of_countsSources {Row Datum : Type} [DecidableEq Datum] (d : Dialect)
    (a : AggregateTest) (w : World Row Datum)
    (sort : List String → List (List Datum) → List (List Datum)) {q : Query}
    (h : q.countsSources = true) :
    q.pageRows? d a w sort = some ((q.unpaged.selection d).rows a w (q.named? d)) := by
  have hu : q.unpaged.unions = [] := by
    rw [countsSources, Bool.and_eq_true, List.isEmpty_iff] at h
    exact h.2
  have hb : areBare q.unpaged.unions = true := by
    rw [hu, areBare]
  have hf : q.unpaged.further d = [] := by
    rw [further_eq, hu, furtherOf]
  rw [pageRows?, q.unpaged.read?_phrases d hb, Option.map_some, leveled, hf, named?_unpaged]
  rfl

/-- **The count of a query gives the number of its rows, whatever the sources hold, if and only if
it counts them as those of a source, or the query neither leaves out duplicates nor collapses.** -/
theorem counts_iff (d : Dialect) (a : AggregateTest) (q : Query) :
    q.toCount d = ((q.countStatement d).pieces d).compile d ∧
    q.unpaged.toSelect d = (phraseText d (q.unpaged.phrases d)).compileSelect d ∧
    ((∀ (Row Datum : Type) [DecidableEq Datum] (w : World Row Datum)
        (sort : List String → List (List Datum) → List (List Datum)),
        (q.countStatement d).number? a w sort = (q.pageRows? d a w sort).map List.length) ↔
      (q.countsSources = true →
        (q.selection d).isDistinct = false ∧ (q.selection d).collapses a = false)) := by
  refine ⟨q.toCount_eq d, q.unpaged.toSelect_eq d, ?_, ?_⟩
  · -- two equal rows are counted as two
    intro h hs
    have hg := q.groupBy_of_countsSources d hs
    have h := h Unit Unit Selection.twins fun _ rows => rows
    rw [countStatement, if_pos hs, Selection.number?_twins a hg,
      q.pageRows?_of_countsSources d a _ _ hs, Option.map_some, Option.some.injEq] at h
    by_contra hn
    have hlost : (q.unpaged.selection d).isDistinct = true ∨
        (q.unpaged.selection d).collapses a = true := by
      rw [selection_unpaged]
      change (q.selection d).isDistinct = true ∨ (q.selection d).collapses a = true
      simpa [-not_and, not_and_or] using hn
    rw [Selection.length_rows_twins a hg hlost] at h
    cases h
  · intro h Row Datum _ w sort
    rw [countStatement]
    split
    · next hs =>
      have hg := q.groupBy_of_countsSources d hs
      rw [Selection.number?_direct a w _ hg (by rw [selection_unpaged]; exact (h hs).1)
        (by rw [selection_unpaged]; exact (h hs).2), q.pageRows?_of_countsSources d a w sort hs]
      rfl
    · rw [CountStatement.number?, pageRows?, Option.map_map]
      rfl

/-- Where the select list asks for distinct values, equal ones are counted all the same. -/
example :
    let q : Query := ⟨{ Outline.empty with results := ["DISTINCT name"] },
      [⟨"t", none, none, none, none⟩], [], [], [], []⟩
    (q.toSelect .default).sql = "SELECT DISTINCT name AS c0 FROM t" ∧
      (q.toCount .default).sql = "SELECT COUNT(*) FROM t" := by
  constructor <;> rfl

end Query

end QueryTree
