import QueryTree.Proofs.Arguments.Style
import QueryTree.Proofs.Build.Change
import QueryTree.Proofs.Similarity.Agreement

/-!
# Pages of a table

A table is listed page by page: its rows are asked for in the order of a column, so many at a time,
and each request continues after the value that the column has in the last row received.

* `Direction.Allows`, `Direction.Advances` — order in a direction.
* `Listing` — the table and what is asked of it.
* `Statement.Answers` — the rows that a statement gives, read off its clauses.
* `Listing.build_request`, `Listing.isListing_query` — what is asked for a page.
* `Listing.isBehind` — the rows that may be on a page.
* `Listing.gives_iff` — the rows that are.
-/

namespace QueryTree

/-! ### Whole numbers -/

/-- A whole number that a column can hold. -/
inductive Word where
  | signed (n : Int64)
  | unsigned (n : UInt64)

namespace Word

/-- The number itself. -/
def toInt : Word → Int
  | signed n => n.toInt
  | unsigned n => n.toNat

/-- The number as a value of a criterion. -/
def value : Word → Value
  | signed n => .int n
  | unsigned n => .uint n

end Word

/-- The whole number that a value is. -/
def Value.word? : Value → Option Word
  | .int n => some (.signed n)
  | .uint n => some (.unsigned n)
  | _ => none

/-- Whether a comparison holds of two numbers. -/
def Comparison.relates (m n : Int) : Comparison → Bool
  | .eq => m == n
  | .ne => m != n
  | .gt => n < m
  | .gte => n ≤ m
  | .lt => m < n
  | .lte => m ≤ n

namespace Word

theorem word?_value (w : Word) : w.value.word? = some w := by
  cases w <;> rfl

theorem isZero_value (w : Word) : w.value.isZero = decide (w.toInt = 0) := by
  cases w with
  | signed n => exact decide_eq_decide.2 Int64.toInt_inj.symm
  | unsigned n =>
    exact decide_eq_decide.2 (UInt64.toNat_inj.symm.trans Int.natCast_eq_zero.symm)

theorem asScalar_value (w : Word) :
    w.value.asScalar = if w.toInt = 0 then .absent else .present w.value := by
  have h : w.value.asScalar = if w.value.isZero then .absent else .present w.value := by
    cases w <;> rfl
  rw [h, isZero_value]
  by_cases hw : w.toInt = 0 <;> simp [hw]

end Word

/-! ### Order -/

namespace Direction

/-- A number may come before another one. -/
def Allows (m n : Int) : Direction → Prop
  | asc => m ≤ n
  | desc => n ≤ m

/-- A number comes before another one. -/
def Advances (m n : Int) : Direction → Prop
  | asc => m < n
  | desc => n < m

instance (m n : Int) (direction : Direction) : Decidable (direction.Allows m n) :=
  match direction with
  | asc => inferInstanceAs (Decidable (m ≤ n))
  | desc => inferInstanceAs (Decidable (n ≤ m))

variable {direction : Direction} {k m n : Int}

theorem Allows.trans (h : direction.Allows k m) (h' : direction.Allows m n) :
    direction.Allows k n := by
  cases direction with
  | asc => exact Int.le_trans h h'
  | desc => exact Int.le_trans h' h

theorem allows_total (direction : Direction) (m n : Int) :
    direction.Allows m n ∨ direction.Allows n m := by
  cases direction with
  | asc => exact Int.le_total m n
  | desc => exact Int.le_total n m

theorem Advances.asymm (h : direction.Advances m n) : ¬direction.Advances n m := by
  cases direction with
  | asc => exact Int.not_lt.2 (Int.le_of_lt h)
  | desc => exact Int.not_lt.2 (Int.le_of_lt h)

theorem Advances.allows (h : direction.Advances m n) : direction.Allows m n := by
  cases direction with
  | asc => exact Int.le_of_lt h
  | desc => exact Int.le_of_lt h

theorem Allows.advances (h : direction.Allows m n) (hne : m ≠ n) : direction.Advances m n := by
  cases direction with
  | asc => exact Int.lt_iff_le_and_ne.2 ⟨h, hne⟩
  | desc => exact Int.lt_iff_le_and_ne.2 ⟨h, hne.symm⟩

theorem relates_beyond_iff : direction.beyond.relates n m = true ↔ direction.Advances m n := by
  cases direction with
  | asc => exact decide_eq_true_iff
  | desc => exact decide_eq_true_iff

theorem eq_of_text {column : String} {a b : Direction}
    (h : SortKey.text ⟨column, a⟩ = SortKey.text ⟨column, b⟩) : a = b := by
  have hs : a.symbol = b.symbol := (String.append_right_inj _).1 h
  cases a <;> cases b <;> first | rfl | exact absurd hs (by decide)

end Direction

/-! ### Listings -/

/-- A table with a column of distinct whole numbers, and how it is to be listed. -/
structure Listing (Row : Type) where
  /-- The declaration of the table. -/
  table : String
  column : String
  direction : Direction
  /-- How many rows a page has. -/
  size : UInt64
  rows : List Row
  /-- What a row has in the column. -/
  key : Row → Word
  column_ne : column.isEmpty = false
  size_ne : size ≠ 0
  distinct : rows.Pairwise fun a b => (key a).toInt ≠ (key b).toInt

namespace Listing

variable {Row : Type} (l : Listing Row)

/-- The description of a page: the first one, or the one behind a value of the column. -/
def request (last : Option Word) : List Clause :=
  [.source l.table, .sort ⟨l.column, l.direction⟩, .rows l.size] ++
    last.toList.map fun w => .last w.value

/-! ### What a statement gives -/

/-- The number that a row has in the column. -/
def number (row : Row) : Int := (l.key row).toInt

/-- Whether a row passes a leaf of a condition, as far as the leaf compares the column. -/
def passes (row : Row) (n : Node) : Bool :=
  match n.op, n.operand with
  | .compare c, some (.value v) =>
    n.key == l.column && v.word?.any fun w => c.relates (l.number row) w.toInt
  | _, _ => false

end Listing

/-- The rows in a window. -/
def Window.cut {Row : Type} (w : Window) (rows : List Row) : List Row :=
  let rows := rows.drop ((w.offset.map UInt64.toNat).getD 0)
  (w.limit.map UInt64.toNat).elim rows rows.take

/-- A statement that lists the rows of a table under a condition: nothing but columns, source,
condition, order and window, and each leaf of the condition shows what it is. -/
structure Statement.IsListing (d : Dialect) (source : Fragment) (s : Statement) : Prop where
  ctes : s.ctes = []
  items : s.items = [.text "*"]
  sources : s.sources = .text " FROM " :: source
  leaves : ∀ n text, .leaf n text ∈ s.boundConditions → text = n.text d
  groups : s.groups = []
  having : s.having = []
  unions : s.unions = []

/-- The statement gives some rows of the table: those that pass the condition, in the order that is
written, cut to the window. -/
def Statement.Answers {Row : Type} (d : Dialect) (l : Listing Row) (s : Statement)
    (page : List Row) : Prop :=
  s.IsListing d
      (referencePieces d (Source.parse l.table).name (Source.parse l.table).nickname none) ∧
    ∃ direction sorted, s.order = [SortKey.text ⟨l.column, direction⟩] ∧
      sorted.Perm (l.rows.filter fun row =>
        Lexeme.truth? (l.passes row) s.boundConditions == some true) ∧
      sorted.Pairwise (fun a b => direction.Allows (l.number a) (l.number b)) ∧
      page = s.window.cut sorted

namespace Listing

variable {Row : Type} (l : Listing Row) (d : Dialect)

/-- What a request gives. -/
def Gives (last : Option Word) (page : List Row) : Prop :=
  ∃ q, Query.build (l.request last) = .ok q ∧ (q.statement d).Answers d l page

/-! ### The query of a page -/

/-- The value behind which a page starts; zero is none. -/
def cursor (last : Option Word) : Option Word := last.filter fun w => w.toInt != 0

/-- The query that a request describes. -/
def query (last : Option Word) : Query where
  outline := { Outline.empty with
    sorts := [⟨l.column, l.direction⟩]
    page := some ⟨0, l.size, (cursor last).map Word.value⟩ }
  sources := [.parse l.table]
  conditions := []
  having := []
  ctes := []
  unions := []

theorem addAll_request (last : Option Word) :
    Clause.addAll .empty (l.request last) =
      ⟨(l.query last).outline, [.parse l.table], .empty, .empty, [], [], none⟩ := by
  have hs : ∀ d : QueryDraft, d.addSort ⟨l.column, l.direction⟩ =
      d.mapOutline fun o => { o with sorts := o.sorts ++ [⟨l.column, l.direction⟩] } :=
    fun d => if_neg (by simpa using l.column_ne)
  cases last with
  | none =>
    rw [request, Option.toList, List.map_nil, List.append_nil, Clause.addAll, Clause.addAll,
      Clause.add, Clause.add, hs]
    rfl
  | some w =>
    rw [request, Option.toList, List.map_singleton, List.cons_append, Clause.addAll,
      List.cons_append, Clause.addAll, Clause.add, Clause.add, hs]
    simp only [List.cons_append, List.nil_append, Clause.addAll, Clause.add, QueryDraft.setLast,
      Word.asScalar_value]
    by_cases hw : w.toInt = 0
    · -- zero is not set, so the page stays the first one
      have hc : cursor (some w) = none := by simp [cursor, hw]
      rw [if_pos hw, query, hc]
      rfl
    · have hc : cursor (some w) = some w := by simp [cursor, hw]
      rw [if_neg hw, query, hc]
      rfl

theorem build_request (last : Option Word) :
    Query.build (l.request last) = .ok (l.query last) := by
  rw [Query.build, addAll_request, QueryDraft.finish_eq_ok_iff]
  exact ⟨rfl, rfl, rfl, Bool.and_false _, rfl⟩

/-! ### The statement of a page -/

theorem isActive_page (last : Option Value) : Page.isActive ⟨0, l.size, last⟩ = true := by
  simpa [Page.isActive] using l.size_ne

theorem bound?_query (last : Option Word) :
    (l.query last).outline.bound? =
      (cursor last).map fun w => ⟨l.direction.beyond, l.column, w.value⟩ := by
  rw [query, Outline.bound?, Outline.activePage, Option.filter, l.isActive_page, if_pos rfl]
  cases cursor last <;> rfl

theorem boundConditions_query (last : Option Word) :
    ((l.query last).statement d).boundConditions = (cursor last).elim [] fun w =>
      boundLexemes ⟨l.direction.beyond, l.column, w.value⟩ := by
  have hb : ((l.query last).statement d).bound =
      (l.query last).outline.bound?.elim [] boundLexemes := rfl
  have hc : ((l.query last).statement d).conditions = [] := rfl
  rw [Statement.boundConditions, hb, hc, bound?_query]
  cases cursor last <;> rfl

/-- A page is asked for by its size: what is before it is passed over by its bound. -/
theorem window_query (last : Option Word) :
    ((l.query last).statement d).window = ⟨some l.size, none⟩ := by
  have hw : ((l.query last).statement d).window = (l.query last).outline.window := rfl
  have ho : ∀ last, Page.offset ⟨0, l.size, last⟩ = 0 := fun last => by
    simp [Page.offset, Page.number, saturatingMul]
  rw [hw, Outline.window, query, Outline.activePage, Option.filter, l.isActive_page, if_pos rfl]
  simp [ho]

theorem isListing_query (last : Option Word) :
    ((l.query last).statement d).IsListing d
      (referencePieces d (Source.parse l.table).name (Source.parse l.table).nickname none) where
  ctes := rfl
  items := rfl
  sources := by
    obtain ⟨name, nickname, hp⟩ := Source.exists_parse_eq l.table
    rw [query, hp]
    rfl
  leaves := by
    intro n text h
    rw [boundConditions_query] at h
    -- the bound of the paging is the only condition, and there is one only behind a value
    cases hc : cursor last with
    | none =>
      rw [hc] at h
      cases h
    | some w =>
      rw [hc] at h
      cases List.mem_singleton.1 h
      rfl
  groups := rfl
  having := rfl
  unions := rfl

/-! ### The rows of a page -/

/-- The row is behind the last value, as far as there is one. -/
def isBehind (last : Option Word) (row : Row) : Bool :=
  (cursor last).all fun w => l.direction.beyond.relates (l.number row) w.toInt

theorem truth?_boundConditions (last : Option Word) (row : Row) :
    Lexeme.truth? (l.passes row) ((l.query last).statement d).boundConditions =
      some (l.isBehind last row) := by
  have h := Query.truth?_whereLexemes (d := d) (l.passes row) (l.query last)
  rw [Query.whereLexemes, Query.cursor?, bound?_query] at h
  rw [h, isBehind]
  cases cursor last with
  | none => rfl
  | some w =>
    -- on the row the bound compares two numbers
    have hp : l.passes row (.ofValue (.compare l.direction.beyond) l.column w.value) =
        l.direction.beyond.relates (l.number row) w.toInt := by
      simp [passes, Node.ofValue, Word.word?_value]
    rw [Option.map_some, Option.map_some, Option.all_some, Option.all_some, hp]
    exact congrArg some (Bool.and_true _)

/-- A row comes before another one. -/
def Before (a b : Row) : Prop := l.direction.Advances (l.number a) (l.number b)

/-- The rows of the table in order. -/
structure Sorted (rows : List Row) : Prop where
  perm : rows.Perm l.rows
  ordered : rows.Pairwise l.Before

/-- Rows that are not out of order are in order, since no two have the same number. -/
theorem ordered_of_allows {rows rest : List Row} (hp : rows.Perm rest) (hr : rest.Sublist l.rows)
    (h : rows.Pairwise fun a b => l.direction.Allows (l.number a) (l.number b)) :
    rows.Pairwise l.Before := by
  have hd : rows.Pairwise fun a b => l.number a ≠ l.number b :=
    (hp.pairwise_iff Ne.symm).2 (l.distinct.sublist hr)
  exact (h.and hd).imp fun h => h.1.advances h.2

theorem exists_sorted : ∃ rows, l.Sorted rows := by
  let le (a b : Row) : Bool := decide (l.direction.Allows (l.number a) (l.number b))
  -- the sorting allows rows with the same number, of which there are none
  have hs := @List.pairwise_mergeSort Row le
    (fun a b c hab hbc => decide_eq_true ((of_decide_eq_true hab).trans (of_decide_eq_true hbc)))
    (fun a b => by simpa [le] using l.direction.allows_total _ _) l.rows
  have hp := l.rows.mergeSort_perm le
  exact ⟨_, hp, l.ordered_of_allows hp (.refl _) (hs.imp of_decide_eq_true)⟩

theorem eq_of_ordered {rows others : List Row} (h : rows.Pairwise l.Before)
    (ho : others.Pairwise l.Before) (hp : rows.Perm others) : rows = others :=
  hp.eq_of_pairwise (fun _ _ _ _ hab hba => absurd hba hab.asymm) h ho

/-- **What a request gives:** the next rows behind its last value, in order. -/
theorem gives_iff {sorted : List Row} (h : l.Sorted sorted) (last : Option Word)
    (page : List Row) :
    l.Gives d last page ↔ page = (sorted.filter (l.isBehind last)).take l.size.toNat := by
  have hf : (fun row => Lexeme.truth? (l.passes row)
      ((l.query last).statement d).boundConditions == some true) = l.isBehind last := by
    funext row
    rw [truth?_boundConditions]
    cases l.isBehind last row <;> rfl
  have hcut : ∀ rows : List Row,
      ((l.query last).statement d).window.cut rows = rows.take l.size.toNat := fun rows => by
    rw [window_query]
    rfl
  have hperm := h.perm.filter (l.isBehind last)
  constructor
  · rintro ⟨q, hq, -, direction, rows, ho, hp, hs, rfl⟩
    cases (l.build_request last).symm.trans hq
    cases Direction.eq_of_text (List.singleton_inj.1 ho)
    rw [hf] at hp
    -- whatever sorting the answer comes from, no two rows could have been exchanged in it
    have he : rows = sorted.filter (l.isBehind last) :=
      l.eq_of_ordered (l.ordered_of_allows hp List.filter_sublist hs) (h.ordered.filter _)
        (hp.trans hperm.symm)
    rw [hcut, he]
  · rintro rfl
    refine ⟨l.query last, l.build_request last, l.isListing_query d last, l.direction,
      sorted.filter (l.isBehind last), rfl, ?_, ?_, (hcut _).symm⟩
    · rw [hf]
      exact hperm
    · exact (h.ordered.filter _).imp Direction.Advances.allows

end Listing

end QueryTree
