import QueryTree.Proofs.Paging.Listing

/-!
# The loop over the pages of a table

The loop asks for the first page and then, again and again, for the page behind the last row that
it has received, until a page is empty.  It visits each row once and in order — unless a page ends
in a row that has zero in the column.  A last value of zero counts as not set, so the loop starts
again from the first page, and it does so whenever it comes back to that row.

* `pages` — the pages into which rows are divided.
* `Listing.Visits` — a run of the loop that ends, and the rows that it has received.
* `Listing.filter_isBehind_key` — one step: what is behind the last row of a page.
* `Listing.visits_rest`, `Listing.eq_of_visits` — whole runs.
* `Listing.visits_iff` — when the loop ends, and what it has visited then.
-/

namespace QueryTree

/-! ### Pages -/

/-- The pages into which some rows are divided; a page has at least one row. -/
def pages {Row : Type} (size : Nat) : List Row → List (List Row)
  | [] => []
  | row :: rest => (row :: rest.take (size - 1)) :: pages size (rest.drop (size - 1))
termination_by rows => rows.length
decreasing_by
  rw [List.length_drop, List.length_cons]
  omega

theorem pages_of_ne_nil {Row : Type} {size : Nat} {rows : List Row} (hn : size ≠ 0)
    (h : rows ≠ []) : pages size rows = rows.take size :: pages size (rows.drop size) := by
  obtain ⟨row, rest, rfl⟩ := List.exists_cons_of_ne_nil h
  obtain ⟨n, rfl⟩ := Nat.exists_eq_succ_of_ne_zero hn
  rw [pages]
  rfl

namespace Listing

variable {Row : Type} (l : Listing Row) (d : Dialect)

theorem size_toNat_ne : l.size.toNat ≠ 0 := fun h => l.size_ne (UInt64.toNat_inj.1 h)

/-- No page of these rows ends in a row that has zero in the column. -/
def EndsNonzero (rows : List Row) : Prop :=
  ∀ page ∈ pages l.size.toNat rows, ∀ row, page.getLast? = some row → l.number row ≠ 0

theorem endsNonzero_nil : l.EndsNonzero [] := by
  rw [EndsNonzero, pages]
  exact List.forall_mem_nil _

theorem endsNonzero_iff {rows : List Row} (h : rows ≠ []) :
    l.EndsNonzero rows ↔
      (∀ row, (rows.take l.size.toNat).getLast? = some row → l.number row ≠ 0) ∧
        l.EndsNonzero (rows.drop l.size.toNat) := by
  rw [EndsNonzero, pages_of_ne_nil l.size_toNat_ne h]
  exact List.forall_mem_cons

/-! ### The loop -/

/-- The loop behind a last value ends, and has received some rows. -/
inductive Visits : Option Word → List Row → Prop
  | done {last : Option Word} (h : l.Gives d last []) : Visits last []
  | more {last : Option Word} {page : List Row} {row : Row} {visited : List Row}
    (h : l.Gives d last page) (hl : page.getLast? = some row)
    (hv : Visits (some (l.key row)) visited) : Visits last (page ++ visited)

/-! ### One step -/

variable {l} {sorted : List Row}

theorem filter_isBehind_none : sorted.filter (l.isBehind none) = sorted :=
  List.filter_eq_self.2 fun _ _ => rfl

theorem filter_isBehind_zero {w : Word} (h : w.toInt = 0) :
    sorted.filter (l.isBehind (some w)) = sorted := by
  refine List.filter_eq_self.2 fun row _ => ?_
  simp [isBehind, cursor, h]

/-- **Behind any other value of the column are the rows behind the row that has it.** -/
theorem filter_isBehind_key {before behind : List Row} {row : Row}
    (h : (before ++ row :: behind).Pairwise l.Before) (hr : l.number row ≠ 0) :
    (before ++ row :: behind).filter (l.isBehind (some (l.key row))) = behind := by
  -- a value that is not zero is a cursor, so behind it means later in the order
  have hb : ∀ r, l.isBehind (some (l.key row)) r = true ↔ l.Before row r := fun r => by
    have hc : cursor (some (l.key row)) = some (l.key row) := by simpa [cursor, number] using hr
    rw [isBehind, hc, Option.all_some]
    exact Direction.relates_beyond_iff
  obtain ⟨-, hcons, hcross⟩ := List.pairwise_append.1 h
  -- rows in front are earlier, and no row is later than itself
  have hbefore : before.filter (l.isBehind (some (l.key row))) = [] :=
    List.filter_eq_nil_iff.2 fun r hmem => by
      rw [hb]
      exact (hcross r hmem row List.mem_cons_self).asymm
  have hrow : ¬l.isBehind (some (l.key row)) row = true := by
    rw [hb]
    exact fun hself => hself.asymm hself
  have hbehind : behind.filter (l.isBehind (some (l.key row))) = behind :=
    List.filter_eq_self.2 fun r hmem => (hb r).2 (List.rel_of_pairwise_cons hcons hmem)
  rw [List.filter_append, hbefore, List.nil_append, List.filter_cons_of_neg hrow, hbehind]

/-- Behind the last row of a page are the rows that are left after the page. -/
theorem filter_isBehind_last (hs : l.Sorted sorted) {n : Nat} {rest : List Row} {row : Row}
    (hr : rest <:+ sorted) (hl : (rest.take n).getLast? = some row)
    (hz : l.number row ≠ 0) :
    sorted.filter (l.isBehind (some (l.key row))) = rest.drop n := by
  obtain ⟨seen, hseen⟩ := hr
  obtain ⟨page, hpage⟩ := List.getLast?_eq_some_iff.1 hl
  have hsplit : sorted = (seen ++ page) ++ row :: rest.drop n := by
    rw [← hseen, List.append_assoc, List.append_cons page, ← hpage, List.take_append_drop]
  have ho := hs.ordered
  rw [hsplit] at ho ⊢
  exact filter_isBehind_key ho hz

/-! ### Whole runs -/

/-- The loop ends if no page that is to come ends in zero. -/
theorem visits_rest (hs : l.Sorted sorted) {last : Option Word} {rest : List Row}
    (hr : rest <:+ sorted) (hf : sorted.filter (l.isBehind last) = rest)
    (h : l.EndsNonzero rest) : l.Visits d last rest := by
  have hg : l.Gives d last (rest.take l.size.toNat) := by rw [l.gives_iff d hs, hf]
  by_cases hnil : rest = []
  · subst hnil
    rw [List.take_nil] at hg
    exact .done hg
  · obtain ⟨hpage, hmore⟩ := (l.endsNonzero_iff hnil).1 h
    have hne : rest.take l.size.toNat ≠ [] := by
      simp [List.take_eq_nil_iff, hnil, l.size_toNat_ne]
    obtain ⟨row, hl⟩ := Option.ne_none_iff_exists'.1 (mt List.getLast?_eq_none_iff.1 hne)
    have hbehind := filter_isBehind_last hs hr hl (hpage row hl)
    -- the next request starts where this page ends
    have hv := visits_rest hs ((List.drop_suffix _ rest).trans hr) hbehind hmore
    have h := Visits.more hg hl hv
    rwa [List.take_append_drop] at h
termination_by rest.length
decreasing_by
  rw [List.length_drop]
  exact Nat.sub_lt (List.length_pos_of_ne_nil hnil) (Nat.pos_of_ne_zero l.size_toNat_ne)

/-- A loop that ends has visited the rows that were to come, and none of their pages ended in
zero.  The pages of these rows are pages of the whole table, also after a restart. -/
theorem eq_of_visits (hs : l.Sorted sorted) {last : Option Word} {visited rest : List Row}
    (h : l.Visits d last visited) (hr : rest <:+ sorted)
    (hp : pages l.size.toNat rest <:+ pages l.size.toNat sorted)
    (hf : sorted.filter (l.isBehind last) = rest) : visited = rest ∧ l.EndsNonzero rest := by
  -- a run that ends has finitely many steps, so it never comes back to where it was
  induction h generalizing rest with
  | done h =>
    have hnil : rest = [] := by
      have := (l.gives_iff d hs _ _).1 h
      rw [hf, eq_comm, List.take_eq_nil_iff] at this
      exact this.resolve_left l.size_toNat_ne
    subst hnil
    exact ⟨rfl, l.endsNonzero_nil⟩
  | @more last page row visited h hl hv ih =>
    obtain rfl : page = rest.take l.size.toNat := hf ▸ (l.gives_iff d hs _ _).1 h
    have hnil : rest ≠ [] := by
      rintro rfl
      rw [List.take_nil] at hl
      cases hl
    rw [pages_of_ne_nil l.size_toNat_ne hnil] at hp
    by_cases hz : l.number row = 0
    · -- back at the first page, the loop would come to this one again
      obtain ⟨-, hends⟩ := ih (List.suffix_refl _) (List.suffix_refl _) (filter_isBehind_zero hz)
      exact absurd hz (hends _ (hp.subset List.mem_cons_self) row hl)
    · obtain ⟨rfl, hends⟩ := ih ((List.drop_suffix _ rest).trans hr)
        ((List.suffix_cons _ _).trans hp) (filter_isBehind_last hs hr hl hz)
      refine ⟨List.take_append_drop _ rest, (l.endsNonzero_iff hnil).2 ⟨?_, hends⟩⟩
      intro r hr
      rw [hl] at hr
      cases hr
      exact hz

/-- **Which tables the loop visits.**  Every request is answered by one page, so the loop never gets
stuck and never has a choice.  It ends if no page ends in a row that has zero in the column, and
then it has visited each row once, in order.  Otherwise it never ends. -/
theorem visits_iff (l : Listing Row) (d : Dialect) :
    (∀ last, ∃ page, l.Gives d last page ∧ ∀ other, l.Gives d last other → other = page) ∧
    ∀ visited, l.Visits d none visited ↔ l.Sorted visited ∧ l.EndsNonzero visited := by
  obtain ⟨sorted, hs⟩ := l.exists_sorted
  constructor
  · intro last
    exact ⟨_, (l.gives_iff d hs last _).2 rfl, fun other => (l.gives_iff d hs last other).1⟩
  · intro visited
    constructor
    · intro h
      obtain ⟨rfl, hends⟩ :=
        eq_of_visits d hs h (List.suffix_refl _) (List.suffix_refl _) filter_isBehind_none
      exact ⟨hs, hends⟩
    · rintro ⟨hs, hends⟩
      -- the invariant of the loop, at its start: all rows are to come
      exact visits_rest d hs (List.suffix_refl _) filter_isBehind_none hends

/-- Three rows, one of them with zero.  On one page of three the loop visits them all; on pages of
two it never ends, since the first page ends in zero. -/
theorem visits_iff_of_zero :
    let l (size : UInt64) (h : size ≠ 0) : Listing Int64 :=
      { table := "t", column := "id", direction := .asc, size := size, rows := [3, 0, -1]
        key := .signed, column_ne := rfl, size_ne := h, distinct := by decide }
    (l 3 (by decide)).Visits .postgres none [-1, 0, 3] ∧
      ¬∃ visited, (l 2 (by decide)).Visits .postgres none visited := by
  intro l
  have hs : ∀ size h, (l size h).Sorted [-1, 0, 3] := fun size h => by
    constructor
    · show [-1, 0, 3].Perm [3, 0, -1]
      decide
    · show List.Pairwise (fun a b : Int64 => a.toInt < b.toInt) [-1, 0, 3]
      decide
  constructor
  · refine ((visits_iff (l 3 (by decide)) .postgres).2 _).2 ⟨hs 3 (by decide), ?_⟩
    have hp : pages 3 [-1, 0, 3] = [[-1, 0, (3 : Int64)]] := by simp [pages]
    show ∀ page ∈ pages 3 _, _
    rw [hp, List.forall_mem_singleton]
    rintro row ⟨rfl⟩
    decide
  · rintro ⟨visited, hv⟩
    obtain ⟨hv, hends⟩ := ((visits_iff (l 2 (by decide)) .postgres).2 visited).1 hv
    have he : [-1, 0, 3] = visited := eq_of_ordered _ (hs 2 (by decide)).ordered hv.ordered
      ((hs 2 (by decide)).perm.trans hv.perm.symm)
    subst he
    refine hends [-1, 0] ?_ 0 rfl rfl
    show [-1, 0] ∈ pages 2 [-1, 0, 3]
    simp [pages]

end Listing

end QueryTree
