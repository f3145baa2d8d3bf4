import QueryTree.Proofs.Paging.Listing
import QueryTree.Proofs.Union.Grammar

/-!
# Rows of a statement with unions

The selections of a statement give rows, whatever they are.  They are combined from the left at one
level, and then put in order and cut as a whole.

* `unite` — what joins the rows of a selection to those before it.
* `combine`, `SetStatement.rows` — the rows of a statement.
* `eraseDups_combine`, `combine_of_all`, `combine_concat` — which duplicates are left depends on
  where in the statement the last union without duplicates stands.
-/

namespace QueryTree

/-! ### Duplicates -/

section

variable {Row : Type} [DecidableEq Row]

theorem filter_eraseDups (p : Row → Bool) (rows : List Row) :
    rows.eraseDups.filter p = (rows.filter p).eraseDups := by
  -- on the length: what is left to look at behind a row is the rest without its copies
  induction h : rows.length using Nat.strong_induction_on generalizing rows with
  | h n ih =>
    cases rows with
    | nil => rfl
    | cons r rows =>
      have hlen : (rows.filter fun s => !s == r).length < n := by
        rw [← h, List.length_cons]
        exact Nat.lt_succ_of_le (List.length_filter_le _ _)
      rw [List.eraseDups_cons, List.filter_cons, List.filter_cons]
      split
      · rw [ih _ hlen _ rfl, List.eraseDups_cons, List.filter_comm]
      · next hp =>
        rw [ih _ hlen _ rfl, List.filter_filter]
        congr 1
        refine List.filter_congr fun s _ => ?_
        by_cases hs : s = r
        · rw [hs]
          simpa using hp
        · simp [hs]

theorem eraseDups_eraseDups (rows : List Row) : rows.eraseDups.eraseDups = rows.eraseDups := by
  induction h : rows.length using Nat.strong_induction_on generalizing rows with
  | h n ih =>
    cases rows with
    | nil => rfl
    | cons r rows =>
      -- the list may get shorter by more than its head, so the induction is on the length
      have hlen : (rows.filter fun s => !s == r).length < n := by
        rw [← h, List.length_cons]
        exact Nat.lt_succ_of_le (List.length_filter_le _ _)
      rw [List.eraseDups_cons, List.eraseDups_cons, filter_eraseDups, List.filter_filter]
      simp only [Bool.and_self]
      rw [ih _ hlen _ rfl]

theorem eraseDups_append_eraseDups (rows more : List Row) :
    (rows ++ more.eraseDups).eraseDups = (rows ++ more).eraseDups := by
  rw [List.eraseDups_append, List.eraseDups_append, List.removeAll, List.removeAll,
    filter_eraseDups, eraseDups_eraseDups]

theorem eraseDups_eraseDups_append (rows more : List Row) :
    (rows.eraseDups ++ more).eraseDups = (rows ++ more).eraseDups := by
  have hr : more.removeAll rows.eraseDups = more.removeAll rows := by
    refine List.filter_congr fun r _ => ?_
    simp
  rw [List.eraseDups_append, List.eraseDups_append, eraseDups_eraseDups, hr]

theorem eraseDups_append_congr {rows rows' more more' : List Row}
    (h : rows.eraseDups = rows'.eraseDups) (h' : more.eraseDups = more'.eraseDups) :
    (rows ++ more).eraseDups = (rows' ++ more').eraseDups := by
  rw [← eraseDups_eraseDups_append, h, eraseDups_eraseDups_append, ← eraseDups_append_eraseDups, h',
    eraseDups_append_eraseDups]

/-! ### Unions -/

/-- The rows of a selection joined to those before it. -/
def unite (keepsDuplicates : Bool) (rows more : List Row) : List Row :=
  if keepsDuplicates then rows ++ more else (rows ++ more).eraseDups

theorem eraseDups_unite (keepsDuplicates : Bool) (rows more : List Row) :
    (unite keepsDuplicates rows more).eraseDups = (rows ++ more).eraseDups := by
  cases keepsDuplicates with
  | true => rfl
  | false => exact eraseDups_eraseDups _

variable (eval : Nat → Selection → List Row)

/-- The rows of some selections joined from the left to `rows`; `k` selections stand before
them. -/
def combine (k : Nat) (rows : List Row) : List (Bool × Selection) → List Row
  | [] => rows
  | (keepsDuplicates, s) :: rest => combine (k + 1) (unite keepsDuplicates rows (eval k s)) rest

/-- The rows of some selections one behind the other. -/
def gather (k : Nat) : List (Bool × Selection) → List Row
  | [] => []
  | (_, s) :: rest => eval k s ++ gather (k + 1) rest

theorem combine_append (k : Nat) (rows : List Row) (ms ns : List (Bool × Selection)) :
    combine eval k rows (ms ++ ns) = combine eval (k + ms.length) (combine eval k rows ms) ns := by
  induction ms generalizing k rows with
  | nil => rfl
  | cons m ms ih =>
    obtain ⟨keepsDuplicates, s⟩ := m
    rw [List.cons_append, combine, combine, ih, List.length_cons, Nat.add_right_comm,
      Nat.add_assoc]

omit [DecidableEq Row] in
theorem gather_append (k : Nat) (ms ns : List (Bool × Selection)) :
    gather eval k (ms ++ ns) = gather eval k ms ++ gather eval (k + ms.length) ns := by
  induction ms generalizing k with
  | nil => rfl
  | cons m ms ih =>
    obtain ⟨keepsDuplicates, s⟩ := m
    rw [List.cons_append, gather, gather, ih, List.length_cons, Nat.add_right_comm, Nat.add_assoc,
      List.append_assoc]

/-- Apart from duplicates, all rows are there. -/
theorem eraseDups_combine (k : Nat) (rows : List Row) (ms : List (Bool × Selection)) :
    (combine eval k rows ms).eraseDups = (rows ++ gather eval k ms).eraseDups := by
  induction ms generalizing k rows with
  | nil => rw [gather, List.append_nil]; rfl
  | cons m ms ih =>
    obtain ⟨keepsDuplicates, s⟩ := m
    rw [combine, ih, gather, ← List.append_assoc]
    exact eraseDups_append_congr (eraseDups_unite _ _ _) rfl

/-- As long as duplicates are kept, all rows are there. -/
theorem combine_of_all {ms : List (Bool × Selection)} (h : ms.all Prod.fst = true) (k : Nat)
    (rows : List Row) : combine eval k rows ms = rows ++ gather eval k ms := by
  induction ms generalizing k rows with
  | nil => exact (List.append_nil _).symm
  | cons m ms ih =>
    obtain ⟨keepsDuplicates, s⟩ := m
    rw [List.all_cons, Bool.and_eq_true] at h
    obtain ⟨rfl, h⟩ := h
    rw [combine, ih h, gather, ← List.append_assoc]
    rfl

theorem combine_concat (k : Nat) (rows : List Row) (ms : List (Bool × Selection)) (s : Selection) :
    combine eval k rows (ms ++ [(false, s)]) =
      (rows ++ gather eval k (ms ++ [(false, s)])).eraseDups := by
  rw [← eraseDups_combine, combine_append]
  exact (eraseDups_eraseDups _).symm

end

/-! ### Statements -/

/-- The rows put in order and cut. -/
def arranged {Row : Type} (sort : List String → List Row → List Row)
    (order : Option (List String)) (window : Option Window) (rows : List Row) : List Row :=
  let sorted := order.elim rows fun keys => sort keys rows
  window.elim sorted fun w => w.cut sorted

namespace SetStatement

variable {Row : Type} [DecidableEq Row] (eval : Nat → Selection → List Row)

/-- The rows of all selections, combined from the left. -/
def combined (e : SetStatement) : List Row := combine eval 1 (eval 0 e.first) e.rest

/-- The rows of the statement: the order and the window are for all of them. -/
def rows (sort : List String → List Row → List Row) (e : SetStatement) : List Row :=
  arranged sort e.order e.window (e.combined eval)

end SetStatement

end QueryTree
