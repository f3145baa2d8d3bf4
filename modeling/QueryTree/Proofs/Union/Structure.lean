import QueryTree.Proofs.Union.Combination

/-!
# Unions of whole queries

A member of a union is a query of its own: its members are joined, put in order and cut before it is
joined itself.  It is written without parentheses, though, and so its selections are read at the
level of the query that it is in.

* `Query.rows` — the rows of a query, member by member.
* `areSettled` — where it makes no difference at which level the selections are joined.
* `joinMembers_eq_combine`, `exists_joinMembers_ne_combine` — there, and only there, the rows are
  the same.
* `SetStatement.Denotes` — a statement that gives the rows of a query.
* `Query.denotes_iff` — which queries are written as such a statement.
-/

namespace QueryTree

/-! ### Rows of a query -/

mutual

/-- What joins the selections of a query behind its first, as they are written: whether equal rows
are kept. -/
def Query.kinds : Query → List Bool
  | ⟨_, _, _, _, _, unions⟩ => kindsOf unions

/-- What joins the selections of the members of a union. -/
def kindsOf : List UnionMember → List Bool
  | [] => []
  | ⟨keepsDuplicates, q⟩ :: rest => keepsDuplicates :: q.kinds ++ kindsOf rest

end

section

variable {Row : Type} [DecidableEq Row] (d : Dialect) (eval : Nat → Selection → List Row)
  (sort : List String → List Row → List Row)

mutual

/-- The rows of a query; `k` selections stand before it. -/
def Query.rows (k : Nat) : Query → List Row
  | ⟨outline, sources, conditions, having, ctes, unions⟩ =>
    let q : Query := ⟨outline, sources, conditions, having, ctes, unions⟩
    arranged sort outline.order? outline.window?
      (joinMembers (k + 1) (eval k (q.selection d)) unions)

/-- The rows of the members of a union joined to `rows`; `k` selections stand before them. -/
def joinMembers (k : Nat) (rows : List Row) : List UnionMember → List Row
  | [] => rows
  | ⟨keepsDuplicates, q⟩ :: rest =>
    joinMembers (k + (q.kinds.length + 1)) (unite keepsDuplicates rows (q.rows k)) rest

end

/-- The rows of a query and its members before they are put in order and cut. -/
def Query.combined (q : Query) : List Row :=
  joinMembers d eval sort 1 (eval 0 (q.selection d)) q.unions

theorem Query.rows_eq (k : Nat) (q : Query) :
    q.rows d eval sort k = arranged sort q.outline.order? q.outline.window?
      (joinMembers d eval sort (k + 1) (eval k (q.selection d)) q.unions) := by
  obtain ⟨outline, sources, conditions, having, ctes, unions⟩ := q
  rw [Query.rows]

theorem Query.rows_of_isBare {q : Query} (h : q.isBare = true) (k : Nat) :
    q.rows d eval sort k = joinMembers d eval sort (k + 1) (eval k (q.selection d)) q.unions := by
  rw [isBare_eq] at h
  simp only [Bool.and_eq_true] at h
  rw [rows_eq, Option.isNone_iff_eq_none.1 h.1.1.2, Option.isNone_iff_eq_none.1 h.1.2]
  rfl

end

/-! ### Members and selections -/

mutual

theorem Query.kinds_eq (d : Dialect) (q : Query) : q.kinds = (q.further d).map Prod.fst := by
  obtain ⟨outline, sources, conditions, having, ctes, unions⟩ := q
  rw [Query.kinds, Query.further]
  exact kindsOf_eq d unions

theorem kindsOf_eq (d : Dialect) (unions : List UnionMember) :
    kindsOf unions = (furtherOf d unions).map Prod.fst := by
  cases unions with
  | nil => rw [kindsOf, furtherOf]; rfl
  | cons u rest =>
    obtain ⟨keepsDuplicates, q⟩ := u
    rw [kindsOf, furtherOf, Query.kinds_eq d q, kindsOf_eq d rest, List.map_append]
    rfl

end

theorem Query.areBare_unions {q : Query} (h : q.isBare = true) : areBare q.unions = true := by
  rw [isBare_eq, Bool.and_eq_true] at h
  exact h.2

section

variable {Row : Type} [DecidableEq Row] (d : Dialect) (eval : Nat → Selection → List Row)
  (sort : List String → List Row → List Row)

/-- The selections of a member: its first, and those behind it. -/
def UnionMember.selections (u : UnionMember) : List (Bool × Selection) :=
  (u.keepsDuplicates, u.query.selection d) :: u.query.further d

theorem furtherOf_cons (u : UnionMember) (rest : List UnionMember) :
    furtherOf d (u :: rest) = u.selections d ++ furtherOf d rest := by
  obtain ⟨keepsDuplicates, q⟩ := u
  rw [furtherOf]
  rfl

theorem UnionMember.length_selections (u : UnionMember) :
    (u.selections d).length = u.query.kinds.length + 1 := by
  rw [selections, List.length_cons, u.query.kinds_eq d, List.length_map]

theorem joinMembers_cons (k : Nat) (rows : List Row) (u : UnionMember) (rest : List UnionMember) :
    joinMembers d eval sort k rows (u :: rest) =
      joinMembers d eval sort (k + (u.selections d).length)
        (unite u.keepsDuplicates rows (u.query.rows d eval sort k)) rest := by
  rw [u.length_selections]
  obtain ⟨keepsDuplicates, q⟩ := u
  rw [joinMembers]

mutual

/-- Apart from duplicates, the rows of a bare query are those of its selections. -/
theorem Query.eraseDups_rows {q : Query} (h : q.isBare = true) (k : Nat) :
    (q.rows d eval sort k).eraseDups =
      (eval k (q.selection d) ++ gather eval (k + 1) (q.further d)).eraseDups := by
  have hunions := q.areBare_unions h
  rw [q.rows_of_isBare d eval sort h]
  obtain ⟨outline, sources, conditions, having, ctes, unions⟩ := q
  rw [Query.further]
  exact eraseDups_joinMembers hunions _ _

theorem eraseDups_joinMembers {unions : List UnionMember} (h : areBare unions = true) (k : Nat)
    (rows : List Row) :
    (joinMembers d eval sort k rows unions).eraseDups =
      (rows ++ gather eval k (furtherOf d unions)).eraseDups := by
  cases unions with
  | nil => rw [joinMembers, furtherOf, gather, List.append_nil]
  | cons u rest =>
    obtain ⟨keepsDuplicates, q⟩ := u
    rw [areBare, Bool.and_eq_true] at h
    rw [joinMembers_cons, eraseDups_joinMembers h.2, furtherOf_cons, gather_append,
      ← List.append_assoc]
    -- whether duplicates are left out on the way makes no difference to what is left in the end
    refine eraseDups_append_congr ?_ rfl
    rw [eraseDups_unite]
    exact eraseDups_append_congr rfl (Query.eraseDups_rows h.1 k)

end

mutual

/-- As long as duplicates are kept, the rows of a bare query are those of its selections. -/
theorem Query.rows_of_all {q : Query} (h : q.isBare = true) (hk : q.kinds.all id = true) (k : Nat) :
    q.rows d eval sort k = eval k (q.selection d) ++ gather eval (k + 1) (q.further d) := by
  have hunions := q.areBare_unions h
  rw [q.rows_of_isBare d eval sort h]
  obtain ⟨outline, sources, conditions, having, ctes, unions⟩ := q
  rw [Query.kinds] at hk
  rw [Query.further]
  exact joinMembers_of_all hunions hk _ _

theorem joinMembers_of_all {unions : List UnionMember} (h : areBare unions = true)
    (hk : (kindsOf unions).all id = true) (k : Nat) (rows : List Row) :
    joinMembers d eval sort k rows unions = rows ++ gather eval k (furtherOf d unions) := by
  cases unions with
  | nil => rw [joinMembers, furtherOf, gather, List.append_nil]
  | cons u rest =>
    obtain ⟨keepsDuplicates, q⟩ := u
    rw [areBare, Bool.and_eq_true] at h
    rw [kindsOf, List.all_append, List.all_cons, Bool.and_eq_true, Bool.and_eq_true] at hk
    -- this member, those inside it and those behind it all keep duplicates
    obtain ⟨⟨rfl, hq⟩, hrest⟩ := hk
    rw [joinMembers_cons, joinMembers_of_all h.2 hrest, Query.rows_of_all h.1 hq, furtherOf_cons,
      gather_append, ← List.append_assoc]
    rfl

end

end

/-! ### Where the level makes no difference -/

/-- All rows of the member are kept. -/
def UnionMember.keepsAll (u : UnionMember) : Bool := u.keepsDuplicates && u.query.kinds.all id

/-- The member is joined without duplicates, and so is the last selection in it. -/
def UnionMember.closes (u : UnionMember) : Bool :=
  !u.keepsDuplicates && !u.query.kinds.getLast?.getD false

/-- The last member in which duplicates are left out is joined without duplicates, and ends so. -/
def areSettled : List UnionMember → Bool
  | [] => true
  | u :: rest => if rest.all UnionMember.keepsAll then u.keepsAll || u.closes else areSettled rest

theorem all_keepsAll (unions : List UnionMember) :
    unions.all UnionMember.keepsAll = (kindsOf unions).all id := by
  induction unions with
  | nil => rw [kindsOf]; rfl
  | cons u rest ih =>
    obtain ⟨keepsDuplicates, q⟩ := u
    rw [kindsOf, List.all_cons, ih, List.all_append, List.all_cons]
    rfl

theorem all_fst_furtherOf (d : Dialect) (unions : List UnionMember) :
    (furtherOf d unions).all Prod.fst = unions.all UnionMember.keepsAll := by
  rw [all_keepsAll, kindsOf_eq d, List.all_map]
  rfl

theorem UnionMember.all_fst_selections (d : Dialect) (u : UnionMember) :
    (u.selections d).all Prod.fst = u.keepsAll := by
  rw [selections, keepsAll, u.query.kinds_eq d, List.all_cons, List.all_map]
  rfl

/-- How a member ends as it is written. -/
theorem UnionMember.exists_selections_eq (d : Dialect) (u : UnionMember) :
    ∃ ms keepsDuplicates s, u.selections d = ms ++ [(keepsDuplicates, s)] ∧
      u.closes = (!u.keepsDuplicates && !keepsDuplicates) := by
  rw [closes, u.query.kinds_eq d, selections]
  obtain hf | ⟨ms, ⟨keepsDuplicates, s⟩, hf⟩ := List.eq_nil_or_concat (u.query.further d)
  · rw [hf]
    exact ⟨[], _, _, rfl, by simp⟩
  · rw [hf, List.concat_eq_append, List.map_append, List.map_singleton, List.getLast?_concat]
    exact ⟨_ :: ms, _, s, rfl, rfl⟩

section

variable {Row : Type} [DecidableEq Row] (d : Dialect) (eval : Nat → Selection → List Row)
  (sort : List String → List Row → List Row)

/-- Behind a member that closes, duplicates in front of it make no difference. -/
theorem joinMembers_eq_combine_of {unions : List UnionMember} (h : areBare unions = true)
    (hs : areSettled unions = true) (hall : unions.all UnionMember.keepsAll = false) (k : Nat)
    {rows rows' : List Row} (hrows : rows.eraseDups = rows'.eraseDups) :
    joinMembers d eval sort k rows unions = combine eval k rows' (furtherOf d unions) := by
  induction unions generalizing k rows rows' with
  | nil => cases hall
  | cons u rest ih =>
    rw [areBare_cons, Bool.and_eq_true] at h
    have hdups : (rows ++ u.query.rows d eval sort k).eraseDups =
        (rows' ++ gather eval k (u.selections d)).eraseDups :=
      eraseDups_append_congr hrows (Query.eraseDups_rows d eval sort h.1 k)
    rw [joinMembers_cons, furtherOf_cons, combine_append]
    rw [areSettled] at hs
    by_cases hrest : rest.all UnionMember.keepsAll = true
    · -- so this member is the last one that leaves duplicates out, and closes
      rw [if_pos hrest] at hs
      rw [List.all_cons, hrest, Bool.and_true] at hall
      obtain ⟨ms, keepsDuplicates, s, hsel, hcloses⟩ := u.exists_selections_eq d
      rw [hall, Bool.false_or, hcloses, Bool.and_eq_true, Bool.not_eq_true',
        Bool.not_eq_true'] at hs
      obtain ⟨hkeeps, rfl⟩ := hs
      rw [joinMembers_of_all d eval sort h.2 (all_keepsAll rest ▸ hrest),
        combine_of_all eval (all_fst_furtherOf d rest ▸ hrest), hkeeps, unite,
        if_neg Bool.false_ne_true, hdups, hsel, combine_concat]
    · -- what is joined so far may differ in duplicates, which a later member leaves out
      rw [if_neg hrest] at hs
      refine ih h.2 hs (eq_false_of_ne_true hrest) _ ?_
      rw [eraseDups_unite, eraseDups_combine, hdups]

/-- **Where the members are settled, the rows are those of the selections joined at one level.** -/
theorem joinMembers_eq_combine {unions : List UnionMember} (h : areBare unions = true)
    (hs : areSettled unions = true) (k : Nat) (rows : List Row) :
    joinMembers d eval sort k rows unions = combine eval k rows (furtherOf d unions) := by
  cases hall : unions.all UnionMember.keepsAll with
  | true =>
    rw [joinMembers_of_all d eval sort h (all_keepsAll unions ▸ hall),
      combine_of_all eval (all_fst_furtherOf d unions ▸ hall)]
  | false => exact joinMembers_eq_combine_of d eval sort h hs hall k rfl

end

/-! ### Where it makes a difference -/

section

variable (d : Dialect) {eval : Nat → Selection → List Unit}
  (sort : List String → List Unit → List Unit)

theorem eraseDups_cons_unit (rows : List Unit) : (() :: rows).eraseDups = [()] := by
  rw [List.eraseDups_cons]
  simp

theorem unite_nil_unit (keepsDuplicates : Bool) :
    unite keepsDuplicates [()] ([] : List Unit) = [()] := by
  cases keepsDuplicates <;> rfl

theorem gather_eq_nil {k : Nat} {ms : List (Bool × Selection)}
    (h : ∀ j, k ≤ j → j < k + ms.length → ∀ s, eval j s = []) : gather eval k ms = [] := by
  induction ms generalizing k with
  | nil => rfl
  | cons m ms ih =>
    rw [gather, h k (Nat.le_refl k) (by simp), List.nil_append]
    refine ih fun j hj hlt => h j (by omega) ?_
    rw [List.length_cons]
    omega

theorem combine_of_nil {k : Nat} {ms : List (Bool × Selection)} (rows : List Unit)
    (h : ∀ j, k ≤ j → j < k + ms.length → ∀ s, eval j s = []) :
    combine eval k rows ms = if ms.all Prod.fst then rows else rows.eraseDups := by
  induction ms generalizing k rows with
  | nil => rfl
  | cons m ms ih =>
    obtain ⟨keepsDuplicates, s⟩ := m
    rw [combine, h k (Nat.le_refl k) (by simp), ih _ fun j hj hlt => h j (by omega) (by
      rw [List.length_cons]; omega)]
    rw [List.all_cons]
    cases keepsDuplicates with
    | true =>
      rw [unite, if_pos rfl, List.append_nil]
      rfl
    | false =>
      rw [unite, if_neg Bool.false_ne_true, List.append_nil, eraseDups_eraseDups, ite_self]
      rfl

theorem Query.rows_of_nil {q : Query} (hb : q.isBare = true) {k : Nat}
    (h : ∀ j, k ≤ j → j < k + (q.kinds.length + 1) → ∀ s, eval j s = []) :
    q.rows d eval sort k = [] := by
  have hd := q.eraseDups_rows d eval sort hb k
  rw [h k (Nat.le_refl k) (by omega), gather_eq_nil fun j hj hlt => h j (by omega) (by
    rw [q.kinds_eq d, List.length_map]; omega)] at hd
  -- apart from duplicates there are no rows, so there are none at all
  cases hr : q.rows d eval sort k with
  | nil => rfl
  | cons r rows =>
    rw [hr, List.eraseDups_cons] at hd
    cases hd

theorem joinMembers_of_nil {unions : List UnionMember} (hb : areBare unions = true) {k : Nat}
    (h : ∀ j, k ≤ j → j < k + (furtherOf d unions).length → ∀ s, eval j s = []) :
    joinMembers d eval sort k [()] unions = [()] := by
  induction unions generalizing k with
  | nil => rw [joinMembers]
  | cons u rest ih =>
    rw [areBare_cons, Bool.and_eq_true] at hb
    rw [furtherOf_cons, List.length_append] at h
    have hr : u.query.rows d eval sort k = [] := u.query.rows_of_nil d sort hb.1
      fun j hj hlt => h j hj (by rw [u.length_selections]; omega)
    rw [joinMembers_cons, hr, unite_nil_unit]
    exact ih hb.2 fun j hj hlt => h j (by omega) (by omega)

/-- One row each from the first selection of a statement and from one other. -/
def twoRows (m : Nat) (j : Nat) (_ : Selection) : List Unit :=
  if j = 0 ∨ j = m then [()] else []

theorem twoRows_self (m : Nat) (s : Selection) : twoRows m m s = [()] := if_pos (.inr rfl)

theorem twoRows_of_ne {m j : Nat} (h : j ≠ 0) (hm : j ≠ m) (s : Selection) : twoRows m j s = [] :=
  if_neg (by omega)

theorem join_rest_of_nil (eval : Nat → Selection → List Unit) {rest : List UnionMember}
    (hb : areBare rest = true) (hrest : rest.all UnionMember.keepsAll = true) {k : Nat}
    (h : ∀ j, k ≤ j → j < k + (furtherOf d rest).length → ∀ s, eval j s = []) (rows : List Unit) :
    joinMembers d eval sort k rows rest = rows ∧ combine eval k rows (furtherOf d rest) = rows := by
  rw [joinMembers_of_all d eval sort hb (all_keepsAll rest ▸ hrest),
    combine_of_all eval (all_fst_furtherOf d rest ▸ hrest), gather_eq_nil h, List.append_nil]
  exact ⟨rfl, rfl⟩

/-- A member that is joined with its duplicates and leaves some out inside: a row of its first
selection stays next to an equal one before the member, but not at one level with it. -/
theorem joinMembers_ne_of_keeps {u : UnionMember} {rest : List UnionMember}
    (hb : areBare (u :: rest) = true) (hrest : rest.all UnionMember.keepsAll = true)
    (hkeeps : u.keepsDuplicates = true) (hall : u.keepsAll = false) (k : Nat) :
    joinMembers d (twoRows k) sort k [()] (u :: rest) ≠
      combine (twoRows k) k [()] (furtherOf d (u :: rest)) := by
  rw [areBare_cons, Bool.and_eq_true] at hb
  have hfurther : (u.query.further d).all Prod.fst = false := by
    rw [← u.all_fst_selections d, UnionMember.selections, List.all_cons, hkeeps,
      Bool.true_and] at hall
    exact hall
  have hlen : (u.selections d).length = (u.query.further d).length + 1 := rfl
  -- joined, the one row of the member stays; at one level it is left out as a duplicate
  have hrows : u.query.rows d (twoRows k) sort k = [()] := by
    rw [u.query.rows_of_isBare d _ sort hb.1, twoRows_self]
    exact joinMembers_of_nil d sort (u.query.areBare_unions hb.1) fun j hj _ =>
      twoRows_of_ne (by omega) (by omega)
  have hleveled : combine (twoRows k) k [()] (u.selections d) = [()] := by
    rw [UnionMember.selections, combine, hkeeps, twoRows_self,
      combine_of_nil _ fun j hj _ => twoRows_of_ne (by omega) (by omega), hfurther]
    rfl
  have hr := join_rest_of_nil d sort (twoRows k) hb.2 hrest
    (k := k + (u.selections d).length) fun j hj _ => twoRows_of_ne (by omega) (by omega)
  rw [joinMembers_cons, furtherOf_cons, combine_append, hrows, hkeeps, hleveled, (hr _).1, (hr _).2]
  decide

/-- A member that is joined without duplicates and does not end so: a row of its last selection is
left out with the member, but not at one level with an equal one before it. -/
theorem exists_joinMembers_ne_of_not_closes {u : UnionMember} {rest : List UnionMember}
    (hb : areBare (u :: rest) = true) (hrest : rest.all UnionMember.keepsAll = true)
    (hkeeps : u.keepsDuplicates = false) (hcloses : u.closes = false) {k : Nat} (hk : k ≠ 0) :
    ∃ m, k ≤ m ∧ joinMembers d (twoRows m) sort k [()] (u :: rest) ≠
      combine (twoRows m) k [()] (furtherOf d (u :: rest)) := by
  rw [areBare_cons, Bool.and_eq_true] at hb
  obtain ⟨ms, keepsDuplicates, s, hsel, hc⟩ := u.exists_selections_eq d
  rw [hcloses, hkeeps, Bool.not_false, Bool.true_and, eq_comm, Bool.not_eq_false'] at hc
  subst hc
  have hlen : (u.selections d).length = ms.length + 1 := by
    rw [hsel, List.length_append, List.length_singleton]
  -- at one level the last selection of the member adds a row to the one before it
  have hleveled : combine (twoRows (k + ms.length)) k [()] (u.selections d) = [(), ()] := by
    rw [hsel, combine_append, combine_of_nil [()] fun j hj hlt =>
      twoRows_of_ne (by omega) (by omega), combine, twoRows_self]
    split <;> rfl
  have hr := join_rest_of_nil d sort (twoRows (k + ms.length)) hb.2 hrest
    (k := k + (u.selections d).length) fun j hj _ => twoRows_of_ne (by omega) (by omega)
  refine ⟨k + ms.length, Nat.le_add_right k _, ?_⟩
  rw [joinMembers_cons, furtherOf_cons, combine_append, hkeeps, hleveled, (hr _).1, (hr _).2,
    unite, if_neg Bool.false_ne_true, List.singleton_append, eraseDups_cons_unit]
  decide

/-- **Where the members are not settled, some rows are not those of the selections joined at one
level.** -/
theorem exists_joinMembers_ne_combine {unions : List UnionMember} (hb : areBare unions = true)
    (hs : areSettled unions = false) {k : Nat} (hk : k ≠ 0) :
    ∃ m, k ≤ m ∧ joinMembers d (twoRows m) sort k [()] unions ≠
      combine (twoRows m) k [()] (furtherOf d unions) := by
  induction unions generalizing k with
  | nil => cases hs
  | cons u rest ih =>
    rw [areSettled] at hs
    by_cases hrest : rest.all UnionMember.keepsAll = true
    · rw [if_pos hrest, Bool.or_eq_false_iff] at hs
      cases hkeeps : u.keepsDuplicates with
      | true => exact ⟨k, Nat.le_refl k, joinMembers_ne_of_keeps d sort hb hrest hkeeps hs.1 k⟩
      | false => exact exists_joinMembers_ne_of_not_closes d sort hb hrest hkeeps hs.2 hk
    · rw [if_neg hrest] at hs
      rw [areBare_cons, Bool.and_eq_true] at hb
      obtain ⟨m, hm, hne⟩ := ih hb.2 hs (k := k + (u.selections d).length) (by omega)
      -- the difference lies behind this member, whose own selections have no rows there
      have hlen := u.length_selections d
      have hr : u.query.rows d (twoRows m) sort k = [] := u.query.rows_of_nil d sort hb.1
        fun j hj hlt => twoRows_of_ne (by omega) (by omega)
      have hc : combine (twoRows m) k [()] (u.selections d) = [()] := by
        rw [combine_of_nil [()] fun j hj hlt => twoRows_of_ne (by omega) (by omega)]
        split <;> rfl
      refine ⟨m, by omega, ?_⟩
      rw [joinMembers_cons, furtherOf_cons, combine_append, hr, unite_nil_unit, hc]
      exact hne

end

/-! ### Statements of queries -/

/-- A statement gives the rows of a query.  What a named query, a sort key and a window make of rows
is up to the database, and they act on the statement as a whole, outside the union.  So nothing but
the same text asks every database for the same, and the text is all that is compared of them; the
union in between is compared by its rows. -/
structure SetStatement.Denotes (d : Dialect) (e : SetStatement) (q : Query) : Prop where
  /-- Named queries, order and window are those of the query. -/
  named : e.named = q.named? d
  order : e.order = q.outline.order?
  window : e.window = q.outline.window?
  /-- Before they are put in order and cut, the rows are those of the query, whatever rows the
  selections have. -/
  combined {Row : Type} [DecidableEq Row] (eval : Nat → Selection → List Row)
    (sort : List String → List Row → List Row) : e.combined eval = q.combined d eval sort
  /-- So they are afterwards. -/
  rows {Row : Type} [DecidableEq Row] (eval : Nat → Selection → List Row)
    (sort : List String → List Row → List Row) : e.rows eval sort = q.rows d eval sort 0

/-- **The statement of a query is read as one that gives its rows if and only if the members of its
union bring nothing but selections along, at any depth, and are settled.** -/
theorem Query.denotes_iff (d : Dialect) (q : Query) :
    q.toSelect d = (phraseText d (q.phrases d)).compileSelect d ∧
    ((∃ e, SetStatement.read? (q.phrases d) = some e ∧ e.Denotes d q) ↔
      areBare q.unions = true ∧ areSettled q.unions = true) := by
  refine ⟨q.toSelect_eq d, ?_, ?_⟩
  · rintro ⟨e, he, hd⟩
    have hb := q.areBare_of_read? d he hd.named hd.order hd.window
    refine ⟨hb, ?_⟩
    by_contra hs
    -- two rows tell the two ways of joining apart
    obtain ⟨m, hm, hne⟩ := exists_joinMembers_ne_combine d (fun _ rows => rows) hb
      (eq_false_of_ne_true hs) Nat.one_ne_zero
    rw [q.read?_phrases d hb, Option.some.injEq] at he
    subst he
    have hc := hd.combined (twoRows m) fun _ rows => rows
    have hfirst : twoRows m 0 (q.selection d) = [()] := if_pos (.inl rfl)
    rw [SetStatement.combined, combined, leveled, q.further_eq, hfirst] at hc
    exact hne hc.symm
  · rintro ⟨hb, hs⟩
    have hc {Row : Type} [DecidableEq Row] (eval : Nat → Selection → List Row)
        (sort : List String → List Row → List Row) :
        (q.leveled d).combined eval = q.combined d eval sort := by
      rw [SetStatement.combined, combined, leveled, q.further_eq]
      exact (joinMembers_eq_combine d eval sort hb hs 1 _).symm
    refine ⟨q.leveled d, q.read?_phrases d hb, rfl, rfl, rfl, hc, fun eval sort => ?_⟩
    rw [SetStatement.rows, hc eval sort, rows_eq]
    rfl

/-- The order and the limit of a member stand where those of the whole statement belong. -/
example :
    let member : Query := ⟨{ Outline.empty with sorts := [⟨"id", .asc⟩], limit := some 1 },
      [⟨"b", none, none, none, none⟩], [], [], [], []⟩
    let q : Query := ⟨.empty, [⟨"a", none, none, none, none⟩], [], [], [], [⟨true, member⟩]⟩
    (q.toSelect .default).sql =
        "SELECT * FROM a UNION ALL SELECT * FROM b ORDER BY id ASC LIMIT 1" ∧
      areBare q.unions = false := by
  constructor <;> rfl

end QueryTree
