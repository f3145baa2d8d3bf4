import QueryTree.Proofs.Nesting.Places

/-!
# Nested queries are renumbered

What is written for a query inside a statement is what is written for it alone.  Only the numbers of
its arguments and of its free names go on from those in front of it, and its arguments stand in one
piece among the others.

* `Stretch`, `Fragment.stretches` — a text as plain stretches, marks of arguments and free names.
* `Fragment.stretches_shifted` — a fragment behind others differs from the fragment alone in its
  numbers only.
* `Compiled.Place` — a place in any of the statements of queries and writes.
* `Query.StandsIn` — a query that stands in a statement, renumbered.
* `Compiled.Place.standsIn` — every query stands so in every place, at any depth.
-/

namespace QueryTree

/-! ### Stretches -/

/-- A stretch of the text of a statement. -/
inductive Stretch where
  | text (s : String)
  /-- The mark of the `k`-th argument. -/
  | mark (k : Nat)
  /-- The free name with the number `j`. -/
  | name (j : Nat)

namespace Stretch

/-- The text of a stretch. -/
def write (p : Placeholder) : Stretch → String
  | text s => s
  | mark k =>
    match p with
    | .question => "?"
    | .dollar => "$" ++ toString k
  | name j => "c" ++ toString j

/-- The text of some stretches, one after the other. -/
def writeAll (p : Placeholder) : List Stretch → String
  | [] => ""
  | s :: rest => s.write p ++ writeAll p rest

/-- The stretch behind `a` arguments and `b` free names. -/
def shift (a b : Nat) : Stretch → Stretch
  | text s => text s
  | mark k => mark (k + a)
  | name j => name (j + b)

theorem writeAll_append {p : Placeholder} {ss ts : List Stretch} :
    writeAll p (ss ++ ts) = writeAll p ss ++ writeAll p ts := by
  induction ss with
  | nil => exact String.empty_append.symm
  | cons s ss ih => rw [List.cons_append, writeAll, writeAll, ih, String.append_assoc]

end Stretch

/-- The stretches of a piece. -/
def Piece.stretches (n : Numbering) : Piece → List Stretch
  | text s => [.text s]
  | argument _ => [.mark (n.arguments + 1)]
  | item expression => [.text (expression ++ " AS "), .name n.names]
  | labelled expression label => [.text (expression ++ " AS " ++ label)]

theorem Numbering.afterAll_append (n : Numbering) (f g : Fragment) :
    n.afterAll (f ++ g) = (n.afterAll f).afterAll g := List.foldl_append

namespace Fragment

/-- The stretches of a fragment. -/
def stretches (n : Numbering) : Fragment → List Stretch
  | [] => []
  | piece :: rest => piece.stretches n ++ stretches (n.after piece) rest

/-- How many free names a fragment gives. -/
def freeNames : Fragment → Nat
  | [] => 0
  | .item _ :: rest => freeNames rest + 1
  | _ :: rest => freeNames rest

theorem writeAll_stretches {p : Placeholder} {n : Numbering} {f : Fragment} :
    Stretch.writeAll p (f.stretches n) = f.render p n := by
  induction f generalizing n with
  | nil => rfl
  | cons piece rest ih =>
    have hpiece : Stretch.writeAll p (piece.stretches n) = piece.render p n := by
      cases piece with
      | argument v => cases p <;> exact String.append_empty
      | item expression =>
        simp [Piece.stretches, Stretch.writeAll, Stretch.write, Piece.render, freeName]
      | text s => exact String.append_empty
      | labelled expression label => exact String.append_empty
    rw [stretches, Stretch.writeAll_append, ih, hpiece, render]

theorem names_afterAll {n : Numbering} {f : Fragment} :
    (n.afterAll f).names = n.names + f.freeNames := by
  induction f generalizing n with
  | nil => rfl
  | cons piece rest ih =>
    rw [Numbering.afterAll, List.foldl_cons, ← Numbering.afterAll, ih]
    cases piece with
    | item expression => exact Nat.succ_add_eq_add_succ n.names (freeNames rest)
    | text s => rfl
    | argument v => rfl
    | labelled expression label => rfl

theorem afterAll_eq (n : Numbering) (f : Fragment) :
    n.afterAll f = ⟨n.arguments + f.arguments.length, n.names + f.freeNames⟩ := by
  rw [← arguments_afterAll, ← names_afterAll]

/-- **A fragment behind others differs from the fragment alone in its numbers only.** -/
theorem stretches_shifted (n : Numbering) (a b : Nat) (f : Fragment) :
    f.stretches ⟨n.arguments + a, n.names + b⟩ = (f.stretches n).map (.shift a b) := by
  -- arguments and free names are counted apart, and each piece moves at most one of them
  induction f generalizing n with
  | nil => rfl
  | cons piece rest ih =>
    rw [stretches, stretches, List.map_append]
    cases piece with
    | argument v =>
      rw [← ih]
      simp [Piece.stretches, Stretch.shift, Numbering.after, Nat.add_right_comm]
    | item expression =>
      rw [← ih]
      simp [Piece.stretches, Stretch.shift, Numbering.after, Nat.add_right_comm]
    | text s => exact congrArg _ (ih n)
    | labelled expression label => exact congrArg _ (ih n)

end Fragment

/-! ### Queries in statements -/

namespace Query

/-- The query as it is written alone, in stretches. -/
def stretches (d : Dialect) (q : Query) : List Stretch := (q.pieces d).stretches .start

theorem sql_toSelect (d : Dialect) (q : Query) :
    (q.toSelect d).sql = Stretch.writeAll d.placeholder (q.stretches d) :=
  Fragment.writeAll_stretches.symm

/-- A query stands in a statement between two parts: its text as it is written alone, but renumbered
by what is in front of it, and its arguments in one piece. -/
structure StandsIn (d : Dialect) (q : Query) (before behind : Fragment) (c : Compiled) :
    Prop where
  sql : c.sql =
    before.render d.placeholder .start ++
      Stretch.writeAll d.placeholder
        ((q.stretches d).map (.shift before.arguments.length before.freeNames)) ++
      behind.render d.placeholder (Numbering.start.afterAll (before ++ q.pieces d))
  arguments : c.arguments = before.arguments ++ (q.toSelect d).arguments ++ behind.arguments

theorem standsIn_compile (d : Dialect) (q : Query) (before behind : Fragment) :
    q.StandsIn d before behind (Fragment.compile d (before ++ q.pieces d ++ behind)) := by
  refine ⟨?_, ?_⟩
  · have hq : (q.pieces d).render d.placeholder (Numbering.start.afterAll before) =
        Stretch.writeAll d.placeholder
          ((q.stretches d).map (.shift before.arguments.length before.freeNames)) := by
      rw [← Fragment.writeAll_stretches, Fragment.afterAll_eq, Fragment.stretches_shifted,
        stretches]
    rw [Fragment.compile, Fragment.render_append, Fragment.render_append, hq]
  · rw [Fragment.compile, Fragment.arguments_append, Fragment.arguments_append]
    rfl

end Query

/-! ### Statements -/

namespace Compiled

/-- A place for a query in a compiled statement. -/
inductive Place where
  /-- In the statement of the rows of a query. -/
  | rows (place : Query.Place)
  /-- In the statement of their number. -/
  | count (place : Query.Place)
  /-- In the statement of a similarity search. -/
  | nearest (place : Query.Place)
  | update (u : Update) (place : Node.Place)
  | delete (x : Delete) (place : Node.Place)

namespace Place

/-- The statement with a query in the place.  There is none of a search that is not declared. -/
def compile (d : Dialect) (q : Query) : Place → Option Compiled
  | rows place =>
    let c := (place.fill q).toSelect d
    some ⟨c.sql, c.arguments⟩
  | count place => some ((place.fill q).toCount d)
  | nearest place => ((place.fill q).toVectorSearch d).toOption
  | update u place => some (Update.compile d { u with conditions := place.fill q })
  | delete x place => some (Delete.compile d { x with conditions := place.fill q })

/-- Whether what stands in the place is written. -/
def isWritten : Place → Bool
  | rows place => place.isWritten
  | count place => place.isWritten
  | nearest place => place.isWritten
  | update _ _ => true
  | delete _ _ => true

variable (d : Dialect)

theorem surrounds_count {p : Query.Place} (h : p.isWritten = true) :
    ∃ whole : Query → Fragment, (∀ q, (p.fill q).toCount d = Fragment.compile d (whole q)) ∧
      Surrounds (Query.pieces d) whole := by
  -- how the rows are counted is the same for all queries in the place
  by_cases hc : ∀ q, (p.fill q).countsSources = true
  · refine ⟨fun q => ((p.fill q).statement d).count, fun q => if_pos (hc q), ?_⟩
    have hs := p.surrounds d h [.text "SELECT COUNT(*)"] [] false
    simpa [Statement.framed, Statement.condition, Statement.count] using hs
  · have hc (q : Query) : ¬(p.fill q).countsSources = true := by
      intro hq
      exact hc fun q' => (p.countsSources_fill q' q).trans hq
    refine ⟨fun q => .text "SELECT COUNT(*) FROM " ::
      ((p.fill q).statement d).unordered.parenthesized ++ [.text " AS t_count"],
      fun q => by rw [Query.toCount, if_neg (hc q)], ?_⟩
    have hs : Surrounds (Query.pieces d) fun q => ((p.fill q).statement d).unordered := by
      have hs := p.surrounds d h (.text "SELECT " :: selectItems p.host.outline) [] false
      simpa [Statement.framed, Statement.condition, Statement.unordered, Query.items_statement,
        Query.Place.outline_fill] using hs
    exact (hs.parenthesized.cons _).append_right _

theorem surrounds_nearest {p : Query.Place} (h : p.isWritten = true) (field : String)
    (search : Search) :
    Surrounds (Query.pieces d) fun q =>
      ((p.fill q).statement d).nearest d.pagination field search := by
  have hs := p.surrounds d h
    (.text "SELECT " :: selectItems p.host.outline ++ Statement.distanceItem field search)
    (orderText ("distance" :: p.host.outline.sorts.map SortKey.text) ++ [.text (d.pagination.text
      { p.host.outline.window with limit := some search.fetchLimit })]) true
  simpa [Statement.framed, Statement.condition, Statement.nearest, Query.items_statement,
    Query.order_statement, Query.window_statement, Query.Place.outline_fill] using hs

theorem surrounds_where (p : Node.Place) :
    Surrounds (Query.pieces d) fun q => whereClause d (p.fill q) := by
  obtain ⟨hne, h⟩ := p.surrounds d false false false
  exact h.clause " WHERE " hne

/-- **Around a query in a place of a statement, the rest of the statement stays as it is.** -/
theorem surrounds {p : Place} (h : p.isWritten = true) :
    (∀ q, p.compile d q = none) ∨
    ∃ whole : Query → Fragment, (∀ q, p.compile d q = some (Fragment.compile d (whole q))) ∧
      Surrounds (Query.pieces d) whole := by
  cases p with
  | rows place =>
    refine .inr ⟨fun q => (place.fill q).pieces d, fun q => rfl, ?_⟩
    have hall : [place].all Query.Place.isWritten = true := (Bool.and_true _).trans h
    exact Query.surrounds_fillAll d hall
  | count place =>
    obtain ⟨whole, hw, hs⟩ := surrounds_count d h
    exact .inr ⟨whole, fun q => congrArg some (hw q), hs⟩
  | nearest place =>
    -- whether there is a search at all does not depend on the query
    by_cases hn : ∀ q, (place.fill q).vectorSearch? = none
    · left
      intro q
      simp [compile, Query.toVectorSearch, hn q, Except.toOption]
    · obtain ⟨q, hn⟩ := not_forall.1 hn
      obtain ⟨⟨field, search⟩, hn⟩ := Option.ne_none_iff_exists'.1 hn
      refine .inr ⟨_, fun q' => ?_, surrounds_nearest d h field search⟩
      simp [compile, Query.toVectorSearch, (place.vectorSearch?_fill q' q).trans hn,
        Except.toOption]
  | update u place =>
    refine .inr ⟨fun q => .text ("UPDATE " ++ u.table ++ " SET ") ::
      Fragment.separated ", " (u.assignments.map Assignment.pieces) ++
        whereClause d (place.fill q), fun q => rfl, ?_⟩
    exact (surrounds_where d place).append_left _
  | delete x place =>
    refine .inr ⟨fun q => .text ("DELETE FROM " ++ x.table) :: whereClause d (place.fill q),
      fun q => rfl, ?_⟩
    exact (surrounds_where d place).cons _

/-- **A nested query is written as it is written alone,** whatever statement it stands in and at
whatever depth, as long as every place on the way is written: only its numbers go on from those in
front of it, and its arguments stand in one piece. -/
theorem standsIn {p : Place} {places : List Query.Place} (hp : p.isWritten = true)
    (hplaces : places.all Query.Place.isWritten = true) :
    (∀ q : Query, (q.toSelect d).sql = Stretch.writeAll d.placeholder (q.stretches d)) ∧
    ((∀ q, p.compile d (.fillAll places q) = none) ∨
      ∃ before behind : Fragment, ∀ q, ∃ c,
        p.compile d (.fillAll places q) = some c ∧ q.StandsIn d before behind c) := by
  refine ⟨Query.sql_toSelect d, ?_⟩
  obtain hnone | ⟨whole, hc, hs⟩ := p.surrounds d hp
  · exact .inl fun q => hnone _
  · right
    -- what is around the query in its places, and around those in the statement
    obtain ⟨before, behind, hw⟩ :=
      (Query.surrounds_fillAll d hplaces).trans (hs.comp (Query.fillAll places))
    refine ⟨before, behind, fun q => ⟨_, hc _, ?_⟩⟩
    have hw : whole (.fillAll places q) = before ++ q.pieces d ++ behind := hw q
    rw [hw]
    exact q.standsIn_compile d before behind

/-- A query in a source of a query in the conditions of another one, behind an argument. -/
theorem standsIn_of_condition :
    let host : Query := ⟨.empty, [.parse "a"], [], [], [], []⟩
    let p : Place := .rows (.condition host
      (.operand [.ofValue (.compare .eq) "k" (.int 1)] "a.id IN" [] []))
    p.isWritten = true ∧
      [Query.Place.source host [] (.parse "b") []].all Query.Place.isWritten = true ∧
      ∃ before behind : Fragment, ∀ q, ∃ c,
        p.compile .postgres (.fillAll [.source host [] (.parse "b") []] q) = some c ∧
          q.StandsIn .postgres before behind c := by
  intro host p
  have hp : p.isWritten = true := rfl
  have hplaces : [Query.Place.source host [] (.parse "b") []].all Query.Place.isWritten = true :=
    rfl
  refine ⟨hp, hplaces, ?_⟩
  obtain h | h := (standsIn .postgres hp hplaces).2
  · exact absurd (h host) (Option.some_ne_none _)
  · exact h

/-- A source behind a comma is written without its condition, so a query in the condition stands
nowhere: its argument is missing. -/
theorem not_standsIn_of_comma :
    let q : Query := ⟨.empty, [.parse "c"], [.ofValue (.compare .eq) "k" (.int 1)], [], [], []⟩
    let p : Place := .rows (.on ⟨.empty, [], [], [], [], []⟩ [.parse "a"]
      { Source.parse "b" with join := some .comma } (.operand [] "b.id IN" [] []) [])
    ¬∃ before behind c, p.compile .postgres q = some c ∧ q.StandsIn .postgres before behind c := by
  rintro q p ⟨before, behind, c, hc, h⟩
  have hq : (q.toSelect .postgres).arguments = [.int 1] := rfl
  have hp : p.compile .postgres q = some ⟨((p.compile .postgres q).get rfl).sql, []⟩ := rfl
  rw [hp, Option.some.injEq] at hc
  have ha := h.arguments
  rw [← hc, hq] at ha
  simp at ha

end Place

end Compiled

end QueryTree
