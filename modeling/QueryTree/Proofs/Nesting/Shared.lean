import QueryTree.Proofs.Nesting.Labels
import QueryTree.Proofs.Similarity.Nearest
import QueryTree.Proofs.Union.Count

/-!
# Clauses shared by the rows and their number

The statement that counts rows is the statement of the rows without order and window, as a source or
with the count in place of its select list.  What is behind the select list is the same fragment in
both.  But free names are counted over the whole statement, so without the select list they begin
earlier, and a nested query that uses one is written differently.

* `Fragment.render_eq_iff` — two countings of free names give one text only where none is used.
* `Query.counted` — the clauses behind the select list.
* `Query.count_shares_iff` — what the two statements share.
-/

namespace QueryTree

namespace Fragment

theorem length_freeName_le {i j : Nat} (h : i ≤ j) :
    (freeName i).length ≤ (freeName j).length := by
  have hlength (n : Nat) : (freeName n).length = 1 + (Nat.toDigits 10 n).length := by
    rw [freeName, String.length_append, Nat.toString_eq_repr, ← String.length_toList (s := n.repr),
      Nat.toList_repr]
    rfl
  rw [hlength, hlength, Nat.add_le_add_iff_left,
    Nat.length_toDigits_le_iff (by decide) Nat.length_toDigits_pos]
  exact Nat.lt_of_le_of_lt h
    ((Nat.length_toDigits_le_iff (by decide) Nat.length_toDigits_pos).1 (Nat.le_refl _))

variable {p : Placeholder} {a i j : Nat}

theorem length_render_le (h : i ≤ j) (f : Fragment) :
    (f.render p ⟨a, i⟩).length ≤ (f.render p ⟨a, j⟩).length := by
  induction f generalizing a i j with
  | nil => exact Nat.le_refl _
  | cons piece rest ih =>
    rw [render, render, String.length_append, String.length_append]
    cases piece with
    | text s => exact Nat.add_le_add_left (ih h) _
    | argument v => exact Nat.add_le_add_left (ih h) _
    | labelled expression label => exact Nat.add_le_add_left (ih h) _
    -- this is where a greater number may have more digits
    | item expression =>
      refine Nat.add_le_add ?_ (ih (Nat.succ_le_succ h))
      simp only [Piece.render, String.length_append, Nat.add_le_add_iff_left]
      exact length_freeName_le h

/-- **Free names that are counted from further on give another text, unless none is used.** -/
theorem render_eq_iff (h : i < j) (f : Fragment) :
    f.render p ⟨a, i⟩ = f.render p ⟨a, j⟩ ↔ f.freeNames = 0 := by
  induction f generalizing a i j with
  | nil => exact iff_of_true rfl rfl
  | cons piece rest ih =>
    rw [render, render]
    cases piece with
    | text s => exact (String.append_right_inj _).trans (ih h)
    | argument v => exact (String.append_right_inj _).trans (ih h)
    | labelled expression label => exact (String.append_right_inj _).trans (ih h)
    | item expression =>
      refine iff_of_false (fun he => ?_) (Nat.succ_ne_zero _)
      -- neither the name nor what is behind it gets shorter, so both are as long as before
      have hname : (freeName i).length ≤ (freeName j).length :=
        length_freeName_le (Nat.le_of_lt h)
      have hrest : (render p ⟨a, i + 1⟩ rest).length ≤ (render p ⟨a, j + 1⟩ rest).length :=
        length_render_le (Nat.succ_le_succ (Nat.le_of_lt h)) rest
      have he : freeName i ++ render p ⟨a, i + 1⟩ rest =
          freeName j ++ render p ⟨a, j + 1⟩ rest := by
        simp only [Piece.render, String.append_assoc, String.append_right_inj] at he
        exact he
      have hlength := congrArg String.length he
      have hlist := congrArg String.toList he
      rw [String.length_append, String.length_append] at hlength
      rw [String.toList_append, String.toList_append] at hlist
      have hn : (freeName i).toList = (freeName j).toList := by
        refine List.append_inj_left hlist ?_
        rw [String.length_toList, String.length_toList]
        omega
      exact Nat.ne_of_lt h (freeName_injective (String.toList_inj.1 hn))

end Fragment

namespace Query

variable (d : Dialect) (q : Query)

/-- The clauses behind the select list, from the sources to the conditions on the groups, where the
rows of the sources are counted. -/
def counted : Fragment :=
  (q.statement d).sources ++ clause " WHERE " (q.statement d).conditions ++
    (q.statement d).groups ++ clause " HAVING " (q.statement d).having

/-- The numbers used by the named queries in front. -/
def behindNamed : Numbering := Numbering.start.afterAll (q.statement d).ctes

theorem body_of_countsSources (h : q.countsSources = true) :
    (q.statement d).body (q.statement d).conditions = q.counted d := by
  rw [countsSources, Bool.and_eq_true, List.isEmpty_iff] at h
  rw [Statement.body, unions_statement, h.2, unionPieces, List.append_nil]
  rfl

theorem arguments_unordered :
    (q.statement d).unordered.arguments =
      (q.statement d).ctes.arguments ++
        ((q.statement d).body (q.statement d).conditions).arguments := by
  have hs : Fragment.arguments (.text "SELECT " :: (q.statement d).items) = [] := by
    rw [items_statement]
    exact arguments_selectItems q.outline
  rw [Statement.unordered, Fragment.arguments_append, Fragment.arguments_append, hs,
    List.append_nil]

theorem toSelect_unpaged :
    (q.unpaged.toSelect d).sql = (q.statement d).unordered.render d.placeholder .start ∧
      (q.unpaged.toSelect d).arguments = (q.statement d).unordered.arguments := by
  have hw : d.pagination.text ⟨none, none⟩ = "" := by cases d.pagination <;> rfl
  have hp : (q.unpaged.statement d).plain d.pagination =
      (q.statement d).unordered ++ [.text ""] := by
    rw [← hw]
    exact q.pieces_unpaged d
  rw [toSelect, hp]
  refine ⟨?_, ?_⟩
  · exact Fragment.render_append.trans String.append_empty
  · exact Fragment.arguments_append.trans (List.append_nil _)

/-- **The count shares its clauses with the rows except for free names.**  With a grouping, distinct
rows or unions, the rows are counted as a source.  Otherwise the count stands in place of the select
list, and the clauses behind it differ in their free names only, which in the one statement are
counted on from those of the select list.  So they are the same texts exactly if the select list or
these clauses use none.  Either way the arguments are the same. -/
theorem count_shares_iff :
    (q.toCount d).arguments = (q.unpaged.toSelect d).arguments ∧
    (q.countsSources = false →
      (q.toCount d).sql =
        "SELECT COUNT(*) FROM (" ++ (q.unpaged.toSelect d).sql ++ ") AS t_count") ∧
    (q.countsSources = true →
      let named := (q.statement d).ctes.render d.placeholder .start
      let n := q.behindNamed d
      let items := selectItems q.outline
      let behind := n.afterAll items
      (q.unpaged.toSelect d).sql =
        named ++ "SELECT " ++ items.render d.placeholder n ++
          (q.counted d).render d.placeholder behind ∧
      (q.toCount d).sql =
        named ++ "SELECT COUNT(*)" ++ (q.counted d).render d.placeholder n ∧
      (q.counted d).stretches behind =
        ((q.counted d).stretches n).map (.shift 0 items.freeNames) ∧
      ((q.toCount d).sql =
          named ++ "SELECT COUNT(*)" ++ (q.counted d).render d.placeholder behind ↔
        items.freeNames = 0 ∨ (q.counted d).freeNames = 0)) := by
  obtain ⟨hsql, harguments⟩ := q.toSelect_unpaged d
  refine ⟨?_, fun hc => ?_, fun hc => ?_⟩
  · rw [harguments, arguments_unordered, toCount]
    split
    · exact Fragment.arguments_append
    · show Fragment.arguments ((q.statement d).unordered.parenthesized ++ _) = _
      rw [Fragment.arguments_append, arguments_parenthesized, arguments_unordered]
      exact List.append_nil _
  · have hw : (q.toCount d).sql =
        "SELECT COUNT(*) FROM " ++ ("(" ++ Fragment.render d.placeholder .start
          ((q.statement d).unordered ++ [.text ")"] ++ [.text " AS t_count"])) := by
      rw [toCount, hc]
      rfl
    have hclosing (n : Numbering) :
        Fragment.render d.placeholder n [.text ")", .text " AS t_count"] = ") AS t_count" := rfl
    rw [hw, List.append_assoc, Fragment.render_append, List.singleton_append, hclosing, hsql,
      ← String.append_assoc, ← String.append_assoc]
    rfl
  · have hbody := q.body_of_countsSources d hc
    have hpage : (q.unpaged.toSelect d).sql =
        (q.statement d).ctes.render d.placeholder .start ++ "SELECT " ++
          (selectItems q.outline).render d.placeholder (q.behindNamed d) ++
            (q.counted d).render d.placeholder
              ((q.behindNamed d).afterAll (selectItems q.outline)) := by
      rw [hsql, Statement.unordered, hbody, items_statement, List.append_assoc,
        Fragment.render_append, List.cons_append, Fragment.render, Fragment.render_append]
      simp only [String.append_assoc]
      rfl
    have hcount : (q.toCount d).sql =
        (q.statement d).ctes.render d.placeholder .start ++ "SELECT COUNT(*)" ++
          (q.counted d).render d.placeholder (q.behindNamed d) := by
      simp only [toCount, if_pos hc, Fragment.compile, Statement.count]
      rw [hbody, Fragment.render_append, Fragment.render, String.append_assoc]
      rfl
    -- a select list holds no arguments, so only the free names move
    have hbehind : (q.behindNamed d).afterAll (selectItems q.outline) =
        ⟨(q.behindNamed d).arguments + 0,
          (q.behindNamed d).names + (selectItems q.outline).freeNames⟩ := by
      rw [Fragment.afterAll_eq, arguments_selectItems]
      rfl
    refine ⟨hpage, hcount, ?_, ?_⟩
    · rw [hbehind, Fragment.stretches_shifted]
    · rw [hcount, String.append_right_inj, hbehind]
      -- with no free name in the list, both are numbered from the same place
      rcases Nat.eq_zero_or_pos (selectItems q.outline).freeNames with h0 | hpos
      · rw [h0]
        exact iff_of_true rfl (.inl rfl)
      · have hlt := Nat.lt_add_of_pos_right (n := (q.behindNamed d).names) hpos
        exact (Fragment.render_eq_iff hlt _).trans
          (or_iff_right (Nat.pos_iff_ne_zero.1 hpos)).symm

/-- A nested query names its column behind the select list, and so otherwise in the count. -/
theorem count_shares_iff_of_nested :
    let nested : Query := ⟨{ Outline.empty with results := ["u.name"] },
      [⟨"users", some "u", none, none, none⟩], [], [], [], []⟩
    let q : Query := ⟨{ Outline.empty with results := ["s.c1"] },
      [.ofQuery nested "s"], [], [], [], []⟩
    q.countsSources = true ∧
      (q.toCount .default).sql ≠ "SELECT COUNT(*)" ++ (q.counted .default).render .question
        ((q.behindNamed .default).afterAll (selectItems q.outline)) := by
  intro nested q
  have hc : q.countsSources = true := rfl
  obtain ⟨-, -, hshares⟩ := count_shares_iff .default q
  obtain ⟨-, -, -, hiff⟩ := hshares hc
  refine ⟨hc, fun he => ?_⟩
  rcases hiff.1 he with h | h <;> cases h

example :
    let nested : Query := ⟨{ Outline.empty with results := ["u.name"] },
      [⟨"users", some "u", none, none, none⟩], [], [], [], []⟩
    let q : Query := ⟨{ Outline.empty with results := ["s.c1"] },
      [.ofQuery nested "s"], [], [], [], []⟩
    (q.toSelect .default).sql =
        "SELECT s.c1 AS c0 FROM (SELECT u.name AS c1 FROM users u) s" ∧
      (q.toCount .default).sql =
        "SELECT COUNT(*) FROM (SELECT u.name AS c0 FROM users u) s" := by
  constructor <;> rfl

end Query

end QueryTree
