import QueryTree.Proofs.Condition.Places
import QueryTree.Proofs.Mutation.Filtered
import QueryTree.Proofs.Nesting.Places
import QueryTree.Proofs.Value.Normalized

/-!
# Required sets

A set that has to have members guards a query or a write against losing its restriction.  Either
nothing is built at all, or the set is in the conditions, and in the text behind "WHERE", with all
its members.

* `Node.required`, `requiredText` — the node of a required set, and its text.
* `WrittenIn` — a text is part of the condition of a statement.
* `Kept` — a required set is in the conditions and in the statement.
* `required_set_kept` — it is, in whatever is built around it.
-/

namespace QueryTree

variable {d : Dialect} {p : Placeholder}

/-! ### The node of a required set -/

/-- The members of a set, as they are written. -/
def Value.membersText (v : Value) : String := ", ".intercalate (v.members.map literal)

/-- The node that holds the members of a required set. -/
def Node.required (key : String) (v : Value) : Node :=
  .ofValue (.member .isIn) key (.list v.members)

/-- The text of a required set. -/
def requiredText (key : String) (v : Value) : String := key ++ " IN (" ++ v.membersText ++ ")"

theorem Node.text_required (key : String) (v : Value) :
    (Node.required key v).text d = [.text (requiredText key v)] := by
  rw [required, requiredText, Value.membersText, ← Value.literals_eq_map]
  simp only [text, leafText, ofValue, leafPieces, Value.literal, String.append_assoc]
  rfl

theorem Node.lexemes_required (key : String) (v : Value) :
    (Node.required key v).lexemes d =
      [.leaf (.required key v) [.text (requiredText key v)]] := by
  rw [lexemes_of_leaf rfl, text_required, if_neg]
  simp [requiredText]

/-- A required set that is not misused has members, and adds them. -/
theorem Criterion.effect_inRequired {key : String} {v : Value}
    (h : (inRequired key v).effect.misuse? = none) :
    v.members ≠ [] ∧ (inRequired key v).effect = .node (.required key v) := by
  rw [effect] at h ⊢
  cases hv : v.asMembers with
  | present w =>
    obtain ⟨rfl, hne⟩ := Value.eq_of_asMembers hv
    exact ⟨hne, rfl⟩
  | absent =>
    rw [hv] at h
    cases h
  | invalid why =>
    rw [hv] at h
    cases h

/-! ### The condition of a statement -/

/-- Behind "WHERE" the statement has this condition, and the text is a part of it. -/
def WrittenIn (p : Placeholder) (condition : List Lexeme) (text sql : String) : Prop :=
  ∃ front before behind back : String,
    sql = front ++ " WHERE " ++ (before ++ text ++ behind) ++ back ∧
    ∃ n, before ++ text ++ behind = Fragment.render p n (condition.flatMap Lexeme.pieces)

/-- The fragment has this condition behind "WHERE". -/
def Fragment.HasCondition (condition : List Lexeme) (f : Fragment) : Prop :=
  ∃ front back, f = front ++ clause " WHERE " condition ++ back

/-- The text of a leaf is a part of the text of each condition that the leaf is a part of. -/
theorem Fragment.HasCondition.writtenIn {condition : List Lexeme} {f : Fragment}
    (h : f.HasCondition condition) {n : Node} {text : String}
    (hl : .leaf n [.text text] ∈ condition) (m : Numbering) :
    WrittenIn p condition text (f.render p m) := by
  obtain ⟨front, back, rfl⟩ := h
  obtain ⟨before, behind, rfl⟩ := List.append_of_mem hl
  rw [clause, if_neg (by simp)]
  -- the numbering in front of the condition; the text of the leaf does not depend on it
  let after := m.afterAll front
  let pieces := (before ++ .leaf n [.text text] :: behind).flatMap Lexeme.pieces
  have hsplit : Fragment.render p after pieces =
      Fragment.render p after (before.flatMap Lexeme.pieces) ++ text ++
        Fragment.render p (after.afterAll (before.flatMap Lexeme.pieces))
          (behind.flatMap Lexeme.pieces) := by
    simp only [pieces, List.flatMap_append, List.flatMap_cons, render_append, Lexeme.pieces,
      List.singleton_append, render, Piece.render, Numbering.after, String.append_assoc]
  refine ⟨front.render p m, _, _, back.render p (after.afterAll pieces), ?_, after, hsplit.symm⟩
  rw [← hsplit, List.append_assoc, render_append, List.cons_append, render, render_append]
  simp only [Piece.render, Numbering.after, String.append_assoc]
  rfl

namespace Statement

variable (s : Statement)

theorem hasCondition_plain (p : Pagination) : (s.plain p).HasCondition s.boundConditions :=
  ⟨s.ctes ++ .text "SELECT " :: s.items ++ s.sources,
    s.groups ++ clause " HAVING " s.having ++ s.unions ++ orderText s.order ++
      [.text (p.text s.window)], by simp [plain, body]⟩

theorem hasCondition_unordered : s.unordered.HasCondition s.conditions :=
  ⟨s.ctes ++ .text "SELECT " :: s.items ++ s.sources,
    s.groups ++ clause " HAVING " s.having ++ s.unions, by simp [unordered, body]⟩

theorem hasCondition_count : s.count.HasCondition s.conditions :=
  ⟨s.ctes ++ .text "SELECT COUNT(*)" :: s.sources,
    s.groups ++ clause " HAVING " s.having ++ s.unions, by simp [count, body]⟩

theorem hasCondition_nearest (p : Pagination) (field : String) (search : Search) :
    (s.nearest p field search).HasCondition s.boundConditions :=
  ⟨s.ctes ++ .text "SELECT " :: s.items ++ distanceItem field search ++ s.sources,
    s.groups ++ clause " HAVING " s.having ++ s.unions ++ orderText ("distance" :: s.order) ++
      [.text (p.text { s.window with limit := some search.fetchLimit })], by
    simp [nearest, body]⟩

/-- The bound of the paging takes no condition away. -/
theorem mem_boundConditions {l : Lexeme} (h : l ∈ s.conditions) : l ∈ s.boundConditions := by
  -- the conditions are not empty, so they are written, alone or behind the bound
  have hne : s.conditions.isEmpty = false := by
    rw [List.isEmpty_eq_false_iff]
    exact List.ne_nil_of_mem h
  rw [boundConditions]
  split
  · exact h
  · rw [hne, if_neg Bool.false_ne_true]
    split <;> simp [h]

end Statement

/-! ### Required sets are kept -/

/-- A required set that is declared at some place is kept: its members are in the conditions, and
its text is in the condition of the statement. -/
structure Kept (d : Dialect) (place : Criterion.Place) (key : String) (v : Value)
    (nodes : List Node) (condition : List Lexeme) (sql : String) : Prop where
  /-- The set has a member. -/
  members : v.members ≠ []
  /-- The node of the set stands where the set is declared. -/
  locates : place.Locates (.required key v) nodes
  /-- The set is a part of the condition, with all its members. -/
  written : .leaf (.required key v) [.text (requiredText key v)] ∈ condition
  /-- The condition stands behind "WHERE". -/
  restricts : WrittenIn d.placeholder condition (requiredText key v) sql

/-- What a build around a required set puts into the conditions, and what is written of it. -/
theorem kept_of_build {place : Criterion.Place} {key : String} {v : Value} {nodes : List Node}
    (h : Node.build (place.fill (.inRequired key v)) = .ok nodes) {condition : List Lexeme}
    (hc : nodeLexemes d false false false nodes ⊆ condition) {f : Fragment}
    (hf : f.HasCondition condition) :
    Kept d place key v nodes condition (f.render d.placeholder .start) := by
  obtain ⟨hm, hn⟩ := place.locates_of_build h
  obtain ⟨hne, he⟩ := Criterion.effect_inRequired hm
  have hmem : .leaf (.required key v) [.text (requiredText key v)] ∈ condition := by
    refine hc (place.mem_nodeLexemes rfl ?_ (hn _ he) false false false)
    rw [Node.lexemes_required]
    exact List.mem_singleton_self _
  exact ⟨hne, hn _ he, hmem, hf.writtenIn hmem .start⟩

namespace Query

variable (q : Query)

theorem hasCondition_toCount : ∃ f : Fragment,
    f.HasCondition (q.statement d).conditions ∧ q.toCount d = Fragment.compile d f := by
  rw [toCount]
  split
  · exact ⟨_, (q.statement d).hasCondition_count, rfl⟩
  · obtain ⟨front, back, hu⟩ := (q.statement d).hasCondition_unordered
    refine ⟨_, ⟨.text "SELECT COUNT(*) FROM " :: .text "(" :: front,
      back ++ [.text ")"] ++ [.text " AS t_count"], ?_⟩, rfl⟩
    simp [Fragment.parenthesized, hu]

theorem hasCondition_toVectorSearch {c : Compiled} (hc : q.toVectorSearch d = .ok c) :
    ∃ f : Fragment,
      f.HasCondition (q.statement d).boundConditions ∧ c = Fragment.compile d f := by
  rw [toVectorSearch] at hc
  split at hc
  · next field search _ =>
    cases hc
    exact ⟨_, (q.statement d).hasCondition_nearest d.pagination field search, rfl⟩
  · cases hc

end Query

/-- Why a write has no assignments to go with. -/
theorem Assignments.finish_eq_error {a : Assignments} {table : String} {e : Error}
    (h : a.finish table = .error e) :
    (∃ cause, e = .misuse cause) ∨ (a.items = [] ∧ e = .nothingToWrite table) := by
  unfold finish at h
  split at h
  · next cause _ =>
    cases h
    exact .inl ⟨cause, rfl⟩
  · split at h
    · next hi =>
      cases h
      exact .inr ⟨List.isEmpty_iff.1 hi, rfl⟩
    · cases h

/-- **A required set is kept.**  Wherever it is declared, at the top or in groups that are executed,
either the build fails, or the node with its members stands at that place of the conditions and its
text stands in the condition behind "WHERE", whatever else is declared.  This holds of each
statement of a query, of updates and of deletions.  A build fails by a misuse only, except that an
update may also have nothing to write. -/
theorem required_set_kept (d : Dialect) (place : Criterion.Place) (key : String) (v : Value) :
    (∀ clauses, clauses.filterMap Clause.criterion? = place.fill (.inRequired key v) →
      (∃ cause : Misuse, Query.build clauses = .error cause) ∨
      ∃ q, Query.build clauses = .ok q ∧
        Kept d place key v q.conditions (q.statement d).boundConditions (q.toSelect d).sql ∧
        Kept d place key v q.conditions (q.statement d).conditions (q.toCount d).sql ∧
        ∀ c, q.toVectorSearch d = .ok c →
          Kept d place key v q.conditions (q.statement d).boundConditions c.sql) ∧
    (∀ table clauses,
      clauses.filterMap Update.Clause.criterion? = place.fill (.inRequired key v) →
      (∃ cause, Update.build table clauses = .error (.misuse cause)) ∨
      ((Update.assigning clauses).items = [] ∧
        Update.build table clauses = .error (.nothingToWrite table)) ∨
      ∃ u, Update.build table clauses = .ok u ∧
        Kept d place key v u.conditions (nodeLexemes d false false false u.conditions)
          (u.compile d).sql) ∧
    ∀ table,
      (∃ cause, Delete.build table (place.fill (.inRequired key v)) = .error (.misuse cause)) ∨
      ∃ x, Delete.build table (place.fill (.inRequired key v)) = .ok x ∧
        Kept d place key v x.conditions (nodeLexemes d false false false x.conditions)
          (x.compile d).sql := by
  refine ⟨fun clauses hc => ?_, fun table clauses hc => ?_, fun table => ?_⟩
  -- whatever else is declared, the conditions are those of the criteria alone
  · cases hb : Query.build clauses with
    | error cause => exact .inl ⟨cause, rfl⟩
    | ok q =>
      have hn : Node.build (place.fill (.inRequired key v)) = .ok q.conditions :=
        hc ▸ Query.build_eq_ok hb
      have hconditions : nodeLexemes d false false false q.conditions ⊆
          (q.statement d).conditions :=
        fun l hl => q.conditions_statement ▸ hl
      have hbound : nodeLexemes d false false false q.conditions ⊆
          (q.statement d).boundConditions :=
        fun l hl => (q.statement d).mem_boundConditions (hconditions hl)
      refine .inr ⟨q, rfl, ?_, ?_, ?_⟩
      · exact kept_of_build hn hbound ((q.statement d).hasCondition_plain d.pagination)
      · obtain ⟨f, hf, hcount⟩ := q.hasCondition_toCount (d := d)
        rw [hcount]
        exact kept_of_build hn hconditions hf
      · intro c hs
        obtain ⟨f, hf, rfl⟩ := q.hasCondition_toVectorSearch hs
        exact kept_of_build hn hbound hf
  · rw [Update.build_eq, hc]
    cases hn : Node.build (place.fill (.inRequired key v)) with
    | error cause => exact .inl ⟨cause, rfl⟩
    | ok nodes =>
      cases ha : (Update.assigning clauses).finish table with
      | error e =>
        rcases Assignments.finish_eq_error ha with ⟨cause, rfl⟩ | ⟨hnone, rfl⟩
        · exact .inl ⟨cause, rfl⟩
        · exact .inr (.inl ⟨hnone, rfl⟩)
      | ok items =>
        exact .inr (.inr ⟨_, rfl, kept_of_build hn (List.Subset.refl _)
          ⟨Update.head ⟨table, items, nodes⟩, [], (List.append_nil _).symm⟩⟩)
  · rw [Delete.build]
    cases hn : Node.build (place.fill (.inRequired key v)) with
    | error cause => exact .inl ⟨cause, rfl⟩
    | ok nodes =>
      exact .inr ⟨⟨table, nodes⟩, rfl, kept_of_build hn (List.Subset.refl _)
        ⟨Delete.head ⟨table, nodes⟩, [], (List.append_nil _).symm⟩⟩

/-- A required set in a conditional group among alternatives, with a null and an empty text among
what is offered, in a query with a page and in an update. -/
theorem required_set_kept_of_nested :
    let v : Value := .list [.null, .int 1, .text "", .text "a"]
    let place : Criterion.Place :=
      .within [.or] (.plain .any) (.within [.null .isNull "x"] .conditional (.among [] [.or]) [])
        [.compare .eq "y" (.int 0)]
    let criteria : List Criterion :=
      [.or, .group .any [.null .isNull "x", .when (some true) (some [.inRequired "id" v, .or])],
        .compare .eq "y" (.int 0)]
    let clauses : List Clause :=
      [.source "t", .sort ⟨"id", .asc⟩, .last (.int 7)] ++ criteria.map .criterion
    let writes : List Update.Clause := .write (.setNull "z") :: criteria.map .criterion
    (clauses.filterMap Clause.criterion? = place.fill (.inRequired "id" v) ∧
      ∃ q, Query.build clauses = .ok q ∧
        Kept .mysql place "id" v q.conditions (q.statement .mysql).boundConditions
          (q.toSelect .mysql).sql) ∧
    (writes.filterMap Update.Clause.criterion? = place.fill (.inRequired "id" v) ∧
      ∃ u, Update.build "t" writes = .ok u ∧
        Kept .mysql place "id" v u.conditions (nodeLexemes .mysql false false false u.conditions)
          (u.compile .mysql).sql) := by
  intro v place criteria clauses writes
  obtain ⟨hquery, hupdate, -⟩ := required_set_kept .mysql place "id" v
  obtain ⟨q, hq⟩ : ∃ q, Query.build clauses = .ok q := ⟨_, rfl⟩
  obtain ⟨u, hu⟩ : ∃ u, Update.build "t" writes = .ok u := ⟨_, rfl⟩
  refine ⟨⟨rfl, ?_⟩, rfl, ?_⟩
  · rcases hquery clauses rfl with ⟨cause, h⟩ | ⟨q, h, hk, -, -⟩
    · cases hq.symm.trans h
    · exact ⟨q, h, hk⟩
  · rcases hupdate "t" writes rfl with ⟨cause, h⟩ | ⟨-, h⟩ | h
    · cases hu.symm.trans h
    · cases hu.symm.trans h
    · exact h

/-- An update with a required set that writes no column is no misuse, and yet is not built. -/
theorem unbuilt_update_of_required :
    let clauses : List Update.Clause := [.criterion (.inRequired "id" (.list [.int 1]))]
    Update.build "t" clauses = .error (.nothingToWrite "t") ∧
      (¬∃ cause, Update.build "t" clauses = .error (.misuse cause)) ∧
      ¬∃ u, Update.build "t" clauses = .ok u := by
  intro clauses
  have h : Update.build "t" clauses = .error (.nothingToWrite "t") := rfl
  refine ⟨h, ?_, ?_⟩
  · rintro ⟨cause, hm⟩
    cases h.symm.trans hm
  · rintro ⟨u, hu⟩
    cases h.symm.trans hu

end QueryTree
