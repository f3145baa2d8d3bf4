import QueryTree.Proofs.Condition.Rendering
import QueryTree.Proofs.Similarity.Chains

/-!
# Statement and filter agree

A query is turned into a statement and into a similarity request by two recursions that share
nothing.  They agree on what the query filters: the condition of the statement and the filter of the
request have the same truth value, once the leaves are left out that the backend does not translate.

* `Op.isTranslated`, `Query.translated` — leaving those leaves out.
* `Node.worth` — the truth value of a leaf of a statement, given those of the conditions that a
  filter can state.
* `Node.meaning_translatedAll` — what is left of a tree means what its filter says.
* `Lexeme.truth?`, `Lexeme.render_clause` — the truth value of a condition, and its SQL text.
* `Query.truth?_whereLexemes` — the bound of the paging holds for all conditions.
* `Query.whereLexemes_agrees` — the two agree.
-/

namespace QueryTree

variable {d : Dialect} {α : Atom → Bool} {other : Node → Bool}

/-! ### Leaving leaves out -/

/-- The operators that the backend translates, or that stand for no condition. -/
def Op.isTranslated : Op → Bool
  | .compare .ne => false
  | .pattern _ => false
  | .raw => false
  | .subquery => false
  | .distance => false
  | _ => true

mutual

/-- A node without the leaves below it that the backend does not translate. -/
def Node.translated : Node → Node
  | ⟨op, key, operand, subs⟩ =>
    match op with
    | .group j => ⟨.group j, key, operand, translatedAll subs⟩
    | op => ⟨op, key, operand, subs⟩

/-- Some nodes without the leaves that the backend does not translate. -/
def Node.translatedAll : List Node → List Node
  | [] => []
  | n :: ns => if n.op.isTranslated then n.translated :: translatedAll ns else translatedAll ns

end

/-- A query without the leaves of its conditions that the backend does not translate. -/
def Query.translated (q : Query) : Query := { q with conditions := Node.translatedAll q.conditions }

/-! ### Truth of leaves -/

namespace Node

/-- The truth value of a leaf of a statement, given those of the conditions that a filter can state
and those of all other leaves. -/
def worth (α : Atom → Bool) (other : Node → Bool) (n : Node) : Bool :=
  match n.op, n.operand with
  | .compare c, some (.value v) => α (.compare c n.key v.toJson)
  | .member .isIn, some (.value v) => α (.isIn n.key (Filter.members v.toJson))
  | .member .notIn, some (.value v) => !α (.isIn n.key (Filter.members v.toJson))
  | .null .isNull, _ => α (.isNull n.key)
  | .null .nonNull, _ => !α (.isNull n.key)
  | _, _ => other n

theorem writtenTruth?_of_isVoid (ν : Node → Bool) {n : Node} (h : (n.text d).isVoid = true) :
    n.writtenTruth? d ν = none := if_pos h

theorem writtenTruth?_of_not_isVoid (ν : Node → Bool) {n : Node}
    (h : (n.text d).isVoid = false) : n.writtenTruth? d ν = some (ν n) := by
  rw [writtenTruth?, h, if_neg Bool.false_ne_true]

/-- A leaf that the backend translates has a text if it has a literal, and then is worth as much. -/
theorem writtenTruth?_worth {n : Node} (hg : n.op.isGroup = false) (ht : n.op.isTranslated = true) :
    n.writtenTruth? d (worth α other) = n.filterTruth? α := by
  obtain ⟨op, key, operand, subs⟩ := n
  -- what no statement shows has neither a text nor a literal
  have silent (hs : op ≠ .subquery) (hp : leafPieces d op key operand = []) :
      writtenTruth? d (worth α other) ⟨op, key, operand, subs⟩ = none :=
    writtenTruth?_of_isVoid _ (by rw [text_of_ne_subquery hs, hp]; rfl)
  cases op with
  | group j => cases hg
  | raw => cases ht
  | subquery => cases ht
  | distance => cases ht
  | pattern p => cases ht
  | orMark => exact silent (by simp) rfl
  | search => exact silent (by simp) rfl
  | extension => exact silent (by simp) rfl
  | null t =>
    rw [writtenTruth?_of_not_isVoid _ (by simp [text, leafText, leafPieces])]
    cases t <;> rfl
  | member m =>
    cases operand with
    | none => cases m <;> rfl
    | some operand =>
      cases operand with
      | value v =>
        rw [writtenTruth?_of_not_isVoid _ (by simp [text, leafText, leafPieces])]
        cases m <;> rfl
      | _ => cases m <;> rfl
  | compare c =>
    cases operand with
    | none => cases c <;> rfl
    | some operand =>
      cases operand with
      | value v =>
        have hv : (text d ⟨.compare c, key, some (.value v), subs⟩).isVoid = false :=
          isVoid_infixed key c.symbol v []
        rw [writtenTruth?_of_not_isVoid _ hv]
        cases c with
        -- the filter has no form for "not equal"
        | ne => cases ht
        | _ => rfl
      | _ => cases c <;> rfl

theorem filterTruth?_of_not_isTranslated {n : Node} (h : n.op.isTranslated = false) :
    n.filterTruth? α = none := by
  obtain ⟨op, key, operand, subs⟩ := n
  cases op with
  | compare c =>
    cases c with
    | ne => cases operand <;> rfl
    | _ => cases h
  | pattern p => rfl
  | raw => rfl
  | subquery => rfl
  | distance => rfl
  | _ => cases h

theorem isGroup_of_not_isTranslated {n : Node} (h : n.op.isTranslated = false) :
    n.op.isGroup = false := by
  obtain ⟨op, key, operand, subs⟩ := n
  cases op with
  | group j => cases h
  | _ => rfl

theorem isConnective_of_not_isTranslated {n : Node} (h : n.op.isTranslated = false) :
    n.isConnective = false := by
  refine eq_false_of_ne_true ?_
  intro hc
  rw [eq_orMark_of_isConnective hc] at h
  cases h

/-! ### What is left of a tree -/

theorem isConnective_translated (n : Node) : n.translated.isConnective = n.isConnective := by
  obtain ⟨op, key, operand, subs⟩ := n
  cases op <;> rfl

theorem op_translated (n : Node) : n.translated.op = n.op := by
  obtain ⟨op, key, operand, subs⟩ := n
  cases op <;> rfl

mutual

theorem meaning_translated (n : Node) (h : n.op.isTranslated = true) :
    n.translated.meaning (writtenTruth? d (worth α other)) = n.meaning (filterTruth? α) := by
  obtain ⟨op, key, operand, subs⟩ := n
  cases op with
  | group j =>
    exact congrArg (Standing.meaning (j == .any)) (standing_translatedAll subs [])
  | _ => exact writtenTruth?_worth rfl h

/-- What is left of a level stands as the members of its filter do. -/
theorem standing_translatedAll (ns : List Node) (passed : List Sibling) :
    standing (writtenTruth? d (worth α other)) passed (translatedAll ns) =
      standing (filterTruth? α) passed ns := by
  cases ns with
  | nil => rfl
  | cons n ns =>
    rw [translatedAll]
    cases ht : n.op.isTranslated with
    | true =>
      have hn := meaning_translated n ht
      rw [if_pos rfl]
      cases hm : n.meaning (filterTruth? α) with
      | none =>
        rw [standing_cons_of_none hm, standing_cons_of_none (hn.trans hm),
          isConnective_translated, op_translated, standing_translatedAll ns]
      | some b =>
        rw [standing_cons_of_some hm, standing_cons_of_some (hn.trans hm), op_translated,
          standing_translatedAll ns]
    | false =>
      -- the node is no bare "or", so the filter passes it without a trace
      have hm : n.meaning (filterTruth? α) = none := by
        rw [meaning_of_leaf _ (isGroup_of_not_isTranslated ht),
          filterTruth?_of_not_isTranslated ht]
      rw [if_neg Bool.false_ne_true, standing_cons_of_none hm, standing_translatedAll ns]
      refine Sibling.standing_congr ?_ _
      rw [List.any_cons, isConnective_of_not_isTranslated ht, Bool.false_or]

end

/-- **What is left of a level means what its filter says.** -/
theorem meaning_translatedAll (ns : List Node) :
    Sibling.meaning false (siblings (writtenTruth? d (worth α other)) (translatedAll ns)) =
      Filter.truth? α (Filter.ofNodes ns) := by
  rw [Filter.truth?_ofNodes, Sibling.meaning, ← standing, standing_translatedAll]
  rfl

end Node

/-! ### The condition of a statement -/

/-- The truth value of a condition as it is written; without a condition it is true. -/
def Lexeme.truth? (ν : Node → Bool) (ts : List Lexeme) : Option Bool :=
  if ts.isEmpty then some true else (Formula.read? ts).map (Formula.holds ν)

theorem Formula.truth?_lexemes (ν : Node → Bool) (e : Formula) :
    Lexeme.truth? ν e.lexemes = some (e.holds ν) := by
  rw [Lexeme.truth?, if_neg (by simp [e.lexemes_ne_nil]), read?_eq_some_iff.2 rfl]
  rfl

/-- A condition with a truth value is written as the formula that is read, behind its word. -/
theorem Lexeme.render_clause {ν : Node → Bool} {ts : List Lexeme} {b : Bool}
    (h : truth? ν ts = some b) (word : String) (p : Placeholder) (n : Numbering) :
    (clause word ts).render p n = (Formula.read? ts).elim "" fun e => word ++ e.sql p n := by
  cases ts with
  | nil => rfl
  | cons t ts =>
    obtain ⟨e, he, -⟩ := Option.map_eq_some_iff.1 h
    rw [he, Option.elim_some, ← Formula.render_lexemes, ← Formula.read?_eq_some_iff.1 he]
    rfl

theorem Node.truth?_nodeLexemes (ν : Node → Bool) (ns : List Node) :
    Lexeme.truth? ν (nodeLexemes d false false false ns) =
      some ((Sibling.meaning false (siblings (writtenTruth? d ν) ns)).getD true) := by
  rcases levelSpelt d false ns with ⟨ht, hm⟩ | ⟨e, ht, hm⟩
  · rw [ht, hm]
    rfl
  · rw [ht, hm, Formula.truth?_lexemes]
    rfl

theorem nodeLexemes_started {ns : List Node} (h : ns.any Node.isConnective = false)
    (hne : nodeLexemes d false false false ns ≠ []) :
    nodeLexemes d false true false ns = .and :: nodeLexemes d false false false ns := by
  induction ns with
  | nil => exact absurd rfl hne
  | cons n ns ih =>
    rw [List.any_cons, Bool.or_eq_false_iff] at h
    simp only [nodeLexemes, h.1, Bool.false_eq_true, if_false] at hne ⊢
    -- the connective is written in front of the first node that has a text
    by_cases ho : (n.lexemes d).isEmpty = true
    · rw [if_pos ho] at hne
      rw [if_pos ho, if_pos ho, ih h.2 hne]
    · rw [if_neg ho, if_neg ho]
      rfl

/-- A leaf in front of a level without a bare "or". -/
theorem Node.truth?_leaf_and_nodeLexemes (ν : Node → Bool) (n : Node) (text : Fragment)
    {ns : List Node} (h : ns.any isConnective = false)
    (hne : nodeLexemes d false false false ns ≠ []) :
    Lexeme.truth? ν (.leaf n text :: .and :: nodeLexemes d false false false ns) =
      some (ν n && (Sibling.meaning false (siblings (writtenTruth? d ν) ns)).getD true) := by
  obtain ⟨e, he, ht⟩ := exists_formula_of_started false (spelt_of_mem d ns)
    (.ofFactor (.leaf n text)) false [] rfl
  rw [nodeLexemes_started h hne] at he
  -- no bare "or", so nothing in the level is cut off from the leaf
  have hcut : ∀ s ∈ standing (writtenTruth? d ν) [] ns, s.cut = false :=
    Sibling.cut_of_mem_standing rfl (by rw [any_isMark_siblings, h])
  have hw : Lexeme.leaf n text :: .and :: nodeLexemes d false false false ns = e.lexemes := he
  rw [hw, Formula.truth?_lexemes, ht, Running.afterAll_of_not_cut _ hcut, Sibling.meaning,
    ← standing, Standing.getD_meaning_of_not_cut hcut]
  rfl

namespace Query

/-- The condition of the statement that gives the rows of the query. -/
def whereLexemes (d : Dialect) (q : Query) : List Lexeme := (q.statement d).boundConditions

/-- The condition stands behind the word that introduces it, after the sources. -/
theorem exists_toSelect_eq (d : Dialect) (q : Query) :
    ∃ before after, q.toSelect d =
      Fragment.compileSelect d (before ++ clause " WHERE " (q.whereLexemes d) ++ after) := by
  refine ⟨(q.statement d).ctes ++ .text "SELECT " :: (q.statement d).items ++
    (q.statement d).sources, (q.statement d).groups ++
    clause " HAVING " (q.statement d).having ++ (q.statement d).unions ++
    orderText (q.statement d).order ++ [.text (d.pagination.text (q.statement d).window)], ?_⟩
  rw [toSelect, Statement.plain, Statement.body, whereLexemes]
  simp only [List.append_assoc, List.cons_append]

theorem whereLexemes_of_cursor {q : Query} {n : Node} (h : q.cursor? = some n) :
    ∃ text, q.whereLexemes d =
      if (nodeLexemes d false false false q.conditions).isEmpty then [.leaf n text]
      else if q.conditions.any Node.isConnective then
        .leaf n text :: .and :: .opening :: nodeLexemes d false false false q.conditions ++
          [.closing]
      else .leaf n text :: .and :: nodeLexemes d false false false q.conditions := by
  obtain ⟨outline, sources, conditions, having, ctes, unions⟩ := q
  obtain ⟨b, hb, rfl⟩ := Option.map_eq_some_iff.1 h
  refine ⟨infixed b.field b.comparison.symbol b.value, ?_⟩
  have hb : outline.bound? = some b := hb
  rw [whereLexemes, statement, Statement.boundConditions, hb]
  rfl

/-- **The bound of the paging holds for all conditions,** also where a bare "or" stands between
them. -/
theorem truth?_whereLexemes (ν : Node → Bool) (q : Query) :
    Lexeme.truth? ν (q.whereLexemes d) =
      some (q.cursor?.all ν &&
        (Sibling.meaning false
          (Node.siblings (Node.writtenTruth? d ν) q.conditions)).getD true) := by
  cases hb : q.cursor? with
  | none =>
    have hw : q.whereLexemes d = nodeLexemes d false false false q.conditions := by
      obtain ⟨outline, sources, conditions, having, ctes, unions⟩ := q
      have hb : outline.bound? = none := Option.map_eq_none_iff.1 hb
      rw [whereLexemes, statement, Statement.boundConditions, hb]
      rfl
    rw [hw, Node.truth?_nodeLexemes]
    rfl
  | some n =>
    obtain ⟨text, hw⟩ := whereLexemes_of_cursor (d := d) hb
    have alone : Lexeme.truth? ν [.leaf n text] = some (ν n) :=
      Formula.truth?_lexemes ν (.ofFactor (.leaf n text))
    rw [hw, Option.all_some]
    rcases Node.levelSpelt d false q.conditions with ⟨ht, hm⟩ | ⟨e, ht, hm⟩
    · rw [ht, List.isEmpty_nil, if_pos rfl, hm, alone, Option.getD_none, Bool.and_true]
    · have hne : nodeLexemes d false false false q.conditions ≠ [] := ht ▸ e.lexemes_ne_nil
      rw [if_neg (by simpa using hne)]
      by_cases hc : q.conditions.any Node.isConnective = true
      · -- the parentheses keep the "or" away from the bound
        have hl : Lexeme.leaf n text :: .and :: .opening ::
            nodeLexemes d false false false q.conditions ++ [.closing] =
            (Formula.extend false (.group e) (.ofFactor (.leaf n text))).lexemes := by
          rw [Formula.lexemes_extend, ht]
          rfl
        rw [if_pos hc, hl, Formula.truth?_lexemes, hm]
        rfl
      · rw [if_neg hc]
        exact Node.truth?_leaf_and_nodeLexemes ν n text (eq_false_of_ne_true hc) hne

end Query

/-! ### The filter of a request -/

theorem Filter.holds_withBound (clause : FilterClause) (f : Filter) :
    (withBound clause f).holds α = (clause.holds α && f.holds α) := by
  obtain ⟨must, mustNot, should⟩ := f
  unfold withBound
  split
  · simp [holds_mk, Bool.and_assoc]
  · simp [holds_mk, FilterClause.holds]

theorem Outline.comparison_of_bound? {o : Outline} {b : Bound} (h : o.bound? = some b) :
    b.comparison = .gt ∨ b.comparison = .lt := by
  unfold bound? at h
  split at h
  · next key _ _ _ =>
    cases h
    cases key.direction with
    | asc => exact .inl rfl
    | desc => exact .inr rfl
  · cases h

theorem Request.holds_filterOf (other : Node → Bool) (q : Query) :
    (filterOf q).holds α =
      (q.cursor?.all (Node.worth α other) && (Filter.ofNodes q.conditions).holds α) := by
  rw [filterOf, Query.cursor?]
  cases hb : q.outline.bound? with
  | none => rfl
  | some b =>
    rw [Filter.holds_withBound]
    obtain ⟨comparison, field, value⟩ := b
    rcases Outline.comparison_of_bound? hb with rfl | rfl <;> rfl

/-! ### Agreement -/

/-- **Statement and filter agree on what a query filters.**  Give any truth values to the conditions
that a filter can state, and to the other leaves of a statement.  Leave the leaves out that the
backend does not translate.  Then the condition stands in the SQL text as the formula that it is
read as, or there is none; and it reads as true or false just as a point passes the request or does
not. -/
theorem Query.whereLexemes_agrees (d : Dialect) (α : Atom → Bool) (other : Node → Bool) (q : Query)
    (h : ∀ e ∈ q.extensions, e.1 ≠ "filter") :
    (∃ before after, q.translated.toSelect d =
      Fragment.compileSelect d
        (before ++ clause " WHERE " (q.translated.whereLexemes d) ++ after)) ∧
    (∀ p n, (clause " WHERE " (q.translated.whereLexemes d)).render p n =
      (Formula.read? (q.translated.whereLexemes d)).elim "" fun e => " WHERE " ++ e.sql p n) ∧
    Lexeme.truth? (Node.worth α other) (q.translated.whereLexemes d) =
      some (q.toVectorJson.admits α) := by
  refine ⟨exists_toSelect_eq d q.translated,
    Lexeme.render_clause (truth?_whereLexemes (Node.worth α other) q.translated) _, ?_⟩
  -- of the conditions only what the backend translates is left
  have hm : Sibling.meaning false
      (Node.siblings (Node.writtenTruth? d (Node.worth α other)) q.translated.conditions) =
      Filter.truth? α (Filter.ofNodes q.conditions) := Node.meaning_translatedAll q.conditions
  rw [truth?_whereLexemes, hm, ← Filter.holds_eq_getD_truth?, admits_toVectorJson h,
    Request.holds_filterOf other]
  rfl

/-- A page after a last row, a bare "or" in front of a leaf that the backend does not translate, and
an extension of another name. -/
theorem Query.whereLexemes_agrees_of_page :
    let q : Query :=
      { outline := { Outline.empty with
          sorts := [⟨"id", .asc⟩]
          page := some ⟨2, 10, some (.int 7)⟩ }
        sources := []
        conditions := [.ofValue (.compare .eq) "a" (.int 1), .orMark,
          .ofValue (.compare .ne) "b" (.int 2), .bare (.null .nonNull) "c",
          ⟨.extension, "boost", some (.json (.bool true)), []⟩]
        having := []
        ctes := []
        unions := [] }
    let α : Atom → Bool
      | .compare _ key _ => key == "id"
      | _ => false
    (∀ e ∈ q.extensions, e.1 ≠ "filter") ∧
      Lexeme.truth? (Node.worth α fun _ => false) (q.translated.whereLexemes .postgres) =
        some (q.toVectorJson.admits α) := by
  intro q α
  have h : ∀ e ∈ q.extensions, e.1 ≠ "filter" := by decide
  exact ⟨h, (Query.whereLexemes_agrees .postgres α (fun _ => false) q h).2.2⟩

end QueryTree
