import QueryTree.Proofs.Arguments.Style
import QueryTree.Proofs.Build.Change
import QueryTree.Proofs.Elimination.Dropped
import QueryTree.Proofs.Similarity.Agreement

/-!
# Constraints of joins

What a join declares about its rows, and what the list of sources says of it.  Two judgements are
made, one while the query is built and one while it is written, and they do not agree everywhere.

* `Constraint.Declared`, `Source.Declared` — what the first one has checked.
* `Query.declared_sources` — no other source gets into a query.
* `sourcePieces_append` — how the text of one source stands among the others.
* `Source.losesConstraint` — where the second one judges otherwise.
* `Query.shows_constraint_iff` — everywhere else a declared constraint is written.
-/

namespace QueryTree

/-! ### Declared sources -/

/-- A constraint that the rule of a join can declare. -/
inductive Constraint.Declared : Constraint → Prop
  | condition {criteria : List Criterion} {nodes : List Node} (h : Node.build criteria = .ok nodes)
    (hc : Node.hasContent nodes = true) : Declared (.condition nodes)
  | columns {names : List String} (h : ∃ n ∈ names, Text.isBlank n = false) :
    Declared (.columns names)

/-- A source that a clause can declare. -/
structure Source.Declared (s : Source) : Prop where
  constraint : ∀ c, s.constraint = some c → c.Declared
  joined : s.constraint.isSome = true → s.join.isSome = true
  needed : s.join.any Join.needsConstraint = true → s.constraint.isSome = true

/-- A constraint that has an effect is declared. -/
theorem Constraint.declared_of_effective {rule : JoinRule} {c : Option Constraint}
    (h : rule.constraint = .ok c) {e : Constraint} (he : c.bind effective? = some e) :
    e.Declared := by
  cases rule with
  | on body =>
    rw [JoinRule.constraint] at h
    cases hb : (Criterion.addAll .empty body).finish with
    | error cause =>
      rw [hb] at h
      cases h
    | ok nodes =>
      rw [hb] at h
      cases h
      rw [Option.bind_some, effective?] at he
      split at he
      · cases he
        exact .condition hb ‹_›
      · cases he
  | columns names =>
    cases h
    rw [Option.bind_some, effective?] at he
    split at he
    · next ha =>
      cases he
      exact .columns (by simpa using ha)
    · cases he
  | none =>
    cases h
    cases he

namespace Source

theorem declared_parse (spec : String) : (parse spec).Declared := by
  obtain ⟨name, nickname, hp⟩ := exists_parse_eq spec
  rw [hp]
  exact ⟨nofun, nofun, nofun⟩

theorem declared_ofQuery (q : Query) (nickname : String) : (ofQuery q nickname).Declared :=
  ⟨nofun, nofun, nofun⟩

theorem declared_joined {rule : JoinRule} {c : Option Constraint} (hr : rule.constraint = .ok c)
    {s t : Source} {j : Join} (h : s.joined j c = .ok t) : t.Declared := by
  simp only [joined] at h
  split at h
  · cases h
  · next hn =>
    cases h
    refine ⟨fun e he => Constraint.declared_of_effective hr he, fun _ => rfl, ?_⟩
    -- a join that needs a constraint and has none was turned down
    intro hj
    rw [Option.any_some] at hj
    rw [hj] at hn
    cases he : c.bind Constraint.effective? with
    | none =>
      rw [he] at hn
      exact absurd rfl hn
    | some e => rfl

end Source

/-! ### Sources of a query -/

theorem Change.declared_ofBuilt {built : Except Misuse Source}
    (h : ∀ s, built = .ok s → s.Declared) : ∀ s ∈ (ofBuilt built .source).sources, s.Declared := by
  cases built with
  | error cause => exact List.forall_mem_nil _
  | ok s => exact List.forall_mem_singleton.2 (h s rfl)

namespace JoinRule

theorem declared_bind (rule : JoinRule) (s : Source) (j : Join) {t : Source}
    (h : (rule.constraint.bind fun c => s.joined j c) = .ok t) : t.Declared := by
  cases hr : rule.constraint with
  | error cause =>
    rw [hr] at h
    cases h
  | ok c =>
    rw [hr] at h
    exact Source.declared_joined hr h

end JoinRule

namespace Clause

theorem declared_sources_change (started : Bool) (c : Clause) :
    ∀ s ∈ (c.change started).sources, s.Declared := by
  cases c with
  | source spec =>
    refine Change.declared_ofBuilt ?_
    intro s hs
    split at hs
    · exact JoinRule.none.declared_bind (.parse spec) .comma hs
    · cases hs
      exact Source.declared_parse spec
  | nested nickname body =>
    rw [change]
    cases Query.build body with
    | error cause => exact List.forall_mem_nil _
    | ok q => exact List.forall_mem_singleton.2 (Source.declared_ofQuery q nickname)
  | join j spec rule =>
    rw [change]
    split
    · exact Change.declared_ofBuilt fun _ => rule.declared_bind (.parse spec) j
    · exact List.forall_mem_nil _
  | joinNested j nickname body rule =>
    rw [change]
    split
    · refine Change.declared_ofBuilt ?_
      intro s hs
      cases hb : Query.build body with
      | error cause =>
        rw [hb] at hs
        cases hs
      | ok q =>
        rw [hb] at hs
        exact rule.declared_bind (.ofQuery q nickname) j hs
    · exact List.forall_mem_nil _
  | cte name recursive body =>
    rw [change]
    split
    · exact List.forall_mem_nil _
    · rw [Change.sources_ofBuilt _ fun _ => rfl]
      exact List.forall_mem_nil _
  | union keepsDuplicates body =>
    rw [change, Change.sources_ofBuilt _ fun _ => rfl]
    exact List.forall_mem_nil _
  | last v =>
    rw [change]
    cases v.asScalar <;> exact List.forall_mem_nil _
  | _ => exact List.forall_mem_nil _

theorem declared_sources_addAll {d : QueryDraft} (cs : List Clause)
    (h : ∀ s ∈ d.sources, s.Declared) : ∀ s ∈ (addAll d cs).sources, s.Declared := by
  induction cs generalizing d with
  | nil => exact h
  | cons c cs ih =>
    rw [addAll]
    apply ih
    rw [add_eq_apply, QueryDraft.sources_apply]
    exact List.forall_mem_append.2 ⟨h, c.declared_sources_change _⟩

end Clause

/-! ### Built queries -/

theorem QueryDraft.sources_eliminate_subset (q : Query) : (eliminate q).sources ⊆ q.sources := by
  intro s hs
  unfold eliminate at hs
  split at hs
  · exact hs
  · rw [Query.neededSources_eq] at hs
    obtain ⟨⟨t, mark⟩, ht, rfl⟩ := List.mem_map.1 hs
    exact (List.of_mem_zip (List.mem_filter.1 ht).1).1

/-- **Every source of a query that is built is declared.** -/
theorem Query.declared_sources {clauses : List Clause} {q : Query}
    (h : Query.build clauses = .ok q) : ∀ s ∈ q.sources, s.Declared := by
  intro s hs
  obtain ⟨-, -, -, -, rfl⟩ := QueryDraft.finish_eq_ok_iff.1 h
  exact Clause.declared_sources_addAll clauses (List.forall_mem_nil _) s
    (QueryDraft.sources_eliminate_subset _ hs)

/-! ### The text of a source -/

namespace Source

variable (d : Dialect)

/-- What leads to a source. -/
def lead (first : Bool) (s : Source) : Fragment :=
  match s.join with
  | none => if first then [] else [.text ", "]
  | some .comma => [.text ", "]
  | some join => [.text (" " ++ join.symbol ++ " ")]

/-- What is written behind a source. -/
def tail (s : Source) : Fragment :=
  match s.join with
  | none => []
  | some .comma => []
  | some _ => constraintPieces d s.constraint

/-- A source as it is written among others. -/
def pieces (first : Bool) (s : Source) : Fragment :=
  s.lead first ++ referencePieces d s.name s.nickname s.nested ++ s.tail d

end Source

section

variable {d : Dialect}

theorem sourcePieces_cons_eq (first : Bool) (s : Source) (rest : List Source) :
    sourcePieces d first (s :: rest) = s.pieces d first ++ sourcePieces d false rest := by
  obtain ⟨name, nickname, join, constraint, nested⟩ := s
  rw [sourcePieces, Source.pieces]
  cases join with
  | none => cases first <;> simp [joinedPieces, Source.lead, Source.tail]
  | some join => cases join <;> simp [joinedPieces, Source.lead, Source.tail]

theorem sourcePieces_append (first : Bool) (before : List Source) (s : Source)
    (behind : List Source) :
    sourcePieces d first (before ++ s :: behind) =
      sourcePieces d first before ++ s.pieces d (first && before.isEmpty) ++
        sourcePieces d false behind := by
  -- only the first source of all is written without what precedes a join
  induction before generalizing first with
  | nil =>
    rw [List.nil_append, sourcePieces_cons_eq, sourcePieces, List.isEmpty_nil, Bool.and_true,
      List.nil_append]
  | cons t before ih =>
    rw [List.cons_append, sourcePieces_cons_eq, sourcePieces_cons_eq, ih, List.isEmpty_cons,
      Bool.and_false, Bool.false_and]
    simp only [List.append_assoc]

end

theorem Query.exists_toSelect_sources (d : Dialect) (q : Query) :
    ∃ before behind, q.toSelect d =
      Fragment.compileSelect d (before ++ (q.statement d).sources ++ behind) := by
  refine ⟨(q.statement d).ctes ++ .text "SELECT " :: (q.statement d).items,
    clause " WHERE " (q.whereLexemes d) ++ (q.statement d).groups ++
      clause " HAVING " (q.statement d).having ++ (q.statement d).unions ++
      orderText (q.statement d).order ++ [.text (d.pagination.text (q.statement d).window)], ?_⟩
  rw [toSelect, Statement.plain, Statement.body, whereLexemes]
  simp only [List.append_assoc, List.cons_append]

/-- Where the text of a source stands in the statement of a query. -/
theorem Query.sources_statement (d : Dialect) {q : Query} {s : Source} {i : Nat}
    (hs : q.sources[i]? = some s) :
    (q.statement d).sources =
      .text " FROM " :: (sourcePieces d true (q.sources.take i) ++ s.pieces d (i == 0) ++
        sourcePieces d false (q.sources.drop (i + 1))) := by
  obtain ⟨hi, hs⟩ := List.getElem?_eq_some_iff.1 hs
  have hq : q.sources = q.sources.take i ++ s :: q.sources.drop (i + 1) := by
    rw [← hs, List.getElem_cons_drop, List.take_append_drop]
  -- the text of a source depends on those before it only by whether there are any
  have hfirst : (q.sources.take i).isEmpty = (i == 0) := by
    rw [Bool.eq_iff_iff, List.isEmpty_iff, List.take_eq_nil_iff, beq_iff_eq]
    exact or_iff_left (List.ne_nil_of_length_pos (Nat.zero_lt_of_lt hi))
  have hst : (q.statement d).sources = .text " FROM " :: sourcePieces d true q.sources := by
    obtain ⟨outline, sources, conditions, having, ctes, unions⟩ := q
    rw [Query.statement]
    exact if_neg (by simpa using List.ne_nil_of_length_pos (Nat.zero_lt_of_lt hi))
  rw [hst, ← hfirst]
  conv_lhs => rw [hq, sourcePieces_append, Bool.true_and]

namespace Source

/-- The constraint of the source stands behind it in full: as a condition that says what the nodes
mean, or as columns that all have names. -/
def ShowsConstraint (d : Dialect) (s : Source) : Prop :=
  match s.constraint with
  | some (.condition nodes) => ∃ text e,
      s.tail d = .text " ON " :: text.flatMap Lexeme.pieces ∧ Formula.read? text = some e ∧
        ∀ ν, Node.levelMeaning ν false nodes = some (e.holds ν)
  | some (.columns names) =>
    s.tail d = [.text (" USING (" ++ ", ".intercalate names ++ ")")] ∧
      ∀ n ∈ names, Text.isBlank n = false
  | none => False

/-- The constraint of the source is lost: it is joined by a comma, no statement shows any node of
the condition, or some column has a blank name. -/
def losesConstraint (s : Source) : Bool :=
  s.join == some .comma ||
    match s.constraint with
    | some (.condition nodes) => Node.allVanish nodes
    | some (.columns names) => names.any Text.isBlank
    | none => false

/-- The text of a built condition says what the condition means, or there is none. -/
theorem reads_clause_iff (d : Dialect) {criteria : List Criterion} {nodes : List Node}
    (h : Node.build criteria = .ok nodes) :
    (∃ text e, clause " ON " (nodeLexemes d false false false nodes) =
        .text " ON " :: text.flatMap Lexeme.pieces ∧ Formula.read? text = some e ∧
          ∀ ν, Node.levelMeaning ν false nodes = some (e.holds ν)) ↔
      Node.allVanish nodes = false := by
  obtain ⟨-, rfl⟩ := Draft.finish_eq_ok_iff.1 h
  have hd := Criterion.declared_addAll Draft.all_empty criteria
  -- no text means no clause at all, the word included
  rcases Node.declared_level d false hd with ⟨ht, hv⟩ | ⟨e, ht, hv, hm⟩
  · rw [ht, hv]
    constructor
    · rintro ⟨text, e, hclause, -⟩
      cases hclause
    · intro h
      cases h
  · refine iff_of_true ⟨e.lexemes, e, ?_, Formula.read?_eq_some_iff.2 rfl, hm⟩ hv
    rw [ht, clause, if_neg (by simp [e.lexemes_ne_nil])]

/-- A declared constraint is shown unless it is lost. -/
theorem Declared.shows_iff (d : Dialect) {s : Source} (h : s.Declared)
    (hc : s.constraint.isSome = true) : s.ShowsConstraint d ↔ s.losesConstraint = false := by
  obtain ⟨c, hc⟩ := Option.isSome_iff_exists.1 hc
  obtain ⟨j, hj⟩ := Option.isSome_iff_exists.1 (h.joined (Option.isSome_iff_exists.2 ⟨c, hc⟩))
  rw [ShowsConstraint, losesConstraint, hc, hj]
  by_cases hcomma : j = .comma
  · -- behind a comma nothing is written
    have ht : s.tail d = [] := by rw [tail, hj, hcomma]
    cases c <;> simp [ht, hcomma]
  · have ht : s.tail d = constraintPieces d (some c) := by
      rw [tail, hj, hc]
      cases j <;> first | rfl | exact absurd rfl hcomma
    rw [ht, beq_eq_false_iff_ne.2 (by simpa using hcomma), Bool.false_or]
    cases h.constraint c hc with
    | condition hb => exact reads_clause_iff d hb
    | columns hn => simp [constraintPieces]

end Source

/-- **Which declared constraints are written.**  The sources of a query that is built stand in its
statement, one behind the other, each with what belongs to it.  A join that needs a constraint has
one, and a constraint is shown in full unless it is lost in one of three ways. -/
theorem Query.shows_constraint_iff {clauses : List Clause} {q : Query}
    (h : Query.build clauses = .ok q) (d : Dialect) {s : Source} {i : Nat}
    (hs : q.sources[i]? = some s) :
    (∃ before behind, q.toSelect d =
      Fragment.compileSelect d (before ++ (q.statement d).sources ++ behind)) ∧
    (q.statement d).sources =
      .text " FROM " :: (sourcePieces d true (q.sources.take i) ++
        (s.lead (i == 0) ++ referencePieces d s.name s.nickname s.nested ++ s.tail d) ++
        sourcePieces d false (q.sources.drop (i + 1))) ∧
    (s.join.any Join.needsConstraint = true → s.constraint.isSome = true) ∧
    (s.constraint.isSome = true → (s.ShowsConstraint d ↔ s.losesConstraint = false)) := by
  have hd : s.Declared := Query.declared_sources h s (List.mem_of_getElem? hs)
  exact ⟨q.exists_toSelect_sources d, Query.sources_statement d hs, hd.needed, hd.shows_iff d⟩

/-- An inner join on a condition that only the backend of the similarity search understands: the
join needs a constraint and has one, and nothing of it is written. -/
theorem Query.shows_constraint_iff_of_extension :
    let clauses : List Clause :=
      [.source "a", .join .inner "b" (.on [.extension "k" (.bool true)])]
    let s : Source := ⟨"b", none, some .inner, some (.condition
      [⟨.extension, "k", some (.json (.bool true)), []⟩]), none⟩
    ∃ q, Query.build clauses = .ok q ∧ q.sources[1]? = some s ∧
      (q.toSelect .postgres).sql = "SELECT * FROM a INNER JOIN b" ∧
      s.constraint.isSome = true ∧ ¬s.ShowsConstraint .postgres := by
  intro clauses s
  have h : ∃ q, Query.build clauses = .ok q ∧ q.sources[1]? = some s ∧
      (q.toSelect .postgres).sql = "SELECT * FROM a INNER JOIN b" := ⟨_, rfl, rfl, rfl⟩
  obtain ⟨q, hq, hs, ht⟩ := h
  obtain ⟨-, -, hneeds, hiff⟩ := Query.shows_constraint_iff hq .postgres hs
  have hc : s.constraint.isSome = true := hneeds rfl
  exact ⟨q, hq, hs, ht, hc, fun hshown => Bool.noConfusion ((hiff hc).1 hshown)⟩

end QueryTree
