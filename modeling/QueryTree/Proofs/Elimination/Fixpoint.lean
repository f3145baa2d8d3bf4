import QueryTree.Proofs.Elimination.Dropped

/-!
# Elimination is stable and monotone

Whether a source stays depends on the sources behind it that stay.  From the last source to the
first, the sources that stay are so the solution of one equation: a source stays if it may not be
dropped, or if there is a reason to keep it.  A reason does not go away when a query asks for more,
and the sources that are left give each other the reasons that they had.

* `Query.Justifies` — the reasons to keep a source.
* `Query.Grows` — a query that asks for more.
* `Source.keeps_mono` — what stays, stays with more pieces of text.
* `Source.needed_needed` — a second elimination drops nothing.
* `Query.neededSources_fixpoint` — the equation, stability and monotonicity.
-/

namespace QueryTree

/-! ### Queries that ask for more -/

/-- A level of a condition tree with more nodes, on the level itself or in its groups.  No node is
changed or removed. -/
inductive Node.Grows : List Node → List Node → Prop
  | nil : Grows [] []
  | added (n : Node) {ns ms : List Node} (h : Grows ns ms) : Grows ns (n :: ms)
  | kept (op : Op) (key : String) (operand : Option Operand) {subs more ns ms : List Node}
    (hs : Grows subs more) (h : Grows ns ms) :
    Grows (⟨op, key, operand, subs⟩ :: ns) (⟨op, key, operand, more⟩ :: ms)

/-- A query that asks for more from the same sources: further columns, aggregates, groups and sort
keys, conditions and members of the union, anywhere among those that were there. -/
structure Query.Grows (q more : Query) : Prop where
  sources : more.sources = q.sources
  results : q.outline.results.Sublist more.outline.results
  aggregates : q.outline.aggregates.Sublist more.outline.aggregates
  groupBy : q.outline.groupBy.Sublist more.outline.groupBy
  sorts : q.outline.sorts.Sublist more.outline.sorts
  conditions : Node.Grows q.conditions more.conditions
  having : Node.Grows q.having more.having
  unions : q.unions.Sublist more.unions

variable {t : String}

theorem Node.Grows.mem_fragments {ns ms : List Node} (h : Node.Grows ns ms)
    (ht : t ∈ Node.fragments ns) : t ∈ Node.fragments ms := by
  induction h with
  | nil => exact ht
  | added n h ih =>
    obtain ⟨op, key, operand, subs⟩ := n
    rw [Node.fragments_cons]
    exact List.mem_append_right _ (ih ht)
  | kept op key operand hs h ihs ih =>
    simp only [Node.fragments_cons, List.mem_append] at ht ⊢
    exact ht.imp (Or.imp_right ihs) ih

theorem UnionMember.fragments_eq_flatMap (unions : List UnionMember) :
    UnionMember.fragments unions = unions.flatMap fun u => u.query.fragments := by
  induction unions with
  | nil => rfl
  | cons u unions ih =>
    obtain ⟨keepsDuplicates, q⟩ := u
    rw [UnionMember.fragments, ih, List.flatMap_cons]

theorem Query.Grows.mem_fragments {q more : Query} (h : q.Grows more) (ht : t ∈ q.fragments) :
    t ∈ more.fragments := by
  obtain ⟨-, hr, ha, hg, hs, hc, hh, hu⟩ := h
  obtain ⟨outline, sources, conditions, having, ctes, unions⟩ := q
  obtain ⟨outline', sources', conditions', having', ctes', unions'⟩ := more
  have ha := (ha.map Aggregate.column).filter fun c => !(c.isEmpty || c == "*")
  have hs := hs.map SortKey.field
  simp only [Query.fragments, UnionMember.fragments_eq_flatMap, List.mem_append] at ht ⊢
  -- the kinds of text are collected in one order, and each grows by itself
  rcases ht with (((((ht | ht) | ht) | ht) | ht) | ht) | ht
  · exact .inl (.inl (.inl (.inl (.inl (.inl (hr.subset ht))))))
  · exact .inl (.inl (.inl (.inl (.inl (.inr (ha.subset ht))))))
  · exact .inl (.inl (.inl (.inl (.inr (hg.subset ht)))))
  · exact .inl (.inl (.inl (.inr (hs.subset ht))))
  · exact .inl (.inl (.inr (hc.mem_fragments ht)))
  · exact .inl (.inr (hh.mem_fragments ht))
  · obtain ⟨u, hm, ht⟩ := List.mem_flatMap.1 ht
    exact .inr (List.mem_flatMap.2 ⟨u, hu.subset hm, ht⟩)

/-! ### Sources -/

namespace Source

variable {fragments more : List String} {sources : List Source}

/-- Outer joins, nested queries and sources without join are never dropped. -/
theorem isCandidate_eq_false_iff {s : Source} :
    s.isCandidate = false ↔ s.nested.isSome = true ∨ s.join = none ∨
      s.join = some .left ∨ s.join = some .right ∨ s.join = some .full := by
  obtain ⟨name, nickname, join, constraint, nested⟩ := s
  rcases join with _ | join
  · simp [isCandidate]
  · cases join <;> cases nested <;> simp [isCandidate, Join.isOuter]

theorem getElem?_keeps (fragments : List String) (sources : List Source) (i : Nat) :
    (keeps fragments sources)[i]? = sources[i]?.map fun s =>
      !(s.isCandidate && !s.isReferenced fragments (needed fragments (sources.drop (i + 1)))) := by
  induction sources generalizing i with
  | nil => rfl
  | cons s rest ih =>
    cases i with
    | zero => rfl
    | succ i => exact ih i

theorem drop_keeps (fragments : List String) (sources : List Source) (n : Nat) :
    (keeps fragments sources).drop n = keeps fragments (sources.drop n) := by
  induction sources generalizing n with
  | nil => rw [keeps, List.drop_nil, List.drop_nil, keeps]
  | cons s rest ih =>
    cases n with
    | zero => rfl
    | succ n => exact ih n

theorem needed_sublist : (needed fragments sources).Sublist sources := by
  induction sources with
  | nil => exact .slnil
  | cons s rest ih =>
    rw [needed]
    split
    · exact ih.cons s
    · exact ih.cons_cons s

theorem isReferenced_mono {s : Source} {later further : List Source} (hf : fragments ⊆ more)
    (hl : later ⊆ further) (h : s.isReferenced fragments later = true) :
    s.isReferenced more further = true := by
  rw [isReferenced, Bool.or_eq_true, List.any_eq_true, List.any_eq_true] at h ⊢
  refine h.imp ?_ ?_
  · rintro ⟨l, hm, h⟩
    exact ⟨l, hl hm, h⟩
  · rintro ⟨t, ht, h⟩
    exact ⟨t, hf ht, h⟩

theorem needed_mono (hf : fragments ⊆ more) :
    (needed fragments sources).Sublist (needed more sources) := by
  induction sources with
  | nil => exact .slnil
  | cons s rest ih =>
    rw [needed, needed]
    split
    · split
      · exact ih
      · exact ih.cons s
    · next hs =>
      -- what kept the source is still there, so the second elimination cannot drop it
      have hs' : ¬(s.isCandidate && !s.isReferenced more (needed more rest)) = true := by
        simp only [Bool.and_eq_true, Bool.not_eq_true', not_and, Bool.not_eq_false] at hs ⊢
        exact fun hc => isReferenced_mono hf ih.subset (hs hc)
      rw [if_neg hs']
      exact ih.cons_cons s

/-- **What stays, stays with more pieces of text.** -/
theorem keeps_mono (hf : fragments ⊆ more) {i : Nat}
    (h : (keeps fragments sources)[i]? = some true) : (keeps more sources)[i]? = some true := by
  rw [getElem?_keeps] at h ⊢
  obtain ⟨s, hs, h⟩ := Option.map_eq_some_iff.1 h
  refine Option.map_eq_some_iff.2 ⟨s, hs, ?_⟩
  simp only [Bool.not_eq_true', Bool.and_eq_false_iff, Bool.not_eq_false'] at h ⊢
  exact h.imp_right (isReferenced_mono hf (needed_mono hf).subset)

/-- **A second elimination drops nothing.** -/
theorem needed_needed :
    needed fragments (needed fragments sources) = needed fragments sources := by
  induction sources with
  | nil => rfl
  | cons s rest ih =>
    rw [needed]
    split
    · exact ih
    · next hs => rw [needed, ih, if_neg hs]

end Source

/-! ### Queries -/

namespace Query

/-- What may need the source at a place: a piece of text of the query that could refer to any source
or mentions this one, and a source behind it that stays, by the condition of its join, by its nested
query, or because it is joined by columns. -/
inductive Justifies (q : Query) (i : Nat) (s : Source) : Prop
  | unqualified {t : String} (ht : t ∈ q.fragments) (hp : '.' ∉ t.toList)
  | fragment {t : String} (ht : t ∈ q.fragments) (hm : s.isMentionedIn t = true)
  | condition {l : Source} {nodes : List Node} {t : String} (hl : l ∈ q.keptBehind i)
    (hc : l.constraint = some (.condition nodes)) (ht : t ∈ Node.fragments nodes)
    (hm : s.isMentionedIn t = true)
  | nested {l : Source} {n : Query} {t : String} (hl : l ∈ q.keptBehind i)
    (hn : l.nested = some n) (ht : t ∈ n.fragments) (hm : s.isMentionedIn t = true)
  | columns {l : Source} {names : List String} (hl : l ∈ q.keptBehind i)
    (hc : l.constraint = some (.columns names))

theorem isUnqualified_iff : isUnqualified t = true ↔ '.' ∉ t.toList := by
  simp [isUnqualified]

theorem justifies_of_mem_backwardFragments {q : Query} {i : Nat} {s l : Source}
    (hl : l ∈ q.keptBehind i) (ht : t ∈ l.backwardFragments) (hm : s.isMentionedIn t = true) :
    q.Justifies i s := by
  rcases List.mem_append.1 ht with ht | ht
  · split at ht
    · next nodes hc => exact .condition hl hc ht hm
    · cases ht
  · split at ht
    · next n hn => exact .nested hl hn ht hm
    · cases ht

/-- Where each piece of text has a point, the reasons are the references that are judged. -/
theorem justifies_iff {q : Query} {i : Nat} {s : Source}
    (hq : q.fragments.any isUnqualified = false) :
    q.Justifies i s ↔ s.isReferenced q.fragments (q.keptBehind i) = true := by
  rw [Source.isReferenced, Bool.or_eq_true, List.any_eq_true, List.any_eq_true]
  rw [List.any_eq_false] at hq
  constructor
  · -- a text without a point would be a reason by itself, but there is none
    rintro (⟨ht, hp⟩ | ⟨ht, hm⟩ | ⟨hl, hc, ht, hm⟩ | ⟨hl, hn, ht, hm⟩ | ⟨hl, hc⟩)
    · exact absurd (isUnqualified_iff.2 hp) (hq _ ht)
    · exact .inr ⟨_, ht, hm⟩
    · refine .inl ⟨_, hl, Bool.or_eq_true_iff.2 (.inr (List.any_eq_true.2 ⟨_, ?_, hm⟩))⟩
      rw [Source.backwardFragments, hc]
      exact List.mem_append_left _ ht
    · refine .inl ⟨_, hl, Bool.or_eq_true_iff.2 (.inr (List.any_eq_true.2 ⟨_, ?_, hm⟩))⟩
      rw [Source.backwardFragments, hn]
      exact List.mem_append_right _ ht
    · refine .inl ⟨_, hl, Bool.or_eq_true_iff.2 (.inl ?_)⟩
      rw [Source.joinsByColumns, hc]
  · rintro (⟨l, hl, h⟩ | ⟨t, ht, hm⟩)
    · rcases Bool.or_eq_true_iff.1 h with h | h
      · unfold Source.joinsByColumns at h
        split at h
        · next names hc => exact .columns hl hc
        · cases h
      · obtain ⟨t, ht, hm⟩ := List.any_eq_true.1 h
        exact justifies_of_mem_backwardFragments hl ht hm
    · exact .fragment ht hm

/-- If a piece of text could refer to any source, all stay. -/
theorem keeps_of_unqualified {q : Query} (hu : q.fragments.any isUnqualified = true) :
    q.keeps = q.sources.map fun _ => true := by
  unfold keeps
  split
  · next first second rest hq => rw [if_pos hu, hq]
  · rfl

/-- If each piece of text has a point, the sources behind the first are judged. -/
theorem keeps_of_qualified {q : Query} {first : Source} {rest : List Source}
    (hu : q.fragments.any isUnqualified = false) (hq : q.sources = first :: rest) :
    q.keeps = true :: Source.keeps q.fragments rest := by
  unfold keeps
  rw [hq]
  cases rest with
  | nil => rfl
  | cons second rest => exact if_neg (by simp [hu])

theorem neededSources_of_unqualified {q : Query} (hu : q.fragments.any isUnqualified = true) :
    q.neededSources = q.sources := by
  rw [neededSources_eq, keeps_of_unqualified hu, Source.marked_true]

theorem neededSources_of_qualified {q : Query} {first : Source} {rest : List Source}
    (hu : q.fragments.any isUnqualified = false) (hq : q.sources = first :: rest) :
    q.neededSources = first :: Source.needed q.fragments rest := by
  rw [neededSources_eq, keeps_of_qualified hu hq, hq, Source.marked_cons, if_pos rfl,
    Source.needed_eq]

theorem neededSources_sublist (q : Query) : q.neededSources.Sublist q.sources := by
  cases hu : q.fragments.any isUnqualified with
  | true => exact neededSources_of_unqualified hu ▸ .refl _
  | false =>
    cases hq : q.sources with
    | nil => simp [neededSources, hq]
    | cons first rest =>
      rw [neededSources_of_qualified hu hq]
      exact Source.needed_sublist.cons_cons first

/-- **The equation for the sources that stay:** the first one, those that may not be dropped, and
those for which there is a reason. -/
theorem keeps_eq_true_iff {q : Query} {i : Nat} {s : Source} (hs : q.sources[i]? = some s) :
    q.keeps[i]? = some true ↔ i = 0 ∨ s.isCandidate = false ∨ q.Justifies i s := by
  cases hu : q.fragments.any isUnqualified with
  | true =>
    obtain ⟨t, ht, hp⟩ := List.any_eq_true.1 hu
    have hj : q.Justifies i s := .unqualified ht (isUnqualified_iff.1 hp)
    have hk : q.keeps[i]? = some true := by
      rw [keeps_of_unqualified hu, List.getElem?_map, hs]
      rfl
    exact iff_of_true hk (.inr (.inr hj))
  | false =>
    rw [justifies_iff hu]
    cases hq : q.sources with
    | nil =>
      rw [hq] at hs
      cases hs
    | cons first rest =>
      rw [hq] at hs
      cases i with
      | zero => simp [keeps_of_qualified hu hq]
      | succ i =>
        have hs : rest[i]? = some s := hs
        -- what stays behind this source depends only on what is behind it
        have hb : q.keptBehind (i + 1) = Source.needed q.fragments (rest.drop (i + 1)) := by
          rw [keptBehind, keeps_of_qualified hu hq, hq, List.drop_succ_cons, List.drop_succ_cons,
            Source.drop_keeps, Source.needed_eq]
        rw [keeps_of_qualified hu hq, List.getElem?_cons_succ, Source.getElem?_keeps, hs, hb]
        simp

theorem fragments_withSources (q : Query) (sources : List Source) :
    { q with sources := sources }.fragments = q.fragments := by
  obtain ⟨outline, sources, conditions, having, ctes, unions⟩ := q
  rfl

theorem neededSources_neededSources (q : Query) :
    { q with sources := q.neededSources }.neededSources = q.neededSources := by
  cases hu : q.fragments.any isUnqualified with
  | true =>
    exact neededSources_of_unqualified (by rw [fragments_withSources, hu])
  | false =>
    cases hq : q.sources with
    | nil =>
      have hn : q.neededSources = [] := by simp [neededSources, hq]
      rw [hn]
      rfl
    | cons first rest =>
      -- the texts are the same ones, and what stays is judged once more by what stays
      rw [neededSources_of_qualified hu hq, neededSources_of_qualified
        (by rw [fragments_withSources, hu]) rfl, fragments_withSources, Source.needed_needed]

theorem Grows.keeps {q more : Query} (h : q.Grows more) {i : Nat}
    (hk : q.keeps[i]? = some true) : more.keeps[i]? = some true := by
  have hf : q.fragments ⊆ more.fragments := fun _ => h.mem_fragments
  cases hu : more.fragments.any isUnqualified with
  | true =>
    -- a text without a point makes all sources stay
    have hi := (List.getElem?_eq_some_iff.1 hk).1
    rw [q.length_keeps] at hi
    rw [keeps_of_unqualified hu, List.getElem?_map, h.sources, List.getElem?_eq_getElem hi]
    rfl
  | false =>
    -- with fewer texts there is still none without a point
    have hu' : q.fragments.any isUnqualified = false := by
      rw [List.any_eq_false] at hu ⊢
      exact fun t ht => hu t (hf ht)
    cases hq : q.sources with
    | nil =>
      have hn : q.keeps = [] := List.length_eq_zero_iff.1 (by rw [q.length_keeps, hq]; rfl)
      rw [hn] at hk
      cases hk
    | cons first rest =>
      rw [keeps_of_qualified hu' hq] at hk
      rw [keeps_of_qualified hu (h.sources.trans hq)]
      cases i with
      | zero => rfl
      | succ i => exact Source.keeps_mono hf hk

/-- **Elimination is stable and monotone.**  Each source stays or is dropped, and those that stay
are left, in their order.  A source stays exactly if it is the first one, a nested query, without
join or joined by an outer join, or if there is a reason for it among what stays.  A second
elimination drops nothing, and what stays for a query stays for any query that asks for more. -/
theorem neededSources_fixpoint (q : Query) :
    q.keeps.length = q.sources.length ∧
    q.neededSources = Source.marked q.sources q.keeps ∧
    q.neededSources.Sublist q.sources ∧
    (∀ (i : Nat) s, q.sources[i]? = some s →
      (q.keeps[i]? = some true ↔ i = 0 ∨
        (s.nested.isSome = true ∨ s.join = none ∨
          s.join = some .left ∨ s.join = some .right ∨ s.join = some .full) ∨
        q.Justifies i s)) ∧
    { q with sources := q.neededSources }.neededSources = q.neededSources ∧
    ∀ more, q.Grows more → ∀ i : Nat, q.keeps[i]? = some true → more.keeps[i]? = some true := by
  refine ⟨q.length_keeps, q.neededSources_eq, q.neededSources_sublist, fun i s hs => ?_,
    q.neededSources_neededSources, fun more h i hk => h.keeps hk⟩
  rw [keeps_eq_true_iff hs, Source.isCandidate_eq_false_iff]

/-- Of two joined sources that each refer to the one before, the last one is dropped if nothing
refers to it; the other one stays also when a further column refers to the last one. -/
theorem neededSources_fixpoint_of_column :
    let join (table nickname text : String) : Source :=
      ⟨table, some nickname, some .inner, some (.condition [⟨.raw, text, some (.args []), []⟩]),
        none⟩
    let query (columns : List String) : Query :=
      ⟨{ Outline.empty with results := columns },
        [⟨"cat", some "c", none, none, none⟩, join "dog" "d" "d.cat_id = c.id",
          join "toy" "e" "e.dog_id = d.id"], [], [], [], []⟩
    let q := query ["c.id", "d.name"]
    let more := query ["c.id", "d.name", "e.label"]
    q.Grows more ∧ q.keeps = [true, true, false] ∧
      ¬q.Justifies 2 (join "toy" "e" "e.dog_id = d.id") ∧ more.keeps[1]? = some true := by
  intro join query q more
  have hg : q.Grows more :=
    ⟨rfl, List.sublist_append_left ["c.id", "d.name"] ["e.label"], .slnil, .slnil, .slnil, .nil,
      .nil, .slnil⟩
  have hk : q.keeps = [true, true, false] := by decide
  obtain ⟨-, -, -, hj, -, hm⟩ := q.neededSources_fixpoint
  refine ⟨hg, hk, fun h => ?_, hm more hg 1 (by rw [hk]; rfl)⟩
  have h2 : q.keeps[2]? = some true := (hj 2 _ rfl).2 (.inr (.inr h))
  rw [hk] at h2
  cases h2

end Query

end QueryTree
