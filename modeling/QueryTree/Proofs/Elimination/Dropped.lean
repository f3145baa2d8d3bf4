import QueryTree.Proofs.Elimination.Texts

/-!
# Dropped sources

What is known of a source that the elimination of joins drops.  No text that is collected mentions
it.  So a text that can refer to it mentions it only if the text is one of those that are passed
over.

* `Query.keeps` — which sources stay.
* `Query.neededSources_eq` — the sources that stay are those.
* `Source.isMentionedIn_iff` — when a text mentions a source.
* `Query.mentions_dropped_iff` — where a dropped source can be mentioned.
-/

namespace QueryTree

/-! ### Which sources stay -/

namespace Source

/-- Which sources stay, judged from the last to the first. -/
def keeps (fragments : List String) : List Source → List Bool
  | [] => []
  | s :: rest =>
    (!(s.isCandidate && !s.isReferenced fragments (needed fragments rest))) ::
      keeps fragments rest

/-- The marked ones among some sources. -/
def marked (sources : List Source) (marks : List Bool) : List Source :=
  ((sources.zip marks).filter Prod.snd).map Prod.fst

variable {fragments : List String} {sources : List Source}

theorem length_keeps : (keeps fragments sources).length = sources.length := by
  induction sources with
  | nil => rfl
  | cons s rest ih => rw [keeps, List.length_cons, ih, List.length_cons]

theorem marked_cons (s : Source) (rest : List Source) (mark : Bool) (marks : List Bool) :
    marked (s :: rest) (mark :: marks) =
      if mark then s :: marked rest marks else marked rest marks := by
  cases mark <;> rfl

theorem needed_eq : needed fragments sources = marked sources (keeps fragments sources) := by
  induction sources with
  | nil => rfl
  | cons s rest ih =>
    rw [needed, keeps, marked_cons, ← ih]
    cases s.isCandidate && !s.isReferenced fragments (needed fragments rest) <;> rfl

theorem marked_true (sources : List Source) :
    marked sources (sources.map fun _ => true) = sources := by
  induction sources with
  | nil => rfl
  | cons s rest ih => rw [List.map_cons, marked_cons, if_pos rfl, ih]

/-- A source that does not stay is a candidate, and no source behind it that stays refers to it. -/
theorem of_keeps {s : Source} {i : Nat} (hs : sources[i]? = some s)
    (hk : (keeps fragments sources)[i]? = some false) :
    s.isCandidate = true ∧ s.isReferenced fragments
      (marked (sources.drop (i + 1)) ((keeps fragments sources).drop (i + 1))) = false := by
  induction sources generalizing i with
  | nil => cases hs
  | cons t rest ih =>
    cases i with
    | zero =>
      rw [List.getElem?_cons_zero, Option.some_inj] at hs
      rw [keeps, List.getElem?_cons_zero, Option.some_inj, Bool.not_eq_false',
        Bool.and_eq_true, Bool.not_eq_true', hs, needed_eq] at hk
      exact hk
    -- a source is judged by those behind it only, so the ones in front may go
    | succ i => exact ih hs hk

end Source

namespace Query

/-- Which sources of a query stay. -/
def keeps (q : Query) : List Bool :=
  match q.sources with
  | first :: second :: rest =>
    if q.fragments.any isUnqualified then (first :: second :: rest).map fun _ => true
    else true :: Source.keeps q.fragments (second :: rest)
  | sources => sources.map fun _ => true

/-- The sources behind one that stay. -/
def keptBehind (q : Query) (i : Nat) : List Source :=
  Source.marked (q.sources.drop (i + 1)) (q.keeps.drop (i + 1))

theorem length_keeps (q : Query) : q.keeps.length = q.sources.length := by
  unfold keeps
  split
  · next first second rest hq =>
    rw [hq]
    split
    · exact List.length_map _
    · rw [List.length_cons, List.length_cons, Source.length_keeps]
  · exact List.length_map _

/-- The elimination of joins leaves the sources that stay. -/
theorem neededSources_eq (q : Query) : q.neededSources = Source.marked q.sources q.keeps := by
  unfold neededSources keeps
  generalize q.sources = sources
  cases sources with
  | nil => rfl
  | cons first more =>
    cases more with
    | nil => rfl
    | cons second rest =>
      dsimp only
      split
      · rw [Source.marked_true]
      · rw [Source.marked_cons, if_pos rfl, ← Source.needed_eq]

theorem exists_judged_of_keeps {q : Query} {s : Source} {i : Nat} (hs : q.sources[i]? = some s)
    (hk : q.keeps[i]? = some false) :
    q.fragments.any isUnqualified = false ∧ ∃ first rest, q.sources = first :: rest ∧
      q.keeps = true :: Source.keeps q.fragments rest := by
  -- where nothing is judged, nothing is dropped
  have all_stay : (q.sources.map fun _ => true)[i]? ≠ some false := by
    rw [List.getElem?_map, hs, Option.map_some]
    simp
  unfold keeps at hk ⊢
  split at hk
  · next first second rest hq =>
    split at hk
    · rw [hq] at all_stay
      exact absurd hk all_stay
    · next hu => exact ⟨eq_false_of_ne_true hu, first, second :: rest, hq, by rw [if_neg hu]⟩
  · exact absurd hk all_stay

theorem of_keeps {q : Query} {s : Source} {i : Nat} (hs : q.sources[i]? = some s)
    (hk : q.keeps[i]? = some false) :
    s.isCandidate = true ∧ s.isReferenced q.fragments (q.keptBehind i) = false := by
  obtain ⟨-, first, rest, hq, hkeeps⟩ := exists_judged_of_keeps hs hk
  rw [keptBehind, hkeeps, hq]
  rw [hkeeps] at hk
  rw [hq] at hs
  cases i with
  | zero => cases hk
  | succ i => exact Source.of_keeps hs hk

end Query

/-! ### Mentions -/

namespace Source

/-- A text mentions a source if one of its names stands in it, unquoted and before a point. -/
theorem isMentionedIn_iff {s : Source} {t : String} :
    s.isMentionedIn t = true ↔ ∃ n ∈ s.names, n ++ ['.'] <:+: unquote t := by
  rw [isMentionedIn, List.any_eq_true]
  simp only [Text.occurs_iff]

theorem isReference_of_isMentionedIn {s : Source} {t : String} (h : s.isMentionedIn t = true) :
    IsReference t := by
  obtain ⟨n, hn, ht⟩ := isMentionedIn_iff.1 h
  have hne : n ≠ [] := by
    rw [names, List.mem_filter] at hn
    simpa using hn.2
  -- a name and its point are two characters at least
  have hlen := ht.length_le
  rw [List.length_append, List.length_singleton] at hlen
  have hpos := List.length_pos_iff.2 hne
  constructor
  · rintro rfl
    have h0 : (unquote "").length = 0 := by decide
    omega
  · rintro rfl
    have h1 : (unquote "*").length = 1 := by decide
    omega

/-- The texts of the condition of a join. -/
def conditionTexts (s : Source) : List String :=
  match s.constraint with
  | some (.condition nodes) => Node.texts nodes
  | _ => []

/-- The texts that are passed over in the condition of a join. -/
def conditionUnseen (s : Source) : List String :=
  match s.constraint with
  | some (.condition nodes) => Node.unseen nodes
  | _ => []

theorem mem_conditionTexts {s : Source} {t : String} (ht : IsReference t)
    (h : t ∈ s.conditionTexts) : t ∈ s.backwardFragments ∨ t ∈ s.conditionUnseen := by
  unfold conditionTexts at h
  unfold backwardFragments conditionUnseen
  revert h
  rcases s.constraint with _ | ⟨nodes⟩ | ⟨columns⟩
  · intro h
    cases h
  · intro h
    rcases (Node.mem_texts_iff ht nodes).1 h with h | h
    · exact .inl (List.mem_append_left _ h)
    · exact .inr h
  · intro h
    cases h

theorem mem_conditionTexts_of_unseen {s : Source} {t : String} (ht : IsReference t)
    (h : t ∈ s.conditionUnseen) : t ∈ s.conditionTexts := by
  revert h
  unfold conditionUnseen conditionTexts
  rcases s.constraint with _ | ⟨nodes⟩ | ⟨columns⟩
  · exact id
  · exact fun h => (Node.mem_texts_iff ht nodes).2 (.inr h)
  · exact id

end Source

namespace Query

/-- The texts that can refer to a source of the query: those of its columns, groups and sort keys,
of its conditions at any depth, and of the conditions of the joins behind the source. -/
def textsSeeing (q : Query) (behind : List Source) : List String :=
  q.outline.texts ++ Node.texts q.conditions ++ Node.texts q.having ++
    behind.flatMap Source.conditionTexts

/-- Those among them that are passed over. -/
def textsUnseen (q : Query) (behind : List Source) : List String :=
  Node.unseen q.conditions ++ Node.unseen q.having ++ behind.flatMap Source.conditionUnseen

theorem not_isMentionedIn_of_keeps {q : Query} {s : Source} {i : Nat}
    (hs : q.sources[i]? = some s) (hk : q.keeps[i]? = some false) :
    (∀ t ∈ q.fragments, s.isMentionedIn t = false) ∧
      ∀ l ∈ q.keptBehind i, l.joinsByColumns = false ∧
        ∀ t ∈ l.backwardFragments, s.isMentionedIn t = false := by
  have hr := (of_keeps hs hk).2
  rw [Source.isReferenced, Bool.or_eq_false_iff, List.any_eq_false, List.any_eq_false] at hr
  refine ⟨fun t ht => eq_false_of_ne_true (hr.2 t ht), ?_⟩
  intro l hl
  have hl := eq_false_of_ne_true (hr.1 l hl)
  rw [Bool.or_eq_false_iff, List.any_eq_false] at hl
  exact ⟨hl.1, fun t ht => eq_false_of_ne_true (hl.2 t ht)⟩

/-- **Where a dropped source can be mentioned.**  Each source stays or is dropped, and those that
stay are left.  No text that is collected mentions a dropped one, and no source behind it that
stays is joined by columns.  So of the texts that can refer to it, at any depth, one mentions it
exactly if one that is passed over does. -/
theorem mentions_dropped_iff (q : Query) {s : Source} {i : Nat} (hs : q.sources[i]? = some s)
    (hk : q.keeps[i]? = some false) :
    q.keeps.length = q.sources.length ∧
    q.neededSources = Source.marked q.sources q.keeps ∧
    (∀ t ∈ q.fragments, s.isMentionedIn t = false) ∧
    (∀ l ∈ q.keptBehind i, l.joinsByColumns = false ∧
      ∀ t ∈ l.backwardFragments, s.isMentionedIn t = false) ∧
    ((∃ t ∈ q.textsSeeing (q.keptBehind i), s.isMentionedIn t = true) ↔
      ∃ t ∈ q.textsUnseen (q.keptBehind i), s.isMentionedIn t = true) := by
  obtain ⟨hq, hb⟩ := not_isMentionedIn_of_keeps hs hk
  refine ⟨q.length_keeps, q.neededSources_eq, hq, hb, ?_, ?_⟩
  · rintro ⟨t, ht, hm⟩
    have href := Source.isReference_of_isMentionedIn hm
    -- a collected text does not mention the source, so this one is passed over
    have not_seen : t ∉ q.fragments := fun h => Bool.false_ne_true ((hq t h).symm.trans hm)
    rw [mem_fragments_iff href, not_or, not_or, not_or] at not_seen
    refine ⟨t, ?_, hm⟩
    simp only [textsSeeing, textsUnseen, List.mem_append, List.mem_flatMap] at ht ⊢
    rcases ht with ((ht | ht) | ht) | ⟨l, hl, ht⟩
    · exact absurd ht not_seen.1
    · exact .inl (.inl (((Node.mem_texts_iff href _).1 ht).resolve_left not_seen.2.1))
    · exact .inl (.inr (((Node.mem_texts_iff href _).1 ht).resolve_left not_seen.2.2.1))
    · refine .inr ⟨l, hl, (Source.mem_conditionTexts href ht).resolve_left fun h => ?_⟩
      exact Bool.false_ne_true (((hb l hl).2 t h).symm.trans hm)
  · rintro ⟨t, ht, hm⟩
    have href := Source.isReference_of_isMentionedIn hm
    refine ⟨t, ?_, hm⟩
    simp only [textsSeeing, textsUnseen, List.mem_append, List.mem_flatMap] at ht ⊢
    rcases ht with (ht | ht) | ⟨l, hl, ht⟩
    · exact .inl (.inl (.inr ((Node.mem_texts_iff href _).2 (.inr ht))))
    · exact .inl (.inr ((Node.mem_texts_iff href _).2 (.inr ht)))
    · exact .inr ⟨l, hl, Source.mem_conditionTexts_of_unseen href ht⟩

/-- A source that a nested query mentions is dropped if the nested query stands among the sources of
the query of a predicate. -/
theorem mentions_dropped_of_nested :
    let dogs : Source := ⟨"dogs", some "d", some .cross, none, none⟩
    let nested : Query :=
      ⟨{ Outline.empty with results := ["x.id"] }, [⟨"x", none, none, none, none⟩],
        [⟨.raw, "x.d = d.id", some (.args []), []⟩], [], [], []⟩
    let sub : Query :=
      ⟨{ Outline.empty with results := ["s.id"] }, [⟨"", some "s", none, none, some nested⟩],
        [], [], [], []⟩
    let q : Query :=
      ⟨{ Outline.empty with results := ["o.id"] },
        [⟨"orders", some "o", none, none, none⟩, dogs],
        [⟨.subquery, "o.id IN", some (.query sub), []⟩], [], [], []⟩
    q.sources[1]? = some dogs ∧ q.keeps[1]? = some false ∧
      ∃ t ∈ q.textsSeeing (q.keptBehind 1), dogs.isMentionedIn t = true := by
  intro dogs nested sub q
  have hs : q.sources[1]? = some dogs := rfl
  have hk : q.keeps[1]? = some false := by decide
  refine ⟨hs, hk, (q.mentions_dropped_iff hs hk).2.2.2.2.2 ?_⟩
  exact ⟨"x.d = d.id", by decide, by decide⟩

end Query

end QueryTree
