import QueryTree.Proofs.Union.Phrases

/-!
# Statements with unions as they are read

A statement consists of named queries, of plain selections at one level, and of an order and a
window at the end.  All but the selections and what joins them belongs to the statement as a whole.
A member of a union that brings some of it along can not be read as a member.

* `SetStatement` — a statement as it is read.
* `SetStatement.read?_eq_some_iff` — reading is the inverse of writing.
* `Query.isBare` — a member without named queries, order and window, at any depth.
* `Query.read?_phrases`, `Query.areBare_of_read?` — bare members, and only these, can be read as
  what they are.
-/

namespace QueryTree

/-- A statement as it is read. -/
structure SetStatement where
  named : Option Fragment
  first : Selection
  /-- The further selections, each with whether equal rows are kept where it is joined. -/
  rest : List (Bool × Selection)
  order : Option (List String)
  window : Option Window

/-- A further selection and what joins it. -/
def joinedPhrases (m : Bool × Selection) : List Phrase := [.union m.1, .select m.2]

namespace SetStatement

/-- The phrases of a statement. -/
def phrases (e : SetStatement) : List Phrase :=
  e.named.toList.map .named ++ .select e.first :: e.rest.flatMap joinedPhrases ++
    e.order.toList.map .order ++ e.window.toList.map .window

/-! ### Reading -/

/-- The further selections, and what is behind them. -/
def readRest : List Phrase → List (Bool × Selection) × List Phrase
  | .union keepsDuplicates :: .select s :: ps =>
    ((keepsDuplicates, s) :: (readRest ps).1, (readRest ps).2)
  | ps => ([], ps)

/-- The order and the window. -/
def readTail? : List Phrase → Option (Option (List String) × Option Window)
  | [] => some (none, none)
  | [.order keys] => some (some keys, none)
  | [.window w] => some (none, some w)
  | [.order keys, .window w] => some (some keys, some w)
  | _ => none

/-- The statement behind its named queries and its first selection. -/
def readBehind? (named : Option Fragment) (first : Selection) (ps : List Phrase) :
    Option SetStatement :=
  (readTail? (readRest ps).2).map fun (order, window) =>
    ⟨named, first, (readRest ps).1, order, window⟩

/-- The statement that some phrases are. -/
def read? : List Phrase → Option SetStatement
  | .named ctes :: .select s :: ps => readBehind? (some ctes) s ps
  | .select s :: ps => readBehind? none s ps
  | _ => none

theorem readTail?_eq_some_iff {ps : List Phrase} {order : Option (List String)}
    {window : Option Window} :
    readTail? ps = some (order, window) ↔
      order.toList.map .order ++ window.toList.map .window = ps := by
  constructor
  · intro h
    unfold readTail? at h
    split at h <;> cases h <;> rfl
  · rintro rfl
    cases order <;> cases window <;> rfl

theorem readRest_spec (ps : List Phrase) :
    (readRest ps).1.flatMap joinedPhrases ++ (readRest ps).2 = ps := by
  induction ps using readRest.induct with
  | case1 keepsDuplicates s ps ih =>
    rw [readRest, List.flatMap_cons, List.append_assoc, ih]
    rfl
  | case2 ps h =>
    rw [readRest]
    · rfl
    · exact h

theorem readRest_append (rest : List (Bool × Selection)) (order : Option (List String))
    (window : Option Window) :
    readRest (rest.flatMap joinedPhrases ++
      (order.toList.map .order ++ window.toList.map .window)) =
      (rest, order.toList.map .order ++ window.toList.map .window) := by
  induction rest with
  | nil => cases order <;> cases window <;> rfl
  | cons m rest ih =>
    rw [List.flatMap_cons, List.append_assoc, joinedPhrases, List.cons_append, List.cons_append,
      List.nil_append, readRest, ih]

theorem readBehind?_eq_some_iff {named : Option Fragment} {first : Selection} {ps : List Phrase}
    {e : SetStatement} :
    readBehind? named first ps = some e ↔
      e.named = named ∧ e.first = first ∧
        e.rest.flatMap joinedPhrases ++
          (e.order.toList.map .order ++ e.window.toList.map .window) = ps := by
  constructor
  · intro h
    obtain ⟨⟨order, window⟩, ht, rfl⟩ := Option.map_eq_some_iff.1 h
    refine ⟨rfl, rfl, ?_⟩
    rw [readTail?_eq_some_iff.1 ht, readRest_spec]
  · rintro ⟨rfl, rfl, rfl⟩
    rw [readBehind?, readRest_append, readTail?_eq_some_iff.2 rfl]
    rfl

/-- **Reading is the inverse of writing.** -/
theorem read?_eq_some_iff {ps : List Phrase} {e : SetStatement} :
    read? ps = some e ↔ e.phrases = ps := by
  constructor
  · intro h
    unfold read? at h
    split at h
    · obtain ⟨hn, hf, hr⟩ := readBehind?_eq_some_iff.1 h
      simp [phrases, hn, hf, ← hr]
    · obtain ⟨hn, hf, hr⟩ := readBehind?_eq_some_iff.1 h
      simp [phrases, hn, hf, ← hr]
    · cases h
  · rintro rfl
    have hb : readBehind? e.named e.first (e.rest.flatMap joinedPhrases ++
        (e.order.toList.map .order ++ e.window.toList.map .window)) = some e :=
      readBehind?_eq_some_iff.2 ⟨rfl, rfl, rfl⟩
    obtain ⟨named, first, rest, order, window⟩ := e
    rw [phrases, List.append_assoc, List.append_assoc]
    cases named with
    | none => exact hb
    | some ctes => exact hb

end SetStatement

/-! ### Bare members -/

mutual

/-- A member of a union without named queries, order and window, and with such members only. -/
def Query.isBare : Query → Bool
  | ⟨outline, _, _, _, ctes, unions⟩ =>
    ctes.isEmpty && outline.order?.isNone && outline.window?.isNone && areBare unions

/-- All members are bare. -/
def areBare : List UnionMember → Bool
  | [] => true
  | ⟨_, q⟩ :: rest => q.isBare && areBare rest

end

mutual

/-- The selections of a query behind its first, as they are written. -/
def Query.further (d : Dialect) : Query → List (Bool × Selection)
  | ⟨_, _, _, _, _, unions⟩ => furtherOf d unions

/-- The selections of the members of a union, as they are written. -/
def furtherOf (d : Dialect) : List UnionMember → List (Bool × Selection)
  | [] => []
  | ⟨keepsDuplicates, q⟩ :: rest =>
    (keepsDuplicates, q.selection d) :: q.further d ++ furtherOf d rest

end

/-- A phrase that is neither a selection nor joins one. -/
def Phrase.isFrame : Phrase → Bool
  | select _ => false
  | union _ => false
  | _ => true

section

variable (d : Dialect)

/-- The query with all its selections at one level. -/
def Query.leveled (q : Query) : SetStatement :=
  ⟨q.named? d, q.selection d, q.further d, q.outline.order?, q.outline.window?⟩

theorem Query.isBare_eq (q : Query) :
    q.isBare = (q.ctes.isEmpty && q.outline.order?.isNone && q.outline.window?.isNone &&
      areBare q.unions) := by
  obtain ⟨outline, sources, conditions, having, ctes, unions⟩ := q
  rw [isBare]

theorem areBare_cons (u : UnionMember) (rest : List UnionMember) :
    areBare (u :: rest) = (u.query.isBare && areBare rest) := by
  obtain ⟨keepsDuplicates, q⟩ := u
  rw [areBare]

theorem Query.further_eq (q : Query) : q.further d = furtherOf d q.unions := by
  obtain ⟨outline, sources, conditions, having, ctes, unions⟩ := q
  rw [further]

theorem Query.isSome_named? (q : Query) : (q.named? d).isSome = !q.ctes.isEmpty := by
  rw [named?]
  cases q.ctes.isEmpty <;> rfl

theorem Query.any_isFrame_of {q : Query}
    (h : (memberPhrases d q.unions).any Phrase.isFrame = !areBare q.unions) :
    (q.phrases d).any Phrase.isFrame = !q.isBare := by
  -- an optional phrase is there exactly if it has a content
  have hframe {α : Type} (o : Option α) {f : α → Phrase} (hf : ∀ a, (f a).isFrame = true) :
      (o.toList.map f).any Phrase.isFrame = !o.isNone := by
    cases o with
    | none => rfl
    | some a => simp [hf]
  rw [q.phrases_eq, q.isBare_eq, List.any_append, List.any_append, List.any_append, List.any_cons,
    h, hframe _ fun _ => rfl, hframe _ fun _ => rfl, hframe _ fun _ => rfl]
  simp only [Option.not_isNone, q.isSome_named?, Phrase.isFrame, Bool.not_and, Bool.false_or]
  cases q.ctes.isEmpty <;> cases areBare q.unions <;> simp

mutual

theorem Query.any_isFrame_phrases (q : Query) :
    (q.phrases d).any Phrase.isFrame = !q.isBare := by
  obtain ⟨outline, sources, conditions, having, ctes, unions⟩ := q
  exact Query.any_isFrame_of d (any_isFrame_memberPhrases unions)

theorem any_isFrame_memberPhrases (unions : List UnionMember) :
    (memberPhrases d unions).any Phrase.isFrame = !areBare unions := by
  cases unions with
  | nil => rw [memberPhrases, areBare]; rfl
  | cons u rest =>
    obtain ⟨keepsDuplicates, q⟩ := u
    rw [memberPhrases, areBare, List.cons_append, List.any_cons, List.any_append,
      Query.any_isFrame_phrases q, any_isFrame_memberPhrases rest, Bool.not_and]
    rfl

end

theorem Query.phrases_of_isBare {q : Query} (h : q.isBare = true) :
    q.phrases d = .select (q.selection d) :: memberPhrases d q.unions := by
  rw [isBare_eq] at h
  simp only [Bool.and_eq_true] at h
  obtain ⟨⟨⟨hctes, horder⟩, hwindow⟩, -⟩ := h
  rw [q.phrases_eq, Option.isNone_iff_eq_none.1 horder, Option.isNone_iff_eq_none.1 hwindow, named?,
    if_pos hctes]
  simp

mutual

theorem Query.memberPhrases_unions {q : Query} (h : areBare q.unions = true) :
    memberPhrases d q.unions = (q.further d).flatMap joinedPhrases := by
  obtain ⟨outline, sources, conditions, having, ctes, unions⟩ := q
  rw [Query.further]
  exact memberPhrases_of_areBare h

theorem memberPhrases_of_areBare {unions : List UnionMember} (h : areBare unions = true) :
    memberPhrases d unions = (furtherOf d unions).flatMap joinedPhrases := by
  cases unions with
  | nil => rw [memberPhrases, furtherOf]; rfl
  | cons u rest =>
    obtain ⟨keepsDuplicates, q⟩ := u
    rw [areBare, Bool.and_eq_true] at h
    -- a bare member has bare members itself, to which the induction applies
    have hunions : areBare q.unions = true := by
      have hq := h.1
      rw [q.isBare_eq, Bool.and_eq_true] at hq
      exact hq.2
    rw [memberPhrases, furtherOf, q.phrases_of_isBare d h.1, Query.memberPhrases_unions hunions,
      memberPhrases_of_areBare h.2, List.flatMap_append, List.flatMap_cons]
    rfl

end

/-! ### Reading queries -/

/-- **A query with bare members is read as the query with all its selections at one level.** -/
theorem Query.read?_phrases {q : Query} (h : areBare q.unions = true) :
    SetStatement.read? (q.phrases d) = some (q.leveled d) := by
  rw [SetStatement.read?_eq_some_iff, q.phrases_eq, q.memberPhrases_unions d h]
  rfl

/-- **What is read as the query, with its named queries, its order and its window, has bare members
only.** -/
theorem Query.areBare_of_read? {q : Query} {e : SetStatement}
    (h : SetStatement.read? (q.phrases d) = some e) (hnamed : e.named = q.named? d)
    (horder : e.order = q.outline.order?) (hwindow : e.window = q.outline.window?) :
    areBare q.unions = true := by
  rw [SetStatement.read?_eq_some_iff, q.phrases_eq, SetStatement.phrases, hnamed, horder,
    hwindow] at h
  -- both sides begin and end alike, and what a reader finds in between has no frame
  have h := List.append_cancel_left (List.append_cancel_right (List.append_cancel_right h))
  rw [List.cons.injEq] at h
  have hf := any_isFrame_memberPhrases d q.unions
  rw [← h.2] at hf
  have hn : (e.rest.flatMap joinedPhrases).any Phrase.isFrame = false := by
    rw [List.any_flatMap]
    exact List.any_eq_false.2 fun m _ => by simp [joinedPhrases, Phrase.isFrame]
  rw [hn] at hf
  simpa using hf

end

end QueryTree
