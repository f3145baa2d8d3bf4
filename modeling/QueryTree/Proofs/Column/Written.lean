import QueryTree.Proofs.Column.Split
import QueryTree.Proofs.Nesting.Labels
import QueryTree.Proofs.Nesting.Leaves

/-!
# Select items as they are written

A column is written as it is, or with the name that its text gives it, or with a free name.  What is
written is a column again, and it is written in the same way once more, since each name stands
behind its expression and the word "as" between two blanks.

* `Declares` — a text with an expression, the word "as" and a name.
* `Declares.splitLabel?_iff` — such a text is split at the word exactly if a blank stands on each
  side of it and the name has only characters of names.
* `writeColumn` — the select item of a column, with its name and the free names that it takes.
* `writeColumn_stable` — an item is written in the same way once more.
* `Query.column_named_iff` — when a column keeps the name in its text, and when a wildcard has none.
-/

namespace QueryTree

/-! ### Declared names -/

/-- A text with an expression, the word "as" behind white space, and a name behind white space. -/
structure Declares (expression gap word gap' label cs : List Char) : Prop where
  ne_nil : expression ≠ []
  trimmed : Text.trimChars expression = expression
  front : Text.IsGap gap
  isAs : Text.IsAs word
  back : Text.IsGap gap'
  label_ne_nil : label ≠ []
  spelled : cs = expression ++ gap ++ word ++ gap' ++ label

section

variable {cs expression gap word gap' label : List Char}

theorem Declares.trimChars (h : Declares expression gap word gap' label cs)
    (hl : Text.IsWord label) : Text.trimChars cs = cs := by
  have hp := Text.trimChars_of_parts (gap ++ word ++ gap') h.ne_nil h.trimmed hl
  rw [h.spelled]
  simpa only [List.append_assoc] using hp

/-- A text that is split declares a name, and a blank stands on each side of the word "as". -/
theorem exists_declares (h : splitLabel? cs = some (expression, label)) :
    IsLabel label ∧ ∃ gap word gap',
      Declares expression (gap ++ [' ']) word (' ' :: gap') label (Text.trimChars cs) := by
  obtain ⟨hne, he, hl, front, gap, word, gap', back, hf, hg, hw, hg', hb, rfl⟩ :=
    exists_of_splitLabel? h
  have ht := Text.trimChars_of_parts ((gap ++ [' ']) ++ word ++ (' ' :: gap')) hne he hl.isWord
  rw [← List.append_assoc, ← List.append_assoc] at ht
  have hblank : Text.isSpace ' ' = true := by decide
  refine ⟨hl, gap, word, gap', hne, he, ⟨by simp, ?_⟩, hw, ⟨List.cons_ne_nil _ _, ?_⟩, hl.ne_nil,
    Text.trimChars_pad hf hb (by simp) ht⟩
  · rw [List.all_append, hg]
    exact hblank
  · rw [List.all_cons, hg', hblank]
    rfl

/-- **A declared name is split off exactly if a blank stands on each side of the word "as" and the
name has only characters of names.** -/
theorem Declares.splitLabel?_iff (h : Declares expression gap word gap' label cs) :
    splitLabel? cs = some (expression, label) ↔
      gap.getLast? = some ' ' ∧ gap'.head? = some ' ' ∧ label.all isLabelChar = true := by
  constructor
  · intro hs
    obtain ⟨hl, front, word', back, hd⟩ := exists_declares hs
    have hspelled := hd.spelled
    rw [h.trimChars hl.isWord, h.spelled, List.append_cancel_right_eq] at hspelled
    simp only [List.append_assoc, List.append_cancel_left_eq] at hspelled
    -- the two declarations spell one text, so their gaps and their words agree
    obtain ⟨rfl, rfl⟩ := Text.gaps_inj h.front.blank h.back.blank hd.front.blank hd.back.blank
      h.isAs.isWord hd.isAs.isWord (by simpa only [List.append_assoc] using hspelled)
    exact ⟨List.getLast?_concat, rfl, hl.all⟩
  · rintro ⟨hg, hg', hl⟩
    obtain ⟨front, rfl⟩ := List.getLast?_eq_some_iff.1 hg
    obtain ⟨back, rfl⟩ := List.head?_eq_some_iff.1 hg'
    have hfront := h.front.blank
    rw [List.all_append, Bool.and_eq_true] at hfront
    have hback := h.back.blank
    rw [List.all_cons, Bool.and_eq_true] at hback
    rw [h.spelled]
    exact splitLabel?_of_as h.ne_nil h.trimmed hfront.1 h.isAs hback.2 ⟨h.label_ne_nil, hl⟩

end

/-! ### Items -/

/-- A select item as it stands in a statement. -/
structure WrittenItem where
  text : String
  /-- The name of the item, and what it stands for. -/
  entry? : Option (String × String)
  /-- The numbering behind the item. -/
  behind : Numbering

/-- The select item of a column behind others. -/
def writeColumn (p : Placeholder) (n : Numbering) (column : String) : WrittenItem :=
  let piece := columnPiece column
  ⟨piece.render p n, piece.label? n, n.after piece⟩

/-- An item is in the statement with its text, and in the map with its name. -/
theorem compileSelect_writeColumn (d : Dialect) (before behind : Fragment) (column : String) :
    let c := Fragment.compileSelect d (before ++ columnPiece column :: behind)
    let item := writeColumn d.placeholder (Numbering.start.afterAll before) column
    c.sql = before.render d.placeholder .start ++ item.text ++
        behind.render d.placeholder item.behind ∧
      c.labels =
        .ofList (before.labels .start ++ item.entry?.toList ++ behind.labels item.behind) := by
  intro c item
  constructor
  · show (before ++ columnPiece column :: behind).render d.placeholder .start = _
    rw [Fragment.render_append, Fragment.render, String.append_assoc]
    rfl
  · show KeyMap.ofList (Fragment.labels .start (before ++ columnPiece column :: behind)) = _
    rw [Fragment.labels_append, Fragment.labels, List.append_assoc]
    rfl

section

variable {column : String} {expression label : List Char}

theorem columnPiece_of_split
    (h : splitLabel? (Text.trimChars column.toList) = some (expression, label)) :
    columnPiece column = .labelled (String.ofList expression) (String.ofList label) := by
  rw [columnPiece, h]

theorem columnPiece_of_needsLabel (h : splitLabel? (Text.trimChars column.toList) = none)
    (hn : needsLabel (Text.trimChars column.toList) = true) :
    columnPiece column = .item (String.ofList (Text.trimChars column.toList)) := by
  rw [columnPiece, h]
  exact if_pos hn

theorem columnPiece_of_plain (h : splitLabel? (Text.trimChars column.toList) = none)
    (hn : needsLabel (Text.trimChars column.toList) = false) :
    columnPiece column = .text (String.ofList (Text.trimChars column.toList)) := by
  rw [columnPiece, h]
  exact if_neg (by rw [hn]; exact Bool.false_ne_true)

theorem columnPiece_as (hne : expression ≠ []) (he : Text.trimChars expression = expression)
    (hl : IsLabel label) :
    columnPiece (String.ofList expression ++ " AS " ++ String.ofList label) =
      .labelled (String.ofList expression) (String.ofList label) := by
  have hgap : Text.IsGap [' '] := ⟨List.cons_ne_nil _ _, by decide⟩
  have hd : Declares expression [' '] ['A', 'S'] [' '] label
      (String.ofList expression ++ " AS " ++ String.ofList label).toList :=
    ⟨hne, he, hgap, by decide, hgap, hl.ne_nil, by simp⟩
  refine columnPiece_of_split ?_
  rw [hd.trimChars hl.isWord]
  exact hd.splitLabel?_iff.2 ⟨rfl, rfl, hl.all⟩

theorem isLabel_freeName (n : Nat) : IsLabel (freeName n).toList := by
  have hn : (freeName n).toList = 'c' :: Nat.toDigits 10 n := by
    rw [freeName, String.toList_append, Nat.toString_eq_repr, Nat.toList_repr]
    rfl
  rw [hn]
  refine ⟨List.cons_ne_nil _ _, ?_⟩
  rw [List.all_cons, Bool.and_eq_true]
  refine ⟨by decide, List.all_eq_true.2 fun c hc => ?_⟩
  have hdigit : c.isDigit = true := Nat.isDigit_of_mem_toDigits (by decide) (by decide) hc
  simp [isLabelChar, Char.isAlphanum, hdigit]

/-- An item is written in the same way once more. -/
theorem writeColumn_writeColumn (p p' : Placeholder) (n n' : Numbering) (column : String) :
    writeColumn p' n' (writeColumn p n column).text =
      { writeColumn p n column with behind := n' } := by
  have htrim := Text.trimChars_trimChars column.toList
  cases hs : splitLabel? (Text.trimChars column.toList) with
  | some found =>
    obtain ⟨expression, label⟩ := found
    obtain ⟨hl, gap, word, gap', hd⟩ := exists_declares hs
    -- the item reads `expression AS label`, which is split at that name
    have hagain := columnPiece_as hd.ne_nil hd.trimmed hl
    simp only [writeColumn, columnPiece_of_split hs, Piece.render, hagain, Piece.label?,
      Numbering.after]
  | none =>
    cases hn : needsLabel (Text.trimChars column.toList) with
    | true =>
      -- a blank text needs no name
      have hne : Text.trimChars column.toList ≠ [] := fun hnil => by
        rw [hnil] at hn
        cases hn
      have hagain := columnPiece_as hne htrim (isLabel_freeName n.names)
      rw [String.ofList_toList] at hagain
      simp only [writeColumn, columnPiece_of_needsLabel hs hn, Piece.render, hagain, Piece.label?,
        Numbering.after]
    | false =>
      have hagain : columnPiece (String.ofList (Text.trimChars column.toList)) =
          .text (String.ofList (Text.trimChars column.toList)) := by
        have hp := @columnPiece_of_plain (String.ofList (Text.trimChars column.toList))
        simp only [String.toList_ofList, htrim] at hp
        exact hp hs hn
      simp only [writeColumn, columnPiece_of_plain hs hn, Piece.render, hagain, Piece.label?,
        Numbering.after]

/-- **Select items are stable.**  An item is written in the same way once more: it keeps its text
and its name, and takes no free name again.  Wherever an item stands in a statement, its text and
the entry of its name in the map are those.  What is split off a text is an expression and a name
around the word "as" behind white space; and of a text with these, they are split off exactly if a
blank stands on each side of the word and the name has only characters of names. -/
theorem writeColumn_stable (p p' : Placeholder) (n n' : Numbering) (column : String) :
    writeColumn p' n' (writeColumn p n column).text =
      { writeColumn p n column with behind := n' } ∧
    (∀ (d : Dialect) (before behind : Fragment) (column : String),
      let c := Fragment.compileSelect d (before ++ columnPiece column :: behind)
      let item := writeColumn d.placeholder (Numbering.start.afterAll before) column
      c.sql = before.render d.placeholder .start ++ item.text ++
          behind.render d.placeholder item.behind ∧
        c.labels =
          .ofList (before.labels .start ++ item.entry?.toList ++ behind.labels item.behind)) ∧
    (∀ cs expression label, splitLabel? cs = some (expression, label) →
      ∃ gap word gap', Declares expression gap word gap' label (Text.trimChars cs) ∧
        label.all isLabelChar = true) ∧
    ∀ cs expression gap word gap' label, Declares expression gap word gap' label cs →
      (splitLabel? cs = some (expression, label) ↔
        gap.getLast? = some ' ' ∧ gap'.head? = some ' ' ∧ label.all isLabelChar = true) := by
  refine ⟨writeColumn_writeColumn p p' n n' column, compileSelect_writeColumn,
    fun cs expression label h => ?_, fun cs expression gap word gap' label h => h.splitLabel?_iff⟩
  obtain ⟨hl, gap, word, gap', hd⟩ := exists_declares h
  exact ⟨_, _, _, hd, hl.all⟩

/-- A column keeps a name exactly if the name is split off. -/
theorem writeColumn_eq_labelled_iff (p : Placeholder) (n : Numbering) :
    writeColumn p n column =
        ⟨String.ofList expression ++ " AS " ++ String.ofList label,
          some (String.ofList label, String.ofList expression), n⟩ ↔
      splitLabel? (Text.trimChars column.toList) = some (expression, label) := by
  constructor
  · intro h
    have hentry := congrArg WrittenItem.entry? h
    have hbehind := congrArg (fun item => item.behind.names) h
    cases hs : splitLabel? (Text.trimChars column.toList) with
    | some found =>
      rw [writeColumn, columnPiece_of_split hs] at hentry
      obtain ⟨hl, he⟩ := Prod.mk.inj (Option.some.inj hentry)
      rw [← String.ofList_injective hl, ← String.ofList_injective he]
    | none =>
      cases hn : needsLabel (Text.trimChars column.toList) with
      | true =>
        rw [writeColumn, columnPiece_of_needsLabel hs hn] at hbehind
        -- a free name is taken, so the names go on behind the item
        exact absurd hbehind (Nat.succ_ne_self _)
      | false =>
        rw [writeColumn, columnPiece_of_plain hs hn] at hentry
        cases hentry
  · intro h
    rw [writeColumn, columnPiece_of_split h]
    rfl

end

/-! ### Wildcards -/

/-- A wildcard: alone, behind a qualifier, or behind the word "distinct". -/
def IsWildcard (cs : List Char) : Prop :=
  cs = ['*'] ∨ ['.', '*'] <:+ cs ∨
    ∃ word gap, Text.sameIgnoringCase word ['d', 'i', 's', 't', 'i', 'n', 'c', 't'] = true ∧
      Text.IsGap gap ∧ cs = word ++ gap ++ ['*']

/-- Behind the word "distinct" there is a blank anyway. -/
theorem needsLabel_eq (cs : List Char) : needsLabel cs = (isQualified cs || cs.contains ' ') := by
  -- the blank is the last character of the keyword
  have hd : Text.startsWithKeyword distinctKeyword cs = true → cs.contains ' ' = true := by
    intro h
    have hmap : distinctKeyword.map Char.toLower =
        (cs.take distinctKeyword.length).map Char.toLower := eq_of_beq h
    have hmem : ' ' ∈ (cs.take distinctKeyword.length).map Char.toLower := by
      rw [← hmap]
      decide
    obtain ⟨c, hc, hblank⟩ := List.mem_map.1 hmem
    rw [List.contains_iff_mem, ← Text.eq_blank_of_toLower hblank]
    exact List.mem_of_mem_take hc
  rw [needsLabel, Bool.or_eq_left_iff_imp, Bool.and_eq_true]
  rintro ⟨-, h⟩
  rw [hd h, Bool.or_true]

namespace IsWildcard

variable {cs : List Char}

theorem getLast? (h : IsWildcard cs) : cs.getLast? = some '*' := by
  obtain rfl | ⟨qualifier, rfl⟩ | ⟨word, gap, -, -, rfl⟩ := h
  · rfl
  · rw [List.getLast?_append_of_ne_nil _ (List.cons_ne_nil _ _)]
    rfl
  · exact List.getLast?_concat

theorem splitLabel? (h : IsWildcard cs) (ht : Text.trimChars cs = cs) :
    QueryTree.splitLabel? cs = none := by
  rw [Option.eq_none_iff_forall_ne_some]
  rintro ⟨expression, label⟩ hs
  obtain ⟨hl, gap, word, gap', hd⟩ := exists_declares hs
  have hlast := h.getLast?
  rw [← ht, hd.spelled, List.getLast?_append_of_ne_nil _ hl.ne_nil] at hlast
  exact absurd (List.all_eq_true.1 hl.all '*' (List.mem_of_getLast? hlast)) (by decide)

theorem isQualified (h : IsWildcard cs) : QueryTree.isQualified cs = false := by
  obtain rfl | hs | ⟨word, gap, hw, hg, rfl⟩ := h
  · decide
  · rw [QueryTree.isQualified, List.isSuffixOf_iff_suffix.2 hs]
    exact Bool.and_false _
  · -- there is no dot in the word "distinct", in a gap or in the star
    have hdot : '.' ∉ word ++ gap ++ ['*'] := by
      simp only [List.mem_append, List.mem_singleton, not_or]
      refine ⟨⟨fun hmem => ?_, fun hmem => ?_⟩, by decide⟩
      · have hlower : Char.toLower '.' ∈ word.map Char.toLower := List.mem_map_of_mem hmem
        rw [eq_of_beq hw] at hlower
        exact absurd hlower (by decide)
      · exact absurd (List.all_eq_true.1 hg.blank _ hmem) (by decide)
    rw [QueryTree.isQualified, List.contains_eq_mem, decide_eq_false hdot]
    rfl

end IsWildcard

/-- A wildcard is written without a name exactly if there is no blank in it. -/
theorem writeColumn_wildcard_iff {column : String} (p : Placeholder) (n : Numbering)
    (h : IsWildcard (Text.trimChars column.toList)) :
    writeColumn p n column = ⟨String.ofList (Text.trimChars column.toList), none, n⟩ ↔
      ' ' ∉ Text.trimChars column.toList := by
  have hs := h.splitLabel? (Text.trimChars_trimChars _)
  have hn := needsLabel_eq (Text.trimChars column.toList)
  rw [h.isQualified, Bool.false_or, List.contains_eq_mem] at hn
  by_cases hblank : ' ' ∈ Text.trimChars column.toList
  · rw [writeColumn, columnPiece_of_needsLabel hs (hn.trans (decide_eq_true hblank))]
    exact iff_of_false (fun he => by cases congrArg WrittenItem.entry? he) (not_not.2 hblank)
  · rw [writeColumn, columnPiece_of_plain hs (hn.trans (decide_eq_false hblank))]
    exact iff_of_true rfl hblank

/-! ### Queries -/

namespace Query

variable (d : Dialect)

/-- The item of each column stands in the select list. -/
theorem surrounds_selectItems {o : Outline} {column : String} (h : column ∈ o.results) :
    ∃ before behind, selectItems o = before ++ columnPiece column :: behind := by
  rw [selectItems]
  generalize o.aggregates.map _ = aggregates
  generalize (if o.distinct then _ else _ : Fragment) = distinct
  -- the items are not empty, so the select list is no bare star
  have hmem : columnPiece column ∈ o.results.map columnPiece ++ aggregates :=
    List.mem_append_left _ (List.mem_map_of_mem h)
  obtain ⟨before, behind, -, hs⟩ := Fragment.Delimited.separated
    (List.mem_map_of_mem hmem : [columnPiece column] ∈ List.map ([·]) _)
  simp only [List.isEmpty_iff, List.ne_nil_of_mem hmem, if_false, hs]
  exact ⟨distinct ++ before, behind, by simp only [List.append_assoc, List.singleton_append]⟩

/-- The item of each column of a query stands in every statement around the query. -/
theorem exists_item {places : List Place} (h : places.all Place.isWritten = true) {q : Query}
    {column : String} (hc : column ∈ q.outline.results) :
    ∃ before behind, (fillAll places q).pieces d = before ++ columnPiece column :: behind := by
  obtain ⟨lead, tail, hs⟩ := surrounds_fillAll d h
  obtain ⟨rest, hq⟩ := q.exists_pieces_eq d
  obtain ⟨before, behind, hi⟩ := surrounds_selectItems hc
  refine ⟨lead ++ ((q.statement d).ctes ++ .text "SELECT " :: before), behind ++ (rest ++ tail), ?_⟩
  have hs : (fillAll places q).pieces d = lead ++ q.pieces d ++ tail := hs q
  rw [hs, hq, hi]
  simp only [List.append_assoc, List.cons_append]

/-- **When a column keeps the name in its text, and when a wildcard has none.**  Each column of a
query is an item in every statement around the query, and its name is an entry of the map.  Whatever
stands in front of it: if its text declares a name, then the item is the expression with that name,
the entry sends the name to the expression and no free name is taken, exactly if a blank stands on
each side of the word "as" and the name is written with ASCII letters, digits, underscores and the
marks that quote names.  A wildcard is an item without a name exactly if there is no blank in it. -/
theorem column_named_iff {places : List Place} (h : places.all Place.isWritten = true) {q : Query}
    {column : String} (hc : column ∈ q.outline.results) :
    (∃ before behind : Fragment,
      let c := (fillAll places q).toSelect d
      let item := writeColumn d.placeholder (Numbering.start.afterAll before) column
      c.sql = before.render d.placeholder .start ++ item.text ++
        behind.render d.placeholder item.behind ∧
      c.labels =
        .ofList (before.labels .start ++ item.entry?.toList ++ behind.labels item.behind)) ∧
    ∀ p n, let cs := Text.trimChars column.toList
      (∀ expression gap word gap' label, Declares expression gap word gap' label cs →
        (writeColumn p n column =
            ⟨String.ofList expression ++ " AS " ++ String.ofList label,
              some (String.ofList label, String.ofList expression), n⟩ ↔
          gap.getLast? = some ' ' ∧ gap'.head? = some ' ' ∧ label.all isLabelChar = true)) ∧
      (IsWildcard cs → (writeColumn p n column = ⟨String.ofList cs, none, n⟩ ↔ ' ' ∉ cs)) := by
  refine ⟨?_, fun p n => ⟨fun expression gap word gap' label hd => ?_, writeColumn_wildcard_iff p n⟩⟩
  · obtain ⟨before, behind, hp⟩ := exists_item d h hc
    have hs : (fillAll places q).toSelect d =
        Fragment.compileSelect d (before ++ columnPiece column :: behind) := by
      rw [← hp]
      rfl
    rw [hs]
    exact ⟨before, behind, compileSelect_writeColumn d before behind column⟩
  · rw [writeColumn_eq_labelled_iff, hd.splitLabel?_iff]

/-- A name in quotes with a blank in it is given a second name, and so is a list of distinct rows. -/
theorem column_named_iff_of_quoted :
    let column := "t.id AS \"my id\""
    let q : Query := ⟨{ Outline.empty with results := [column, "DISTINCT t.*"] },
      [⟨"t", none, none, none, none⟩], [], [], [], []⟩
    ([] : List Place).all Place.isWritten = true ∧
      (column ∈ q.outline.results ∧ Declares "t.id".toList [' '] ['A', 'S'] [' ']
          "\"my id\"".toList (Text.trimChars column.toList) ∧
        writeColumn .question .start column ≠ ⟨column, some ("\"my id\"", "t.id"), .start⟩) ∧
      "DISTINCT t.*" ∈ q.outline.results ∧
        IsWildcard (Text.trimChars "DISTINCT t.*".toList) ∧
        writeColumn .question .start "DISTINCT t.*" ≠ ⟨"DISTINCT t.*", none, .start⟩ := by
  intro column q
  have hp : ([] : List Place).all Place.isWritten = true := rfl
  have hc : column ∈ q.outline.results := List.mem_cons_self
  have hgap : Text.IsGap [' '] := ⟨List.cons_ne_nil _ _, by decide⟩
  have hd : Declares "t.id".toList [' '] ['A', 'S'] [' '] "\"my id\"".toList
      (Text.trimChars column.toList) :=
    ⟨by decide, by decide, hgap, by decide, hgap, by decide, by decide⟩
  have hw : "DISTINCT t.*" ∈ q.outline.results := List.mem_cons_of_mem _ List.mem_cons_self
  have hwild : IsWildcard (Text.trimChars "DISTINCT t.*".toList) :=
    .inr (.inl ⟨"DISTINCT t".toList, by decide⟩)
  refine ⟨hp, ⟨hc, hd, fun he => ?_⟩, hw, hwild, fun he => ?_⟩
  · have hiff := ((column_named_iff .default hp hc).2 .question .start).1 _ _ _ _ _ hd
    exact absurd (hiff.1 he).2.2 (by decide)
  · have hiff := ((column_named_iff .default hp hw).2 .question .start).2 hwild
    exact absurd (hiff.1 he) (by decide)

end Query

end QueryTree
