import QueryTree.Proofs.Arguments.Style
import QueryTree.Proofs.Text.Words
import QueryTree.Query.Source

/-!
# Declared sources

A source is declared by a text and written into the statement as another one.  The two need not be
the same, but they declare the same source: what is between the name and the nickname is all that
may change.

* `Source.IsLink` — what may stand between a name and a nickname.
* `Source.Nicknamed` — the texts that declare a name with a nickname.
* `Source.parse_eq_table_some_iff` — exactly these give a source a nickname.
* `Source.parse_reference` — what is written of a source declares it again.
-/

namespace QueryTree

namespace Source

/-! ### Spellings -/

/-- What may stand between a name and a nickname: white space, or the word "as" in any letter case
with white space on its two sides. -/
inductive IsLink : List Char → Prop
  | gap {gap : List Char} (h : Text.IsGap gap) : IsLink gap
  | word {front word back : List Char} (hf : Text.IsGap front)
    (hw : Text.IsAs word) (hb : Text.IsGap back) :
    IsLink (front ++ word ++ back)

/-- The text declares a name with a nickname, perhaps with white space around them. -/
structure Nicknamed (name nickname spec : String) : Prop where
  isWord_name : Text.IsWord name.toList
  isWord_nickname : Text.IsWord nickname.toList
  spelled : ∃ front link back, front.all Text.isSpace = true ∧ IsLink link ∧
    back.all Text.isSpace = true ∧
    spec.toList = front ++ name.toList ++ link ++ nickname.toList ++ back

section

variable {name nickname spec : String}

theorem IsLink.head? {link : List Char} (h : IsLink link) (behind : List Char) :
    ∀ c ∈ (link ++ behind).head?, Text.isSpace c = true := by
  cases h with
  | gap hg => exact hg.head? behind
  | word hf hw hb =>
    rw [List.append_assoc, List.append_assoc]
    exact hf.head? _

/-- The words of a text with a nickname are the name and the nickname, with "as" between them or
nothing. -/
theorem Nicknamed.words (h : Nicknamed name nickname spec) :
    Text.words spec = [name, nickname] ∨
      ∃ word : String, Text.IsAs word.toList ∧ Text.words spec = [name, word, nickname] := by
  obtain ⟨hn, hk, front, link, back, hf, hl, hb, hs⟩ := h
  -- the name is the first word, since the link begins with white space
  have hfirst : Text.wordsFrom [] spec.toList =
      name.toList :: Text.wordsFrom [] (link ++ nickname.toList) := by
    rw [hs, Text.wordsFrom_back hb, List.append_assoc, List.append_assoc, Text.wordsFrom_front hf,
      Text.wordsFrom_word hn (hl.head? nickname.toList)]
  cases hl with
  | gap hg =>
    left
    rw [Text.words_eq_iff, hfirst, Text.wordsFrom_front hg.blank, Text.wordsFrom_of_isWord hk]
    rfl
  | @word f w b hf hw hb =>
    right
    refine ⟨String.ofList w, String.toList_ofList.symm ▸ hw, ?_⟩
    rw [Text.words_eq_iff, hfirst, List.append_assoc, List.append_assoc,
      Text.wordsFrom_front hf.blank, Text.wordsFrom_word hw.isWord (hb.head? _),
      Text.wordsFrom_front hb.blank, Text.wordsFrom_of_isWord hk]
    simp

/-- A text with a nickname declares both. -/
theorem Nicknamed.parse (h : Nicknamed name nickname spec) :
    parse spec = table name (some nickname) := by
  obtain hw | ⟨word, has, hw⟩ := h.words
  · simp only [Source.parse, hw]
  · simp only [Source.parse, hw]
    exact if_pos has

theorem trim_of_words (h : Text.words spec = [name]) : Text.trim spec = name := by
  rw [Text.words_eq_iff, List.map_singleton, Text.wordsFrom_eq_cons_iff] at h
  obtain ⟨front, rest, hf, hn, -, hs, hrest⟩ := h
  rw [Text.trim, hs, Text.trimChars_pad hf (Text.wordsFrom_eq_nil_iff.1 hrest) hn.ne_nil
    hn.trimChars, String.ofList_toList]

theorem nicknamed_of_pair (h : Text.words spec = [name, nickname]) :
    Nicknamed name nickname spec := by
  rw [Text.words_eq_iff, List.map_cons, List.map_singleton, Text.wordsFrom_eq_cons_iff] at h
  obtain ⟨front, rest, hf, hn, hr, hs, hrest⟩ := h
  obtain ⟨gap, back, hg, hk, -, rfl, hback⟩ := (Text.wordsFrom_eq_cons_iff_of_head? hr).1 hrest
  refine ⟨hn, hk, front, gap, back, hf, .gap hg, Text.wordsFrom_eq_nil_iff.1 hback, ?_⟩
  rw [hs]
  simp only [List.append_assoc]

/-- A text of three words with "as" in the middle declares the first one with the last one. -/
theorem nicknamed_of_triple {word : String} (hw : Text.IsAs word.toList)
    (h : Text.words spec = [name, word, nickname]) : Nicknamed name nickname spec := by
  rw [Text.words_eq_iff, List.map_cons, List.map_cons, List.map_singleton,
    Text.wordsFrom_eq_cons_iff] at h
  obtain ⟨front, rest, hf, hn, hr, hs, hrest⟩ := h
  obtain ⟨gap, rest', hg, -, hr', rfl, hrest'⟩ := (Text.wordsFrom_eq_cons_iff_of_head? hr).1 hrest
  obtain ⟨gap', back, hg', hk, -, rfl, hback⟩ :=
    (Text.wordsFrom_eq_cons_iff_of_head? hr').1 hrest'
  refine ⟨hn, hk, front, gap ++ word.toList ++ gap', back, hf, .word hg hw hg',
    Text.wordsFrom_eq_nil_iff.1 hback, ?_⟩
  rw [hs]
  simp only [List.append_assoc]

/-! ### Declared sources -/

/-- Either the text has a nickname, or all of it is the name. -/
theorem parse_cases (spec : String) :
    (∃ name nickname, Nicknamed name nickname spec ∧ parse spec = table name (some nickname)) ∨
      parse spec = table (Text.trim spec) none := by
  unfold parse
  split
  · next name hw =>
    right
    rw [trim_of_words hw]
  · next name nickname hw => exact .inl ⟨name, nickname, nicknamed_of_pair hw, rfl⟩
  · -- of three words the middle one has to be "as"
    next name word nickname hw =>
    split
    · next has => exact .inl ⟨name, nickname, nicknamed_of_triple has hw, rfl⟩
    · exact .inr rfl
  · exact .inr rfl

/-- **A source has a nickname exactly if its text declares one.** -/
theorem parse_eq_table_some_iff :
    parse spec = table name (some nickname) ↔ Nicknamed name nickname spec := by
  refine ⟨fun h => ?_, Nicknamed.parse⟩
  obtain ⟨name', nickname', hn, hp⟩ | hp := parse_cases spec
  · rw [hp] at h
    cases h
    exact hn
  · rw [hp] at h
    cases h

theorem parse_trim (spec : String) : parse (Text.trim spec) = parse spec := by
  unfold parse
  rw [Text.words_trim, Text.trim_trim]

theorem Nicknamed.tableText (h : Nicknamed name nickname spec) :
    Nicknamed name nickname (tableText name (some nickname)) := by
  refine ⟨h.isWord_name, h.isWord_nickname, [], [' '], [], rfl,
    .gap ⟨List.cons_ne_nil _ _, rfl⟩, rfl, ?_⟩
  rw [QueryTree.tableText, String.toList_append, String.toList_append, List.append_nil]
  rfl

end

/-- **What is written of a declared source declares it again.**  Alone among the sources of a
statement it is written without a join.  A text gives a source a nickname exactly if it is a name
and a nickname, with white space between them or the word "as" between white space, and then the
source goes by the nickname; of every other text all but the white space at its ends is the name. -/
theorem parse_reference (spec : String) :
    (∀ (d : Dialect) (p : Placeholder) (n : Numbering),
      let s := parse spec
      let reference := referencePieces d s.name s.nickname s.nested
      sourcePieces d true [s] = reference ∧ parse (reference.render p n) = s) ∧
    (∀ name nickname, parse spec = table name (some nickname) ↔ Nicknamed name nickname spec) ∧
    ((∃ name nickname, Nicknamed name nickname spec ∧ (parse spec).label = nickname) ∨
      (¬∃ name nickname, Nicknamed name nickname spec) ∧
        parse spec = table (Text.trim spec) none) := by
  refine ⟨fun d p n => ?_, fun name nickname => parse_eq_table_some_iff, ?_⟩
  · -- alone among the sources it is written without what joins it
    have alone (name : String) (nickname : Option String) :
        sourcePieces d true [table name nickname] = [.text (tableText name nickname)] := rfl
    have written (name : String) (nickname : Option String) :
        Fragment.render p n [.text (tableText name nickname)] = tableText name nickname :=
      String.append_empty
    obtain ⟨name, nickname, hn, hp⟩ | hp := parse_cases spec
    · rw [hp]
      exact ⟨alone _ _, (congrArg parse (written _ _)).trans hn.tableText.parse⟩
    · rw [hp]
      exact ⟨alone _ _, (congrArg parse (written _ _)).trans ((parse_trim spec).trans hp)⟩
  · obtain ⟨name, nickname, hn, hp⟩ | hp := parse_cases spec
    · exact .inl ⟨name, nickname, hn, by rw [hp]; rfl⟩
    · refine .inr ⟨?_, hp⟩
      rintro ⟨name, nickname, hn⟩
      rw [hn.parse] at hp
      cases hp

example : parse " dogs\tAs  d" = table "dogs" (some "d") ∧
    parse " dogs of d " = table "dogs of d" none := ⟨rfl, rfl⟩

end Source

end QueryTree
