import QueryTree.Proofs.Text.Words
import QueryTree.Sql.Column

/-!
# Columns that name themselves

The text of a column may name its expression, behind the word "as" between two blanks.  A name has
no white space in it, so the word in front of it is the last one of the text, and what is before
that word is the expression, whatever other words it has in it.

* `Text.splitLast?_of_as` — the last "as" is the one behind which no other stands.
* `IsLabel` — the names that a text can give.
* `splitLabel?_of_as` — a text with such a name is split at the word in front of it.
* `exists_of_splitLabel?` — no other text is split.
-/

namespace QueryTree

/-! ### The last "as" -/

namespace Text

section

variable {keyword cs before after : List Char}

theorem exists_of_splitLast? (h : splitLast? keyword cs = some (before, after)) :
    ∃ rest, cs = before ++ rest ∧ startsWithKeyword keyword rest = true ∧
      after = rest.drop keyword.length := by
  induction cs generalizing before with
  | nil => cases h
  | cons c cs ih =>
    rw [splitLast?] at h
    split at h
    · -- a split further on wins; this one is made only if there is none
      next before' after' hs =>
      cases h
      obtain ⟨rest, rfl, hr⟩ := ih hs
      exact ⟨rest, rfl, hr⟩
    · split at h
      · next hk =>
        cases h
        exact ⟨_, rfl, hk, rfl⟩
      · cases h

theorem splitLast?_append {c : Char} (h : startsWithKeyword keyword (c :: cs) = true)
    (hlast : splitLast? keyword cs = none) (before : List Char) :
    splitLast? keyword (before ++ c :: cs) =
      some (before, (c :: cs).drop keyword.length) := by
  induction before with
  | nil => rw [List.nil_append, splitLast?, hlast, if_pos h]
  | cons b before ih => rw [List.cons_append, splitLast?, ih]

end

theorem eq_blank_of_toLower {c : Char} (h : c.toLower = ' ') : c = ' ' := by
  obtain hc | ⟨-, hc⟩ := toLower_cases c
  · rw [← hc, h]
  · rw [h] at hc
    cases hc

theorem isAs_iff {word : List Char} :
    IsAs word ↔ ∃ a s : Char, a.toLower = 'a' ∧ s.toLower = 's' ∧ word = [a, s] := by
  have hlower : ['a', 's'].map Char.toLower = ['a', 's'] := by decide
  rw [IsAs, sameIgnoringCase, beq_iff_eq, hlower]
  constructor
  · intro h
    obtain ⟨a, rest, rfl, ha, h⟩ := List.map_eq_cons_iff.1 h
    obtain ⟨s, rest, rfl, hs, h⟩ := List.map_eq_cons_iff.1 h
    exact ⟨a, s, ha, hs, by rw [List.map_eq_nil_iff.1 h]⟩
  · rintro ⟨a, s, ha, hs, rfl⟩
    simp [ha, hs]

/-- The keyword is the word between two blanks. -/
theorem startsWith_asKeyword_iff {cs : List Char} :
    startsWithKeyword asKeyword cs = true ↔
      ∃ word behind, IsAs word ∧ cs = ' ' :: word ++ ' ' :: behind := by
  have hlower : asKeyword.map Char.toLower = [' ', 'a', 's', ' '] := by decide
  rw [startsWithKeyword, sameIgnoringCase, beq_iff_eq, hlower]
  constructor
  · intro h
    obtain ⟨c, rest, htake, hc, h⟩ := List.map_eq_cons_iff.1 h.symm
    obtain ⟨a, rest, rfl, ha, h⟩ := List.map_eq_cons_iff.1 h
    obtain ⟨s, rest, rfl, hs, h⟩ := List.map_eq_cons_iff.1 h
    obtain ⟨c', rest, rfl, hc', h⟩ := List.map_eq_cons_iff.1 h
    refine ⟨[a, s], cs.drop asKeyword.length, isAs_iff.2 ⟨a, s, ha, hs, rfl⟩, ?_⟩
    -- what is not in the keyword is the text behind the word
    have hcs := List.take_append_drop asKeyword.length cs
    rw [htake, List.map_eq_nil_iff.1 h, eq_blank_of_toLower hc, eq_blank_of_toLower hc'] at hcs
    exact hcs.symm
  · rintro ⟨word, behind, hw, rfl⟩
    obtain ⟨a, s, ha, hs, rfl⟩ := isAs_iff.1 hw
    have hblank : Char.toLower ' ' = ' ' := by decide
    simp [asKeyword, ha, hs, hblank]

/-- Behind white space and up to the end of a text without blanks there is no "as" between two
blanks. -/
theorem splitLast?_asKeyword_of_gap {gap name : List Char} (hg : gap.all isSpace = true)
    (hn : ' ' ∉ name) : splitLast? asKeyword (gap ++ name) = none := by
  have hnone (cs : List Char) (c : Char) (hs : splitLast? asKeyword cs = none)
      (hc : startsWithKeyword asKeyword (c :: cs) = false) :
      splitLast? asKeyword (c :: cs) = none := by
    rw [splitLast?, hs, if_neg (by rw [hc]; exact Bool.false_ne_true)]
  induction gap with
  | nil =>
    induction name with
    | nil => rfl
    | cons c name ih =>
      rw [List.mem_cons, not_or] at hn
      refine hnone name c (ih hn.2) (Bool.eq_false_iff.2 fun hk => ?_)
      obtain ⟨word, behind, -, he⟩ := startsWith_asKeyword_iff.1 hk
      exact hn.1 (List.cons.inj he).1.symm
  | cons c gap ih =>
    rw [List.all_cons, Bool.and_eq_true] at hg
    refine hnone _ c (ih hg.2) (Bool.eq_false_iff.2 fun hk => ?_)
    obtain ⟨word, behind, hw, he⟩ := startsWith_asKeyword_iff.1 hk
    have he : gap ++ name = word ++ ' ' :: behind := (List.cons.inj he).2
    -- the word is no white space, so it and the blank behind it would be in the name
    cases gap with
    | nil =>
      refine hn ?_
      rw [List.nil_append] at he
      simp [he]
    | cons g gap =>
      have hfirst := hw.isWord.head? (' ' :: behind) g (by rw [← he]; rfl)
      rw [List.all_eq_true.1 hg.2 g List.mem_cons_self] at hfirst
      cases hfirst

/-- The last "as" is the one behind which no other stands. -/
theorem splitLast?_of_as {before word after : List Char} (hw : IsAs word)
    (hlast : splitLast? asKeyword (' ' :: after) = none) :
    splitLast? asKeyword (before ++ ' ' :: word ++ ' ' :: after) = some (before, after) := by
  have hk := startsWith_asKeyword_iff.2 ⟨word, after, hw, rfl⟩
  obtain ⟨a, s, ha, hs, rfl⟩ := isAs_iff.1 hw
  -- neither of its letters begins another one
  have hletter (c : Char) (cs : List Char) (hc : c.toLower ≠ ' ')
      (hn : splitLast? asKeyword cs = none) : splitLast? asKeyword (c :: cs) = none := by
    rw [splitLast?, hn, if_neg]
    intro hk
    obtain ⟨word, behind, -, he⟩ := startsWith_asKeyword_iff.1 hk
    exact hc (by rw [(List.cons.inj he).1]; decide)
  have hnone : splitLast? asKeyword (a :: s :: ' ' :: after) = none :=
    hletter a _ (by rw [ha]; decide) (hletter s _ (by rw [hs]; decide) hlast)
  rw [List.append_assoc]
  exact splitLast?_append hk hnone before

end Text

/-! ### Names -/

/-- A name that the text of a column can give: characters of names only, and at least one. -/
structure IsLabel (cs : List Char) : Prop where
  ne_nil : cs ≠ []
  all : cs.all isLabelChar = true

section

variable {cs expression label : List Char}

theorem isSpace_eq_false_of_isLabelChar {c : Char} (h : isLabelChar c = true) :
    Text.isSpace c = false := by
  simp only [isLabelChar, Bool.or_eq_true, beq_iff_eq] at h
  obtain ((h | rfl) | rfl) | rfl := h
  · exact Text.isSpace_eq_false_of_isAlphanum h
  all_goals decide

theorem IsLabel.isWord (h : IsLabel label) : Text.IsWord label :=
  ⟨h.ne_nil, fun c hc => isSpace_eq_false_of_isLabelChar (List.all_eq_true.1 h.all c hc)⟩

theorem splitLabel?_eq_some_iff :
    splitLabel? cs = some (expression, label) ↔
      ∃ before after, Text.splitLast? asKeyword cs = some (before, after) ∧
        Text.trimChars before = expression ∧ Text.trimChars after = label ∧
        expression ≠ [] ∧ IsLabel label := by
  unfold splitLabel?
  constructor
  · intro h
    split at h
    · next before after hs =>
      simp only at h
      split at h
      · next hc =>
        cases h
        simp only [Bool.and_eq_true, Bool.not_eq_true', List.isEmpty_eq_false_iff] at hc
        exact ⟨before, after, hs, rfl, rfl, hc.2, hc.1.1, hc.1.2⟩
      · cases h
    · cases h
  · rintro ⟨before, after, hs, rfl, rfl, hne, hl⟩
    simp [hs, hne, hl.ne_nil, hl.all]

/-- A text that is split has an expression in front and a name behind, and the word "as" between
blanks in the middle. -/
theorem exists_of_splitLabel? (h : splitLabel? cs = some (expression, label)) :
    expression ≠ [] ∧ Text.trimChars expression = expression ∧ IsLabel label ∧
      ∃ front gap word gap' back, front.all Text.isSpace = true ∧ gap.all Text.isSpace = true ∧
        Text.IsAs word ∧ gap'.all Text.isSpace = true ∧ back.all Text.isSpace = true ∧
        cs = front ++ (expression ++ (gap ++ [' ']) ++ word ++ (' ' :: gap') ++ label) ++ back := by
  obtain ⟨before, after, hs, rfl, rfl, hne, hl⟩ := splitLabel?_eq_some_iff.1 h
  obtain ⟨rest, rfl, hk, rfl⟩ := Text.exists_of_splitLast? hs
  obtain ⟨word, behind, hw, rfl⟩ := Text.startsWith_asKeyword_iff.1 hk
  obtain ⟨front, gap, hf, hg, hb⟩ := Text.exists_trimChars before
  have hdrop : (' ' :: word ++ ' ' :: behind).drop asKeyword.length = behind := by
    obtain ⟨a, s, -, -, rfl⟩ := Text.isAs_iff.1 hw
    rfl
  obtain ⟨gap', back, hg', hk', ha⟩ := Text.exists_trimChars behind
  refine ⟨hne, Text.trimChars_trimChars before, hl, front, gap, word, gap', back, hf, hg, hw, hg',
    hk', ?_⟩
  rw [hdrop]
  calc before ++ (' ' :: word ++ ' ' :: behind)
      = (front ++ Text.trimChars before ++ gap) ++
          (' ' :: word ++ ' ' :: (gap' ++ Text.trimChars behind ++ back)) := by rw [← hb, ← ha]
    _ = _ := by simp

/-- **A text with an expression in front and a name behind is split there,** if the word "as" has a
blank on each side. -/
theorem splitLabel?_of_as {gap word gap' : List Char} (hne : expression ≠ [])
    (he : Text.trimChars expression = expression) (hg : gap.all Text.isSpace = true)
    (hw : Text.IsAs word) (hg' : gap'.all Text.isSpace = true) (hl : IsLabel label) :
    splitLabel? (expression ++ (gap ++ [' ']) ++ word ++ (' ' :: gap') ++ label) =
      some (expression, label) := by
  have hblank : ' ' ∉ label := fun hmem => by
    have hspace := hl.isWord.tight ' ' hmem
    cases hspace
  -- the "as" of the text is the last one, as the name has no blank
  have hlast : Text.splitLast? asKeyword (' ' :: (gap' ++ label)) = none :=
    Text.splitLast?_asKeyword_of_gap (show (' ' :: gap').all Text.isSpace = true from hg') hblank
  refine splitLabel?_eq_some_iff.2 ⟨expression ++ gap, gap' ++ label, ?_, ?_, ?_, hne, hl⟩
  · rw [← Text.splitLast?_of_as hw hlast]
    simp
  · exact Text.trimChars_pad List.all_nil hg hne he
  · have htrim := Text.trimChars_pad hg' List.all_nil hl.ne_nil hl.isWord.trimChars
    rwa [List.append_nil] at htrim

example : splitLabel? "x as y As z".toList = some ("x as y".toList, "z".toList) := by decide

end

end QueryTree
