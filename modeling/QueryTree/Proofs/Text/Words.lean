import Mathlib.Data.List.Basic
import Mathlib.Data.List.TakeWhile
import QueryTree.Text.Blank
import QueryTree.Text.Keyword

/-!
# Words and gaps

White space divides a text into words.  What stands at the two ends of the text does not count: it
is taken away by trimming, and adds no word.

* `IsWord`, `IsGap` — a run of characters of which none, or every one, is white space.
* `isSpace_toLower` — white space is the same in every letter case.
* `IsAs` — the word "as" in any letter case.
* `exists_trimChars`, `trimChars_pad` — a text is what trimming leaves of it, between two gaps.
* `gaps_inj` — a text tells the gaps around a word in it.
* `wordsFrom_eq_cons_iff` — the first word of a text, and the others.
* `words_trim` — a trimmed text has the same words.
-/

namespace QueryTree

namespace Text

/-- A run of characters without white space. -/
structure IsWord (cs : List Char) : Prop where
  ne_nil : cs ≠ []
  tight : ∀ c ∈ cs, isSpace c = false

/-- A run of white space. -/
structure IsGap (cs : List Char) : Prop where
  ne_nil : cs ≠ []
  blank : cs.all isSpace = true

theorem IsWord.head? {word : List Char} (h : IsWord word) (behind : List Char) :
    ∀ c ∈ (word ++ behind).head?, isSpace c = false := by
  obtain ⟨c, word, rfl⟩ := List.exists_cons_of_ne_nil h.ne_nil
  rintro _ ⟨⟩
  exact h.tight c List.mem_cons_self

theorem IsWord.reverse {word : List Char} (h : IsWord word) : IsWord word.reverse :=
  ⟨List.reverse_ne_nil_iff.2 h.ne_nil, fun c hc => h.tight c (List.mem_reverse.1 hc)⟩

theorem IsGap.head? {gap : List Char} (h : IsGap gap) (behind : List Char) :
    ∀ c ∈ (gap ++ behind).head?, isSpace c = true := by
  obtain ⟨c, gap, rfl⟩ := List.exists_cons_of_ne_nil h.ne_nil
  rintro _ ⟨⟩
  exact List.all_eq_true.1 h.blank c List.mem_cons_self

/-! ### Letter case -/

theorem isSpace_eq_false_of_isAlphanum {c : Char} (h : c.isAlphanum = true) :
    isSpace c = false := by
  have hcases : (decide (c.val ≥ 'A'.val ∧ c.val ≤ 'Z'.val) ||
      (c.val ≥ 'a'.val && c.val ≤ 'z'.val) || (c.val ≥ '0'.val && c.val ≤ '9'.val)) = true := h
  -- white space lies outside the three ranges of letters and digits
  have hrange : (65 ≤ c.toNat ∧ c.toNat ≤ 90) ∨ (97 ≤ c.toNat ∧ c.toNat ≤ 122) ∨
      (48 ≤ c.toNat ∧ c.toNat ≤ 57) := by
    simpa [UInt32.le_iff_toNat_le, or_assoc] using hcases
  simp only [isSpace, Bool.or_eq_false_iff, Bool.and_eq_false_iff, decide_eq_false_iff_not,
    beq_eq_false_iff_ne]
  omega

/-- Only a letter has a lower case that is another character, and that one is a letter too. -/
theorem toLower_cases (c : Char) :
    c.toLower = c ∨ (c.isAlphanum = true ∧ c.toLower.isAlphanum = true) := by
  by_cases h : c.val ≥ 'A'.val ∧ c.val ≤ 'Z'.val
  · right
    have hlow : 65 ≤ c.val.toNat := UInt32.le_iff_toNat_le.1 h.1
    have hhigh : c.val.toNat ≤ 90 := UInt32.le_iff_toNat_le.1 h.2
    -- upper and lower case lie 32 characters apart
    have hlower : c.toLower.val.toNat = c.val.toNat + 32 := by
      have hval : c.toLower.val = c.val + 32 := congrArg Char.val (dif_pos h)
      rw [hval]
      show (c.val.toNat + 32) % 2 ^ 32 = c.val.toNat + 32
      omega
    have hfirst : 'a'.val ≤ c.toLower.val :=
      UInt32.le_iff_toNat_le.2 (show 97 ≤ c.toLower.val.toNat by omega)
    have hlast : c.toLower.val ≤ 'z'.val :=
      UInt32.le_iff_toNat_le.2 (show c.toLower.val.toNat ≤ 122 by omega)
    have hisUpper : c.isUpper = true := decide_eq_true h
    have hisLower : c.toLower.isLower = true :=
      Bool.and_eq_true_iff.2 ⟨decide_eq_true hfirst, decide_eq_true hlast⟩
    exact ⟨Bool.or_eq_true_iff.2 (.inl (Bool.or_eq_true_iff.2 (.inl hisUpper))),
      Bool.or_eq_true_iff.2 (.inl (Bool.or_eq_true_iff.2 (.inr hisLower)))⟩
  · left
    exact dif_neg h

theorem isSpace_toLower (c : Char) : isSpace c.toLower = isSpace c := by
  obtain h | ⟨h, h'⟩ := toLower_cases c
  · rw [h]
  · rw [isSpace_eq_false_of_isAlphanum h, isSpace_eq_false_of_isAlphanum h']

theorem IsWord.of_sameIgnoringCase {a b : List Char} (h : sameIgnoringCase a b = true)
    (hb : IsWord b) : IsWord a := by
  have hmap : a.map Char.toLower = b.map Char.toLower := eq_of_beq h
  refine ⟨?_, fun c hc => ?_⟩
  · rintro rfl
    exact hb.ne_nil (List.map_eq_nil_iff.1 hmap.symm)
  · have hmem : c.toLower ∈ b.map Char.toLower := hmap ▸ List.mem_map_of_mem hc
    obtain ⟨c', hc', he⟩ := List.mem_map.1 hmem
    rw [← isSpace_toLower, ← he, isSpace_toLower, hb.tight c' hc']

/-- The word "as", in any letter case. -/
def IsAs (word : List Char) : Prop := sameIgnoringCase word ['a', 's'] = true

instance : DecidablePred IsAs := fun _ => inferInstanceAs (Decidable (_ = true))

theorem IsAs.isWord {word : List Char} (h : IsAs word) : IsWord word :=
  .of_sameIgnoringCase h ⟨List.cons_ne_nil _ _,
    List.forall_mem_cons.2 ⟨by decide, List.forall_mem_singleton.2 (by decide)⟩⟩

/-! ### Trimming -/

section

variable {cs front back : List Char}

theorem dropWhile_of_head? (h : ∀ c ∈ cs.head?, isSpace c = false) :
    cs.dropWhile isSpace = cs := by
  cases cs with
  | nil => rfl
  | cons c cs => exact List.dropWhile_cons_of_neg (by rw [h c rfl]; exact Bool.false_ne_true)

theorem head?_dropWhile (cs : List Char) : ∀ c ∈ (cs.dropWhile isSpace).head?, isSpace c = false := by
  intro c hc
  have := List.head?_dropWhile_not isSpace cs
  rw [Option.mem_def.1 hc] at this
  simpa using this

theorem exists_trimChars (cs : List Char) : ∃ front back, front.all isSpace = true ∧
    back.all isSpace = true ∧ cs = front ++ trimChars cs ++ back := by
  refine ⟨cs.takeWhile isSpace, ((cs.dropWhile isSpace).reverse.takeWhile isSpace).reverse,
    List.all_takeWhile, ?_, ?_⟩
  · rw [List.all_reverse, List.all_takeWhile]
  · rw [trimChars, List.append_assoc, ← List.reverse_append, List.takeWhile_append_dropWhile,
      List.reverse_reverse, List.takeWhile_append_dropWhile]

theorem getLast?_trimChars (cs : List Char) :
    ∀ c ∈ (trimChars cs).getLast?, isSpace c = false := by
  intro c hc
  rw [trimChars, List.getLast?_reverse] at hc
  exact head?_dropWhile _ c hc

theorem head?_trimChars (cs : List Char) : ∀ c ∈ (trimChars cs).head?, isSpace c = false := by
  intro c hc
  -- what trimming leaves is the beginning of what is left in front
  have hp : trimChars cs <+: cs.dropWhile isSpace := by
    rw [trimChars, ← List.reverse_suffix, List.reverse_reverse]
    exact List.dropWhile_suffix isSpace
  obtain ⟨back, hb⟩ := hp
  refine head?_dropWhile cs c ?_
  rw [← hb, List.head?_append, Option.mem_def.1 hc]
  rfl

theorem trimChars_of_ends (hfirst : ∀ c ∈ cs.head?, isSpace c = false)
    (hlast : ∀ c ∈ cs.getLast?, isSpace c = false) : trimChars cs = cs := by
  rw [trimChars, dropWhile_of_head? hfirst, dropWhile_of_head? (by rwa [List.head?_reverse]),
    List.reverse_reverse]

theorem trimChars_trimChars (cs : List Char) : trimChars (trimChars cs) = trimChars cs :=
  trimChars_of_ends (head?_trimChars cs) (getLast?_trimChars cs)

theorem IsWord.trimChars (h : IsWord cs) : Text.trimChars cs = cs :=
  trimChars_of_ends (fun c hc => h.tight c (List.mem_of_mem_head? hc))
    fun c hc => h.tight c (List.mem_of_getLast? hc)

/-- Trimming takes away the white space around a trimmed text, and nothing else. -/
theorem trimChars_pad (hf : front.all isSpace = true) (hb : back.all isSpace = true)
    (hne : cs ≠ []) (h : trimChars cs = cs) : trimChars (front ++ cs ++ back) = cs := by
  -- the text begins and ends with no white space, so dropping stops there
  have hfirst : ∀ c ∈ (cs ++ back).head?, isSpace c = false := by
    have hfirst := head?_trimChars cs
    rw [h] at hfirst
    obtain ⟨c, cs, rfl⟩ := List.exists_cons_of_ne_nil hne
    exact hfirst
  have hlast := getLast?_trimChars cs
  rw [h] at hlast
  rw [trimChars, List.append_assoc, List.dropWhile_append_of_pos (List.all_eq_true.1 hf),
    dropWhile_of_head? hfirst, List.reverse_append, List.dropWhile_append_of_pos
      (fun c hc => List.all_eq_true.1 hb c (List.mem_reverse.1 hc)),
    dropWhile_of_head? (by rwa [List.head?_reverse]), List.reverse_reverse]

/-- A text that begins with a trimmed text and ends with a word is trimmed. -/
theorem trimChars_of_parts {word : List Char} (middle : List Char) (hne : cs ≠ [])
    (h : trimChars cs = cs) (hw : IsWord word) :
    trimChars (cs ++ middle ++ word) = cs ++ middle ++ word := by
  refine trimChars_of_ends ?_ ?_
  · have hfirst := head?_trimChars cs
    rw [h] at hfirst
    obtain ⟨c, cs, rfl⟩ := List.exists_cons_of_ne_nil hne
    exact hfirst
  · intro c hc
    rw [List.getLast?_append_of_ne_nil _ hw.ne_nil] at hc
    exact hw.tight c (List.mem_of_getLast? hc)

end

/-! ### Gaps -/

section

variable {gap gap' rest rest' front back word word' : List Char}

/-- Where white space ends, a text can be divided in one way only. -/
theorem gap_append_inj (hg : gap.all isSpace = true) (hg' : gap'.all isSpace = true)
    (hr : ∀ c ∈ rest.head?, isSpace c = false) (hr' : ∀ c ∈ rest'.head?, isSpace c = false)
    (h : gap ++ rest = gap' ++ rest') : gap = gap' ∧ rest = rest' := by
  have hd := congrArg (List.dropWhile isSpace) h
  rw [List.dropWhile_append_of_pos (List.all_eq_true.1 hg),
    List.dropWhile_append_of_pos (List.all_eq_true.1 hg'), dropWhile_of_head? hr,
    dropWhile_of_head? hr'] at hd
  rw [hd, List.append_cancel_right_eq] at h
  exact ⟨h, hd⟩

/-- So the text tells the white space on the two sides of a word. -/
theorem gaps_inj (hg : gap.all isSpace = true) (hg' : gap'.all isSpace = true)
    (hf : front.all isSpace = true) (hb : back.all isSpace = true) (hw : IsWord word)
    (hw' : IsWord word') (h : gap ++ word ++ gap' = front ++ word' ++ back) :
    gap = front ∧ gap' = back := by
  rw [List.append_assoc, List.append_assoc] at h
  obtain ⟨hgap, h⟩ := gap_append_inj hg hf (hw.head? _) (hw'.head? _) h
  -- the other end is the beginning of the reversed text
  have hr := congrArg List.reverse h
  rw [List.reverse_append, List.reverse_append, ← List.append_nil word.reverse,
    ← List.append_nil word'.reverse] at hr
  have hback := (gap_append_inj (by rwa [List.all_reverse]) (by rwa [List.all_reverse])
    (hw.reverse.head? []) (hw'.reverse.head? []) hr).1
  exact ⟨hgap, List.reverse_inj.1 hback⟩

end

/-! ### Words -/

section

variable {cs w front back rest word : List Char}

theorem wordsFrom_front (h : front.all isSpace = true) (cs : List Char) :
    wordsFrom [] (front ++ cs) = wordsFrom [] cs := by
  induction front with
  | nil => rfl
  | cons c front ih =>
    rw [List.all_cons, Bool.and_eq_true] at h
    rw [List.cons_append, wordsFrom, if_pos h.1, List.isEmpty_nil, if_pos rfl, ih h.2]

theorem wordsFrom_back (h : back.all isSpace = true) (word cs : List Char) :
    wordsFrom word (cs ++ back) = wordsFrom word cs := by
  induction cs generalizing word with
  | nil =>
    cases back with
    | nil => rfl
    | cons c back =>
      rw [List.all_cons, Bool.and_eq_true] at h
      have hback : wordsFrom [] back = [] := by
        have := wordsFrom_front h.2 []
        rwa [List.append_nil] at this
      rw [List.nil_append, wordsFrom.eq_2, if_pos h.1, hback, wordsFrom]
  | cons c cs ih => rw [List.cons_append, wordsFrom, wordsFrom, ih, ih]

theorem wordsFrom_tight (h : ∀ c ∈ w, isSpace c = false) (word rest : List Char) :
    wordsFrom word (w ++ rest) = wordsFrom (w.reverse ++ word) rest := by
  induction w generalizing word with
  | nil => rfl
  | cons c w ih =>
    obtain ⟨hc, hw⟩ := List.forall_mem_cons.1 h
    rw [List.cons_append, wordsFrom, if_neg (by rw [hc]; exact Bool.false_ne_true), ih hw,
      List.reverse_cons, List.append_assoc, List.singleton_append]

/-- A word with a gap or nothing behind it is the first word. -/
theorem wordsFrom_word (h : IsWord w) (hr : ∀ c ∈ rest.head?, isSpace c = true) :
    wordsFrom [] (w ++ rest) = w :: wordsFrom [] rest := by
  have hne : w.reverse.isEmpty = false := by simpa using h.ne_nil
  rw [wordsFrom_tight h.tight, List.append_nil]
  cases rest with
  | nil =>
    rw [wordsFrom, hne, if_neg Bool.false_ne_true, List.reverse_reverse]
    rfl
  | cons c rest =>
    rw [wordsFrom, if_pos (hr c rfl), hne, if_neg Bool.false_ne_true, List.reverse_reverse,
      wordsFrom, if_pos (hr c rfl), List.isEmpty_nil, if_pos rfl]

theorem wordsFrom_of_isWord (h : IsWord w) : wordsFrom [] w = [w] := by
  have hw : wordsFrom [] (w ++ []) = w :: wordsFrom [] [] := wordsFrom_word h nofun
  rwa [List.append_nil] at hw

/-- A text that is not blank begins with a word, behind white space perhaps. -/
theorem exists_first_word (h : cs.all isSpace = false) : ∃ front w rest,
    front.all isSpace = true ∧ IsWord w ∧ (∀ c ∈ rest.head?, isSpace c = true) ∧
      cs = front ++ w ++ rest := by
  -- what is left behind the white space in front is not empty
  have htight : cs.dropWhile isSpace ≠ [] := by
    rw [Ne, List.dropWhile_eq_nil_iff, ← List.all_eq_true, h]
    exact Bool.false_ne_true
  refine ⟨cs.takeWhile isSpace, (cs.dropWhile isSpace).takeWhile (!isSpace ·),
    (cs.dropWhile isSpace).dropWhile (!isSpace ·), List.all_takeWhile, ⟨?_, ?_⟩, ?_, ?_⟩
  · obtain ⟨c, r, hr⟩ := List.exists_cons_of_ne_nil htight
    have hc : isSpace c = false := head?_dropWhile cs c (by rw [hr]; rfl)
    rw [hr, List.takeWhile_cons_of_pos (by rw [hc]; rfl)]
    exact List.cons_ne_nil _ _
  · intro c hc
    simpa using List.mem_takeWhile_imp hc
  · intro c hc
    have := List.head?_dropWhile_not (!isSpace ·) (cs.dropWhile isSpace)
    rw [Option.mem_def.1 hc] at this
    simpa using this
  · rw [List.append_assoc, List.takeWhile_append_dropWhile, List.takeWhile_append_dropWhile]

theorem wordsFrom_eq_nil_iff : wordsFrom [] cs = [] ↔ cs.all isSpace = true := by
  constructor
  · intro h
    by_contra hb
    obtain ⟨front, w, rest, hf, hw, hr, rfl⟩ := exists_first_word (Bool.not_eq_true _ ▸ hb)
    rw [List.append_assoc, wordsFrom_front hf, wordsFrom_word hw hr] at h
    cases h
  · intro h
    have := wordsFrom_front h []
    rwa [List.append_nil] at this

/-- **The first word of a text** stands behind white space or nothing, and what is behind it begins
with white space and has the other words. -/
theorem wordsFrom_eq_cons_iff {ws : List (List Char)} :
    wordsFrom [] cs = w :: ws ↔ ∃ front rest, front.all isSpace = true ∧ IsWord w ∧
      (∀ c ∈ rest.head?, isSpace c = true) ∧ cs = front ++ w ++ rest ∧ wordsFrom [] rest = ws := by
  constructor
  · intro h
    have hb : cs.all isSpace = false := by
      by_contra hb
      rw [wordsFrom_eq_nil_iff.2 (Bool.not_eq_false _ ▸ hb)] at h
      cases h
    obtain ⟨front, w', rest, hf, hw, hr, rfl⟩ := exists_first_word hb
    rw [List.append_assoc, wordsFrom_front hf, wordsFrom_word hw hr, List.cons.injEq] at h
    obtain ⟨rfl, rfl⟩ := h
    exact ⟨front, rest, hf, hw, hr, rfl, rfl⟩
  · rintro ⟨front, rest, hf, hw, hr, rfl, rfl⟩
    rw [List.append_assoc, wordsFrom_front hf, wordsFrom_word hw hr]

/-- Behind a word the next one stands behind a gap. -/
theorem wordsFrom_eq_cons_iff_of_head? (h : ∀ c ∈ rest.head?, isSpace c = true)
    {ws : List (List Char)} :
    wordsFrom [] rest = w :: ws ↔ ∃ gap behind, IsGap gap ∧ IsWord w ∧
      (∀ c ∈ behind.head?, isSpace c = true) ∧ rest = gap ++ w ++ behind ∧
        wordsFrom [] behind = ws := by
  rw [wordsFrom_eq_cons_iff]
  refine exists_congr fun gap => exists_congr fun behind => ?_
  refine ⟨fun ⟨hg, hw, hb⟩ => ⟨⟨?_, hg⟩, hw, hb⟩, fun ⟨hg, hw, hb⟩ => ⟨hg.blank, hw, hb⟩⟩
  -- without a gap the word would begin with white space
  rintro rfl
  obtain ⟨c, w, rfl⟩ := List.exists_cons_of_ne_nil hw.ne_nil
  have hc : isSpace c = true := h c (by rw [hb.2.1]; rfl)
  rw [hw.tight c List.mem_cons_self] at hc
  cases hc

theorem words_eq_iff {s : String} {ws : List String} :
    words s = ws ↔ wordsFrom [] s.toList = ws.map String.toList := by
  rw [words]
  constructor
  · rintro rfl
    simp
  · intro h
    simp [h]

end

theorem words_trim (s : String) : words (trim s) = words s := by
  obtain ⟨front, back, hf, hb, hs⟩ := exists_trimChars s.toList
  have hw : wordsFrom [] s.toList = wordsFrom [] (trimChars s.toList) := by
    rw [congrArg (wordsFrom []) hs, wordsFrom_back hb, wordsFrom_front hf]
  rw [words, words, trim, String.toList_ofList, hw]

theorem trim_trim (s : String) : trim (trim s) = trim s := by
  rw [trim, trim, String.toList_ofList, trimChars_trimChars]

end Text

end QueryTree
