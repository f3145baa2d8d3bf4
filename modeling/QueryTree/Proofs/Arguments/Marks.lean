import Mathlib.Data.List.Forall2

/-!
# Marks in a text

A text with question marks, and the same text with the marks numbered.

* `Marks.leads` — the texts between the question marks.
* `Marks.numbered` — the text with the question marks numbered in order, behind dollar signs.
* `Marks.tokens` — the numbers behind the dollar signs of a text.
* `Marks.tokens_numbered` — they are the numbers of the marks, unless a digit follows on a mark.
-/

namespace QueryTree

namespace Marks

/-- The texts in front of the question marks, each from the mark before on; `lead` is what stands
before the text. -/
def leads (lead : List Char) : List Char → List (List Char)
  | [] => []
  | c :: cs => if c = '?' then lead :: leads [] cs else leads (lead ++ [c]) cs

/-- The text with `$n`, `$n+1`, … for its question marks. -/
def numbered (n : Nat) : List Char → List Char
  | [] => []
  | c :: cs =>
    if c = '?' then '$' :: ((toString n).toList ++ numbered (n + 1) cs) else c :: numbered n cs

/-- The digits behind each dollar sign. -/
def tokens : List Char → List (List Char)
  | [] => []
  | c :: cs => if c = '$' then cs.takeWhile Char.isDigit :: tokens cs else tokens cs

/-- The text begins with a digit. -/
def startsWithDigit (cs : List Char) : Bool := cs.head?.any Char.isDigit

/-- No question mark has a digit directly behind it. -/
def apart : List Char → Bool
  | [] => true
  | c :: cs => (c != '?' || !startsWithDigit cs) && apart cs

/-! ### Beginnings -/

theorem startsWithDigit_append_left {a b : List Char} (h : startsWithDigit (a ++ b) = false) :
    startsWithDigit a = false := by
  cases a with
  | nil => rfl
  | cons c cs => exact h

theorem startsWithDigit_toList_append {s : String} (t : String) (hne : s.isEmpty = false) :
    startsWithDigit (s ++ t).toList = startsWithDigit s.toList := by
  rw [String.toList_append]
  cases hs : s.toList with
  | nil =>
    rw [String.toList_eq_nil_iff] at hs
    rw [hs] at hne
    cases hne
  | cons c cs => rfl

/-! ### Counting -/

theorem length_leads (lead cs : List Char) : (leads lead cs).length = cs.count '?' := by
  induction cs generalizing lead with
  | nil => rfl
  | cons c cs ih =>
    unfold leads
    by_cases h : c = '?'
    · rw [if_pos h, List.length_cons, ih, h, List.count_cons_self]
    · rw [if_neg h, ih, List.count_cons_of_ne h]

/-! ### Texts without marks -/

theorem leads_append_of_not_mem {cs : List Char} (h : '?' ∉ cs) (lead rest : List Char) :
    leads lead (cs ++ rest) = leads (lead ++ cs) rest := by
  induction cs generalizing lead with
  | nil => simp
  | cons c cs ih =>
    rw [List.mem_cons, not_or] at h
    rw [List.cons_append, leads, if_neg (Ne.symm h.1), ih h.2, List.append_assoc]
    rfl

theorem numbered_append_of_not_mem {cs : List Char} (h : '?' ∉ cs) (n : Nat) (rest : List Char) :
    numbered n (cs ++ rest) = cs ++ numbered n rest := by
  induction cs with
  | nil => rfl
  | cons c cs ih =>
    rw [List.mem_cons, not_or] at h
    rw [List.cons_append, numbered, if_neg (Ne.symm h.1), ih h.2, List.cons_append]

theorem apart_append_of_not_mem {cs : List Char} (h : '?' ∉ cs) (rest : List Char) :
    apart (cs ++ rest) = apart rest := by
  induction cs with
  | nil => rfl
  | cons c cs ih =>
    rw [List.mem_cons, not_or] at h
    rw [List.cons_append, apart, ih h.2, bne_iff_ne.2 (Ne.symm h.1)]
    rfl

theorem tokens_append_of_not_mem {cs : List Char} (h : '$' ∉ cs) (rest : List Char) :
    tokens (cs ++ rest) = tokens rest := by
  induction cs with
  | nil => rfl
  | cons c cs ih =>
    rw [List.mem_cons, not_or] at h
    rw [List.cons_append, tokens, if_neg (Ne.symm h.1), ih h.2]

/-! ### Numbers -/

theorem isDigit_of_mem_toString {n : Nat} {c : Char} (h : c ∈ (toString n).toList) :
    c.isDigit = true := by
  have hr : c ∈ n.repr.toList := h
  rw [Nat.toList_repr] at hr
  exact Nat.isDigit_of_mem_toDigits (by decide) (by decide) hr

theorem not_mem_toString {n : Nat} {c : Char} (h : c.isDigit = false) :
    c ∉ (toString n).toList := by
  intro hc
  rw [isDigit_of_mem_toString hc] at h
  cases h

theorem takeWhile_toString_append (n : Nat) (rest : List Char) :
    ((toString n).toList ++ rest).takeWhile Char.isDigit =
      (toString n).toList ++ rest.takeWhile Char.isDigit :=
  List.takeWhile_append_of_pos fun _ h => isDigit_of_mem_toString h

/-- Each dollar sign has the number of its mark behind it. -/
theorem tokens_numbered_prefix (n : Nat) {cs : List Char} (h : '$' ∉ cs) :
    List.Forall₂ (fun n token => (toString n).toList <+: token)
      (List.range' n (cs.count '?')) (tokens (numbered n cs)) := by
  induction cs generalizing n with
  | nil => exact .nil
  -- the induction is on the text, whose next mark has the number `n`
  | cons c cs ih =>
    rw [List.mem_cons, not_or] at h
    unfold numbered
    by_cases hc : c = '?'
    · rw [if_pos hc, hc, List.count_cons_self, List.range'_succ, tokens, if_pos rfl,
        takeWhile_toString_append, tokens_append_of_not_mem (not_mem_toString rfl)]
      exact .cons (List.prefix_append _ _) (ih (n + 1) h.2)
    · rw [if_neg hc, List.count_cons_of_ne hc, tokens, if_neg (Ne.symm h.1)]
      exact ih n h.2

theorem takeWhile_numbered {cs : List Char} (h : startsWithDigit cs = false) (n : Nat) :
    (numbered n cs).takeWhile Char.isDigit = [] := by
  cases cs with
  | nil => rfl
  | cons c cs =>
    unfold numbered
    by_cases hc : c = '?'
    · -- a mark becomes a dollar sign, which is no digit
      rw [if_pos hc]
      rfl
    · have hd : c.isDigit = false := h
      rw [if_neg hc, List.takeWhile_cons, hd]
      rfl

/-- **Behind the dollar signs stand exactly the numbers of the marks,** unless a digit follows on a
mark. -/
theorem tokens_numbered (n : Nat) {cs : List Char} (h : '$' ∉ cs) (ha : apart cs = true) :
    tokens (numbered n cs) =
      (List.range' n (cs.count '?')).map fun n => (toString n).toList := by
  induction cs generalizing n with
  | nil => rfl
  | cons c cs ih =>
    rw [List.mem_cons, not_or] at h
    rw [apart, Bool.and_eq_true] at ha
    unfold numbered
    by_cases hc : c = '?'
    · -- `apart` keeps digits of the text from the number in front of them
      have hd : startsWithDigit cs = false := by
        simpa [hc] using ha.1
      rw [if_pos hc, hc, List.count_cons_self, List.range'_succ, tokens, if_pos rfl,
        takeWhile_toString_append, tokens_append_of_not_mem (not_mem_toString rfl),
        takeWhile_numbered hd, List.append_nil, List.map_cons, ih (n + 1) h.2 ha.2]
    · rw [if_neg hc, List.count_cons_of_ne hc, tokens, if_neg (Ne.symm h.1), ih n h.2 ha.2]

end Marks

end QueryTree
