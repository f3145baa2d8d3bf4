import QueryTree.Proofs.Arguments.Marks
import QueryTree.Proofs.Arguments.Plain

/-!
# Slots of a fragment

A slot is the place of an argument: the text in front of it and the value that belongs there.  A
fragment lays out some slots if its arguments are their values, in order, each behind the text of
its slot.  The fragments that do are closed under concatenation, and their text has one mark for
each slot.

* `Slot` — slots.
* `Fragment.Lays` — a fragment lays out some slots.
* `Fragment.Lays.append` — one fragment behind the other.
* `Fragment.Lays.aligned` — text and arguments of a fragment are in line with its slots.
-/

namespace QueryTree

/-- A word of a statement: a text without marks that is not empty and does not begin with a digit.
It may stand directly behind an argument. -/
def Text.isWord (s : String) : Bool :=
  isPlain s && !s.isEmpty && !Marks.startsWithDigit s.toList

theorem Text.isWord_append {word s : String} (hw : isWord word = true) (hs : isPlain s = true) :
    isWord (word ++ s) = true := by
  simp only [isWord, Bool.and_eq_true, Bool.not_eq_true'] at hw ⊢
  obtain ⟨⟨hp, hne⟩, hd⟩ := hw
  refine ⟨⟨?_, ?_⟩, ?_⟩
  · rw [isPlain_append, hp, hs]
    rfl
  · simp only [String.isEmpty_eq_false_iff, ne_eq, String.append_eq_empty_iff] at hne ⊢
    exact fun h => hne h.1
  · rw [Marks.startsWithDigit_toList_append s hne, hd]

/-- The place of an argument. -/
structure Slot where
  /-- The text directly in front of it. -/
  before : String
  /-- The value that belongs there. -/
  value : Value

namespace Fragment

/-- A fragment lays out some slots behind the text `lead`, which an argument precedes directly if
`behind` holds and `lead` is empty.  No text has marks of its own.  If `spaced` holds, no digit
stands directly behind an argument. -/
inductive Lays (spaced : Bool) : List Char → Bool → Fragment → List Slot → Prop
  | nil {lead : List Char} {behind : Bool} : Lays spaced lead behind [] []
  | text {lead : List Char} {behind : Bool} {s : String} {f : Fragment} {slots : List Slot}
    (hs : Text.isPlain s = true)
    (hd : spaced = true → behind = true → Marks.startsWithDigit s.toList = false)
    (hf : Lays spaced (lead ++ s.toList) (behind && s.isEmpty) f slots) :
    Lays spaced lead behind (.text s :: f) slots
  | item {lead : List Char} {e : String} {f : Fragment} {slots : List Slot}
    (hs : Text.isPlain e = true) (hf : Lays spaced [] false f slots) :
    Lays spaced lead false (.item e :: f) slots
  | labelled {lead : List Char} {e label : String} {f : Fragment} {slots : List Slot}
    (hs : Text.isPlain e = true) (hl : Text.isPlain label = true)
    (hf : Lays spaced [] false f slots) : Lays spaced lead false (.labelled e label :: f) slots
  | argument {lead : List Char} {behind : Bool} {before : String} {v : Value} {f : Fragment}
    {slots : List Slot} (hb : before.toList <:+ lead) (hf : Lays spaced [] true f slots) :
    Lays spaced lead behind (.argument v :: f) (⟨before, v⟩ :: slots)

namespace Lays

variable {spaced : Bool} {lead lead' : List Char} {behind behind' : Bool} {f g : Fragment}
  {slots slots' : List Slot}

/-- More text may stand in front, and no argument need to. -/
theorem weaken (h : Lays spaced lead behind f slots) (hl : lead <:+ lead')
    (hb : behind' = true → behind = true) : Lays spaced lead' behind' f slots := by
  induction h generalizing lead' behind' with
  | nil => exact .nil
  | text hs hd hf ih =>
    refine .text hs (fun ha hb' => hd ha (hb hb')) (ih ?_ ?_)
    · -- the longer text in front still ends as the shorter one does
      obtain ⟨cs, rfl⟩ := hl
      exact ⟨cs, by rw [List.append_assoc]⟩
    · intro h
      rw [Bool.and_eq_true] at h ⊢
      exact ⟨hb h.1, h.2⟩
  | item hs hf ih =>
    have hb : behind' = false := eq_false_of_ne_true fun h => Bool.false_ne_true (hb h)
    exact hb ▸ .item hs hf
  | labelled hs hl' hf ih =>
    have hb : behind' = false := eq_false_of_ne_true fun h => Bool.false_ne_true (hb h)
    exact hb ▸ .labelled hs hl' hf
  | argument hb' hf ih => exact .argument (hb'.trans hl) hf

/-- What may stand behind an argument may stand anywhere. -/
theorem anywhere (h : Lays spaced [] true f slots) : Lays spaced lead behind f slots :=
  h.weaken List.nil_suffix fun _ => rfl

theorem append (h : Lays spaced lead behind f slots) (h' : Lays spaced [] true g slots') :
    Lays spaced lead behind (f ++ g) (slots ++ slots') := by
  induction h with
  | nil => exact h'.anywhere
  | text hs hd hf ih => exact .text hs hd ih
  | item hs hf ih => exact .item hs ih
  | labelled hs hl hf ih => exact .labelled hs hl ih
  | argument hb hf ih => exact .argument hb ih

theorem append_of_nil (h : Lays spaced lead behind f slots) (h' : Lays spaced [] true g []) :
    Lays spaced lead behind (f ++ g) slots := by
  have := h.append h'
  rwa [List.append_nil] at this

theorem cons_plain {s : String} (hs : Text.isPlain s = true)
    (h : Lays spaced (lead ++ s.toList) false f slots) :
    Lays spaced lead false (.text s :: f) slots :=
  .text hs (fun _ hb => absurd hb Bool.false_ne_true) h

theorem cons_word {s : String} (hs : Text.isWord s = true) (h : Lays spaced [] false f slots) :
    Lays spaced lead behind (.text s :: f) slots := by
  simp only [Text.isWord, Bool.and_eq_true, Bool.not_eq_true'] at hs
  obtain ⟨⟨hp, hne⟩, hd⟩ := hs
  refine .text hp (fun _ _ => hd) (h.weaken List.nil_suffix fun hb => ?_)
  rw [hne, Bool.and_false] at hb
  exact hb

theorem of_plain {s : String} (hs : Text.isPlain s = true) :
    Lays spaced lead false [.text s] [] :=
  .cons_plain hs .nil

theorem of_word {s : String} (hs : Text.isWord s = true) : Lays spaced lead behind [.text s] [] :=
  .cons_word hs .nil

theorem append_word {s : String} (h : Lays spaced lead behind f slots)
    (hs : Text.isWord s = true) : Lays spaced lead behind (f ++ [.text s]) slots :=
  h.append_of_nil (.of_word hs)

theorem eq_nil_of_isVoid (h : Lays spaced lead behind f slots) (hf : f.isVoid = true) :
    slots = [] := by
  induction h with
  | nil => rfl
  | text hs hd hf' ih =>
    rw [isVoid, List.all_cons, Bool.and_eq_true] at hf
    exact ih hf.2
  | item hs hf' ih => cases hf
  | labelled hs hl hf' ih => cases hf
  | argument hb hf' ih => cases hf

theorem eq_nil_of_nil (h : Lays spaced lead behind [] slots) : slots = [] := by
  cases h
  rfl

end Lays

end Fragment

/-! ### The text of slots -/

/-- A text with question marks, and the same text with numbered marks, in line with some slots. -/
structure Marks.Fit (spaced : Bool) (lead : List Char) (behind : Bool) (n : Nat)
    (question dollar : List Char) (slots : List Slot) : Prop where
  /-- In front of each question mark stands the text of its slot. -/
  places : List.Forall₂ (fun slot lead => slot.before.toList <:+ lead) slots
    (leads lead question)
  /-- The marks are numbered in order. -/
  numbered : dollar = Marks.numbered n question
  /-- There are no other dollar signs. -/
  not_mem : '$' ∉ question
  /-- Digits keep away from the marks. -/
  apart : spaced = true → Marks.apart question = true
  /-- The text does not begin with a digit behind an argument. -/
  clear : spaced = true → behind = true → startsWithDigit question = false

theorem Marks.forall₂_leads_of_suffix {lead lead' cs : List Char} {slots : List Slot}
    (hl : lead <:+ lead')
    (h : List.Forall₂ (fun slot lead => slot.before.toList <:+ lead) slots (leads lead cs)) :
    List.Forall₂ (fun slot lead => slot.before.toList <:+ lead) slots (leads lead' cs) := by
  induction cs generalizing lead lead' with
  | nil => exact h
  | cons c cs ih =>
    unfold leads at h ⊢
    by_cases hc : c = '?'
    · rw [if_pos hc] at h ⊢
      cases h with
      | cons hb hs => exact .cons (hb.trans hl) hs
    · rw [if_neg hc] at h ⊢
      obtain ⟨front, rfl⟩ := hl
      exact ih ⟨front, by rw [List.append_assoc]⟩ h

namespace Marks.Fit

variable {spaced : Bool} {lead lead' : List Char} {behind : Bool} {n : Nat}
  {question dollar : List Char} {slots : List Slot}

theorem nil : Fit spaced lead behind n [] [] [] :=
  ⟨.nil, rfl, List.not_mem_nil, fun _ => rfl, fun _ _ => rfl⟩

theorem text {s : String} (hs : Text.isPlain s = true)
    (hd : spaced = true → behind = true → startsWithDigit s.toList = false)
    (h : Fit spaced (lead ++ s.toList) (behind && s.isEmpty) n question dollar slots) :
    Fit spaced lead behind n (s.toList ++ question) (s.toList ++ dollar) slots := by
  obtain ⟨hq, hdollar⟩ := Text.not_mem_of_isPlain hs
  refine ⟨?_, ?_, ?_, ?_, ?_⟩
  · rw [leads_append_of_not_mem hq]
    exact h.places
  · rw [numbered_append_of_not_mem hq, h.numbered]
  · rw [List.mem_append, not_or]
    exact ⟨hdollar, h.not_mem⟩
  · intro ha
    rw [apart_append_of_not_mem hq]
    exact h.apart ha
  · intro ha hb
    have hd := hd ha hb
    cases hcs : s.toList with
    | nil =>
      -- an empty text does not keep the argument away from what follows
      have he : s.isEmpty = true := by
        rw [String.isEmpty_iff, ← String.toList_eq_nil_iff]
        exact hcs
      exact h.clear ha (by rw [hb, he]; rfl)
    | cons c cs =>
      rw [hcs] at hd
      exact hd

theorem piece {s : String} (hs : Text.isPlain s = true)
    (h : Fit spaced [] false n question dollar slots) :
    Fit spaced lead false n (s.toList ++ question) (s.toList ++ dollar) slots :=
  text hs (fun _ hb => absurd hb Bool.false_ne_true)
    { h with places := forall₂_leads_of_suffix List.nil_suffix h.places }

theorem mark {before : String} {v : Value} (hb : before.toList <:+ lead)
    (h : Fit spaced [] true (n + 1) question dollar slots) :
    Fit spaced lead behind n ('?' :: question)
      ('$' :: ((toString n).toList ++ dollar)) (⟨before, v⟩ :: slots) := by
  refine ⟨.cons hb h.places, ?_, ?_, ?_, fun _ _ => rfl⟩
  · rw [h.numbered]
    rfl
  · rw [List.mem_cons, not_or]
    exact ⟨by decide, h.not_mem⟩
  · intro ha
    rw [Marks.apart, h.clear ha rfl, h.apart ha]
    rfl

end Marks.Fit

namespace Fragment

variable {spaced : Bool} {lead : List Char} {behind : Bool} {f : Fragment} {slots : List Slot}

theorem Lays.arguments (h : Lays spaced lead behind f slots) :
    f.arguments = slots.map Slot.value := by
  induction h with
  | nil => rfl
  | text hs hd hf ih => exact ih
  | item hs hf ih => exact ih
  | labelled hs hl hf ih => exact ih
  | argument hb hf ih => exact congrArg _ ih

theorem isPlain_freeName (n : Nat) : Text.isPlain (freeName n) = true := by
  rw [freeName, Text.isPlain_append, Text.isPlain_toString_nat]
  rfl

/-- The text of a fragment is in line with the slots that the fragment lays out. -/
theorem Lays.fit (h : Lays spaced lead behind f slots) (n : Numbering) :
    Marks.Fit spaced lead behind (n.arguments + 1) (f.render .question n).toList
      (f.render .dollar n).toList slots := by
  -- the induction is on the layout; `n` grows by one at each argument, and only there
  induction h generalizing n with
  | nil => exact .nil
  | text hs hd hf ih =>
    rw [render, render, String.toList_append, String.toList_append]
    exact .text hs hd (ih n)
  | item hs hf ih =>
    rw [render, render, String.toList_append, String.toList_append]
    refine .piece ?_ (ih (n.after (.item _)))
    rw [Piece.render, Text.isPlain_append, Text.isPlain_append, hs, isPlain_freeName]
    rfl
  | labelled hs hl hf ih =>
    rw [render, render, String.toList_append, String.toList_append]
    refine .piece ?_ (ih (n.after (.labelled _ _)))
    rw [Piece.render, Text.isPlain_append, Text.isPlain_append, hs, hl]
    rfl
  | @argument _ _ _ v _ _ hb hf ih =>
    have hq : ((Piece.argument v).render .question n).toList = ['?'] := by
      simp [Piece.render, Placeholder.mark]
    have hd : ((Piece.argument v).render .dollar n).toList =
        '$' :: (toString (n.arguments + 1)).toList := by
      simp [Piece.render, Placeholder.mark]
    rw [render, render, String.toList_append, String.toList_append, hq, hd]
    exact .mark hb (ih (n.after (.argument v)))

end Fragment

end QueryTree
