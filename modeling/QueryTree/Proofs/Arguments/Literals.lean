import QueryTree.Proofs.Arguments.Clauses

/-!
# Marks and string literals

A question mark in a raw piece of text is the place of an argument unless it stands in a string
literal.  The arguments of the piece take the question marks as they come, wherever these stand.
Where marks are left as they are, this changes nothing; where they are numbered, a literal can be
numbered in place of the mark behind it.

* `Region` — where in a statement a character stands: in code, a literal, a name or a comment.
* `markers` — for each question mark of a text, whether it is the place of an argument.
* `numberedMarkers` — the text in which these are numbered, and all else is left as it is.
* `raw_numbered_iff` — when the arguments of a raw piece are numbered so.
-/

namespace QueryTree

/-! ### Where characters stand -/

/-- Where a character of a statement stands. -/
inductive Region where
  | code
  /-- In a string literal. -/
  | literal
  /-- In a quoted name. -/
  | name
  /-- In code, behind a dash that may begin a comment. -/
  | dash
  /-- In a comment that ends with the line. -/
  | line
  /-- In code, behind a slash that may begin a comment. -/
  | slash
  /-- In a comment between two marks. -/
  | comment
  /-- In such a comment, behind a star that may end it. -/
  | star
  deriving DecidableEq

namespace Region

/-- The region behind a character of the code. -/
def start (c : Char) : Region :=
  if c = '\'' then literal
  else if c = '"' then name
  else if c = '-' then dash
  else if c = '/' then slash
  else code

/-- The region behind a character.  A doubled quote ends a literal and begins it again, so what is
behind it stands in the literal. -/
def next (c : Char) : Region → Region
  | code => start c
  | literal => if c = '\'' then code else literal
  | name => if c = '"' then code else name
  | dash => if c = '-' then line else start c
  | line => if c = '\n' then code else line
  | slash => if c = '*' then comment else start c
  | comment => if c = '*' then star else comment
  | star => if c = '/' then code else if c = '*' then star else comment

end Region

/-! ### Markers -/

/-- For each question mark of a text, in order, whether it is the place of an argument; the text
begins in the region `r`. -/
def markers (r : Region) : List Char → List Bool
  | [] => []
  | c :: cs =>
    if c = '?' then (r != .literal) :: markers (r.next c) cs else markers (r.next c) cs

/-- The text in which the places of arguments are numbered from `n` on. -/
def numberedMarkers (n : Nat) (r : Region) : List Char → List Char
  | [] => []
  | c :: cs =>
    if c = '?' ∧ r ≠ .literal then
      '$' :: ((toString n).toList ++ numberedMarkers (n + 1) (r.next c) cs)
    else c :: numberedMarkers n (r.next c) cs

/-- The text in which the first `k` question marks are numbered from `n` on. -/
def numberedFirst : (k n : Nat) → List Char → List Char
  | 0, _, cs => cs
  | _ + 1, _, [] => []
  | k + 1, n, c :: cs =>
    if c = '?' then '$' :: ((toString n).toList ++ numberedFirst k (n + 1) cs)
    else c :: numberedFirst (k + 1) n cs

theorem length_markers (r : Region) (cs : List Char) :
    (markers r cs).length = cs.count '?' := by
  induction cs generalizing r with
  | nil => rfl
  | cons c cs ih =>
    unfold markers
    by_cases h : c = '?'
    · rw [if_pos h, List.length_cons, ih, h, List.count_cons_self]
    · rw [if_neg h, ih, List.count_cons_of_ne h]

/-- A text without places of arguments is left as it is. -/
theorem numberedMarkers_of_count {r : Region} {cs : List Char}
    (h : (markers r cs).count true = 0) (n : Nat) : numberedMarkers n r cs = cs := by
  induction cs generalizing r with
  | nil => rfl
  | cons c cs ih =>
    unfold markers at h
    unfold numberedMarkers
    by_cases hc : c = '?'
    · rw [if_pos hc, List.count_cons, Nat.add_eq_zero_iff] at h
      -- no place is left, so this question mark stands in a literal
      have hr : r = .literal := by simpa using h.2
      rw [if_neg fun hn => hn.2 hr, ih h.1]
    · rw [if_neg hc] at h
      rw [if_neg fun hn => hc hn.1, ih h]

/-- **The first question marks are the places of the arguments exactly if none of them stands in a
literal.** -/
theorem numberedFirst_eq_iff {r : Region} {cs : List Char} {k : Nat}
    (h : (markers r cs).count true = k) (n : Nat) :
    numberedFirst k n cs = numberedMarkers n r cs ↔
      ∀ marker ∈ (markers r cs).take k, marker = true := by
  induction cs generalizing r k n with
  | nil => cases k <;> simp [numberedFirst, numberedMarkers, markers]
  | cons c cs ih =>
    cases k with
    | zero => simp [numberedFirst, numberedMarkers_of_count h]
    | succ k =>
      unfold markers at h
      unfold markers numberedFirst numberedMarkers
      by_cases hc : c = '?'
      · by_cases hr : r = .literal
        · -- this one is numbered although it is no place
          simp [hc, hr]
        · have hb : (r != .literal) = true := bne_iff_ne.2 hr
          rw [if_pos hc, hb, List.count_cons_self, Nat.add_right_cancel_iff] at h
          rw [if_pos hc, if_pos hc, if_pos ⟨hc, hr⟩, hb, List.take_succ_cons,
            List.forall_mem_cons, List.cons_inj_right, List.append_cancel_left_eq, ih h]
          exact (and_iff_right rfl).symm
      · rw [if_neg hc] at h
        rw [if_neg hc, if_neg hc, if_neg fun hn => hc hn.1, List.cons_inj_right, ih h]

/-! ### Raw pieces -/

section

variable (chunk cs : List Char) (vs : List Value) (n : Numbering)

theorem arguments_rawPieces :
    Fragment.arguments (rawPieces chunk cs vs) = vs.take (cs.count '?') := by
  induction cs generalizing chunk vs with
  | nil => cases vs <;> rfl
  | cons c cs ih =>
    by_cases hc : c = '?'
    · rw [hc, List.count_cons_self]
      cases vs with
      | nil => exact (ih _ []).trans List.take_nil
      | cons v vs =>
        rw [rawPieces, if_pos rfl, List.take_succ_cons, ← ih []]
        rfl
    · rw [rawPieces_cons_of_ne hc, ih, List.count_cons_of_ne hc]

/-- Question marks that stay marks leave the text as it is. -/
theorem toList_render_question :
    (Fragment.render .question n (rawPieces chunk cs vs)).toList = chunk.reverse ++ cs := by
  induction cs generalizing chunk vs n with
  | nil => simp [rawPieces, Fragment.render, Piece.render]
  | cons c cs ih =>
    by_cases hc : c = '?'
    · cases vs with
      | nil => simp [rawPieces, ih]
      | cons v vs =>
        rw [rawPieces, if_pos hc, Fragment.render, Fragment.render, String.toList_append,
          String.toList_append, ih, hc]
        simp [Piece.render, Placeholder.mark]
    · simp [rawPieces_cons_of_ne hc, ih]

/-- As many question marks are numbered as there are arguments, the first ones of the text. -/
theorem toList_render_dollar :
    (Fragment.render .dollar n (rawPieces chunk cs vs)).toList =
      chunk.reverse ++ numberedFirst vs.length (n.arguments + 1) cs := by
  induction cs generalizing chunk vs n with
  | nil => cases vs <;> simp [rawPieces, Fragment.render, Piece.render, numberedFirst]
  | cons c cs ih =>
    cases vs with
    -- the arguments have run out, so the rest is text
    | nil => simp [rawPieces, ih, numberedFirst]
    | cons v vs =>
      rw [List.length_cons, numberedFirst]
      by_cases hc : c = '?'
      · rw [rawPieces, if_pos hc, if_pos hc, Fragment.render, Fragment.render,
          String.toList_append, String.toList_append, ih]
        simp [Piece.render, Placeholder.mark, Numbering.after]
      · rw [rawPieces_cons_of_ne hc, if_neg hc, ih]
        simp

end

/-- **The arguments of a raw piece are numbered at their places exactly if no question mark in a
literal stands in front of the last one.**  For every text with as many places of arguments as there
are arguments, behind whatever stands in front of it in the statement: each argument is bound once,
in order, and marks that are not numbered leave the text as it is; marks that are numbered are the
first question marks of the text. -/
theorem raw_numbered_iff (d : Dialect) {text : String} {args : List Value}
    (h : (markers .code text.toList).count true = args.length) (n : Numbering) :
    let piece := leafPieces d .raw text (some (.args args))
    piece.arguments = args ∧ piece.render .question n = text ∧
      piece.render .dollar n =
        String.ofList (numberedFirst args.length (n.arguments + 1) text.toList) ∧
      (piece.render .dollar n =
          String.ofList (numberedMarkers (n.arguments + 1) .code text.toList) ↔
        ∀ marker ∈ (markers .code text.toList).take args.length, marker = true) := by
  intro piece
  have hp : piece = rawPieces [] text.toList args := rfl
  have hd : piece.render .dollar n =
      String.ofList (numberedFirst args.length (n.arguments + 1) text.toList) := by
    rw [← String.ofList_toList (s := piece.render .dollar n), hp, toList_render_dollar]
    rfl
  -- there are question marks for all arguments, as each place is one
  have hcount : args.length ≤ text.toList.count '?' := by
    rw [← h, ← length_markers .code]
    exact List.count_le_length
  refine ⟨?_, ?_, hd, ?_⟩
  · rw [hp, arguments_rawPieces, List.take_of_length_le hcount]
  · rw [← String.toList_inj, hp, toList_render_question]
    rfl
  · rw [hd, ← numberedFirst_eq_iff h, String.ofList_inj]

/-- A literal in front of the mark is numbered in its place. -/
theorem raw_numbered_iff_of_literal :
    (markers .code "name = '?' AND b = ?".toList).count true = [Value.int 7].length ∧
      (leafPieces .postgres .raw "name = '?' AND b = ?" (some (.args [.int 7]))).render .dollar
        .start ≠ String.ofList (numberedMarkers 1 .code "name = '?' AND b = ?".toList) := by
  have h : (markers .code "name = '?' AND b = ?".toList).count true = [Value.int 7].length := by
    decide
  refine ⟨h, fun he => ?_⟩
  have hm := (raw_numbered_iff .postgres h .start).2.2.2.1 he
  exact absurd hm (by decide)

example : numberedMarkers 3 .code "a = '?' AND b = ? -- don't\n AND c = ?".toList =
    "a = '?' AND b = $3 -- don't\n AND c = $4".toList := by
  decide

end QueryTree
