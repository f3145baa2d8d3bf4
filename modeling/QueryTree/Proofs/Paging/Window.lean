import QueryTree.Proofs.Arguments.Marks
import QueryTree.Sql.Statement

/-!
# Windows read back

A window of rows is written at the end of a statement, in one of two ways.  Either way it can be
read back: the two texts ask for the same rows.

* `Extent` — how many rows are asked for, and how many are passed over, as numbers.
* `Pagination.read?` — a reader of the text of a window.
* `Pagination.read?_text` — what is read is what was written.
-/

namespace QueryTree

/-- How many rows are asked for, all of them unless there is a number, and how many are passed over
before them. -/
structure Extent where
  limit : Option Nat
  offset : Nat
  deriving DecidableEq

/-- The extent of a window; to pass over nothing and to pass over zero rows is the same. -/
def Window.extent (w : Window) : Extent :=
  ⟨w.limit.map UInt64.toNat, (w.offset.map UInt64.toNat).getD 0⟩

namespace Pagination

/-! ### The reader -/

/-- A number between two words at the beginning of a text, and the text behind it; without one, the
text as it is. -/
def takeNumber (before behind : String) (cs : List Char) : Option Nat × List Char :=
  match cs.dropPrefix? before.toList with
  | none => (none, cs)
  | some rest =>
    match rest.takeWhile Char.isDigit, (rest.dropWhile Char.isDigit).dropPrefix? behind.toList with
    | digit :: digits, some rest' => (some (Nat.ofDigitChars 10 (digit :: digits) 0), rest')
    | _, _ => (none, cs)

/-- The extent that a text asks for, if all of it is a window. -/
def read? (p : Pagination) (text : String) : Option Extent :=
  match p with
  | limitOffset =>
    let limit := takeNumber " LIMIT " "" text.toList
    let offset := takeNumber " OFFSET " "" limit.2
    if offset.2.isEmpty then some ⟨limit.1, offset.1.getD 0⟩ else none
  | offsetFetch =>
    let offset := takeNumber " OFFSET " " ROWS" text.toList
    let limit := takeNumber " FETCH NEXT " " ROWS ONLY" offset.2
    if limit.2.isEmpty then some ⟨limit.1, offset.1.getD 0⟩ else none

/-! ### Numbers -/

theorem exists_toString (n : Nat) : ∃ digit digits, (toString n).toList = digit :: digits ∧
    Nat.ofDigitChars 10 (digit :: digits) 0 = n := by
  have hn : (toString n).toList = Nat.toDigits 10 n := by
    rw [Nat.toString_eq_repr, Nat.toList_repr]
  obtain ⟨digit, digits, hd⟩ := List.exists_cons_of_ne_nil (Nat.toDigits_ne_nil (b := 10) (n := n))
  exact ⟨digit, digits, hn.trans hd, by rw [← hd, Nat.ofDigitChars_ten_toDigits]⟩

theorem takeWhile_toString {n : Nat} {cs : List Char} (h : Marks.startsWithDigit cs = false) :
    ((toString n).toList ++ cs).takeWhile Char.isDigit = (toString n).toList := by
  rw [Marks.takeWhile_toString_append]
  cases cs with
  | nil => exact List.append_nil _
  | cons c cs =>
    have hc : c.isDigit = false := h
    rw [List.takeWhile_cons, hc]
    exact List.append_nil _

theorem dropWhile_toString {n : Nat} {cs : List Char} (h : Marks.startsWithDigit cs = false) :
    ((toString n).toList ++ cs).dropWhile Char.isDigit = cs := by
  have ht := List.takeWhile_append_dropWhile (p := Char.isDigit) (l := (toString n).toList ++ cs)
  rw [takeWhile_toString h] at ht
  exact List.append_cancel_left ht

/-- The text of a number between two words, if there is one. -/
def part (before behind : String) : Option Nat → List Char
  | some n => before.toList ++ ((toString n).toList ++ behind.toList)
  | none => []

/-- A number between its words is taken, unless a further digit follows on it; if there is none, the
text behind must not look like one. -/
theorem takeNumber_part (before behind : String) (x : Option Nat) (cs : List Char)
    (hd : Marks.startsWithDigit (behind.toList ++ cs) = false)
    (hx : x = none → cs.dropPrefix? before.toList = none) :
    takeNumber before behind (part before behind x ++ cs) = (x, cs) := by
  cases x with
  | none => rw [part, List.nil_append, takeNumber, hx rfl]
  -- behind the digits stands the closing word or `cs`, and neither begins with a digit
  | some n =>
    obtain ⟨digit, digits, hn, hv⟩ := exists_toString n
    rw [part, List.append_assoc, List.append_assoc, takeNumber,
      List.dropPrefix?_append_of_beq _ (beq_self_eq_true _)]
    simp only [dropWhile_toString hd, takeWhile_toString hd,
      List.dropPrefix?_append_of_beq _ (beq_self_eq_true _)]
    simp only [hn, hv]

/-! ### Windows -/

theorem toList_text_limitOffset (w : Window) :
    (limitOffset.text w).toList =
      part " LIMIT " "" (w.limit.map UInt64.toNat) ++
        part " OFFSET " "" (w.offset.map UInt64.toNat) := by
  obtain ⟨limit, offset⟩ := w
  cases limit <;> cases offset <;> simp [text, part]

/-- Rows are not fetched without telling how many are passed over. -/
theorem toList_text_offsetFetch (w : Window) :
    (offsetFetch.text w).toList =
      part " OFFSET " " ROWS"
          (if w.limit.isSome then some w.extent.offset else w.offset.map UInt64.toNat) ++
        part " FETCH NEXT " " ROWS ONLY" (w.limit.map UInt64.toNat) := by
  obtain ⟨limit, offset⟩ := w
  cases limit <;> cases offset <;> simp [text, part, Window.extent]

/-- **What is read from the text of a window is the window.** -/
theorem read?_text (p : Pagination) (w : Window) : p.read? (p.text w) = some w.extent := by
  cases p with
  | limitOffset =>
    -- the limit is read first and leaves the part with the offset
    have hl := takeNumber_part " LIMIT " "" (w.limit.map UInt64.toNat)
      (part " OFFSET " "" (w.offset.map UInt64.toNat))
      (by cases w.offset <;> rfl) (by cases w.offset <;> exact fun _ => rfl)
    have ho := takeNumber_part " OFFSET " "" (w.offset.map UInt64.toNat) [] rfl fun _ => rfl
    rw [List.append_nil] at ho
    simp only [read?, toList_text_limitOffset, hl, ho]
    rfl
  | offsetFetch =>
    have ho := takeNumber_part " OFFSET " " ROWS"
      (if w.limit.isSome then some w.extent.offset else w.offset.map UInt64.toNat)
      (part " FETCH NEXT " " ROWS ONLY" (w.limit.map UInt64.toNat)) rfl
      (by cases w.limit <;> exact fun _ => rfl)
    have hl := takeNumber_part " FETCH NEXT " " ROWS ONLY" (w.limit.map UInt64.toNat) [] rfl
      fun _ => rfl
    rw [List.append_nil] at hl
    simp only [read?, toList_text_offsetFetch, ho, hl]
    cases h : w.limit <;> simp [Window.extent, h]

end Pagination

end QueryTree
