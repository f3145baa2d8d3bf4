import QueryTree.Sql.Mutation

/-!
# Plain texts

A text is plain if neither a question mark nor a dollar sign occurs in it.  Numbers and times are
written plainly, and so is a literal if all texts in it are plain.

* `Text.isPlain` — plain texts.
* `Value.isPlain`, `Value.isPlain_literal` — values whose texts are plain, and their literals.
-/

namespace QueryTree

/-! ### Characters and texts -/

/-- Neither a question mark nor a dollar sign. -/
def isPlainChar (c : Char) : Bool := c != '?' && c != '$'

/-- Neither a question mark nor a dollar sign occurs. -/
def Text.isPlain (s : String) : Bool := s.toList.all isPlainChar

theorem isPlainChar_of_isDigit {c : Char} (h : c.isDigit = true) : isPlainChar c = true := by
  rw [isPlainChar, Bool.and_eq_true, bne_iff_ne, bne_iff_ne]
  constructor <;>
  · rintro rfl
    cases h

namespace Text

@[simp] theorem isPlain_append (s t : String) : isPlain (s ++ t) = (isPlain s && isPlain t) := by
  rw [isPlain, String.toList_append, List.all_append]
  rfl

@[simp] theorem isPlain_ofList (cs : List Char) :
    isPlain (String.ofList cs) = cs.all isPlainChar := by
  rw [isPlain, String.toList_ofList]

theorem isPlain_intercalate {separator : String} {ss : List String}
    (hs : isPlain separator = true) (h : ss.all isPlain = true) :
    isPlain (separator.intercalate ss) = true := by
  induction ss with
  | nil => rfl
  | cons s ss ih =>
    rw [List.all_cons, Bool.and_eq_true] at h
    cases ss with
    | nil => simpa using h.1
    | cons t ss => simpa [String.intercalate_cons_cons, hs, h.1] using ih h.2

theorem not_mem_of_isPlain {s : String} (h : isPlain s = true) :
    '?' ∉ s.toList ∧ '$' ∉ s.toList := by
  rw [isPlain, List.all_eq_true] at h
  exact ⟨fun hc => absurd (h _ hc) (by decide), fun hc => absurd (h _ hc) (by decide)⟩

theorem all_doubleQuotes (p : Char → Bool) (cs : List Char) :
    (doubleQuotes cs).all p = cs.all p := by
  induction cs with
  | nil => rfl
  | cons c cs ih =>
    unfold doubleQuotes
    split
    · rw [List.all_cons, List.all_cons, List.all_cons, ih, ← Bool.and_assoc, Bool.and_self]
    · rw [List.all_cons, List.all_cons, ih]

theorem isPlain_quoted (s : String) : isPlain (quoted s) = isPlain s := by
  have hq : isPlainChar '\x27' = true := by decide
  simp [quoted, all_doubleQuotes, hq, isPlain]

end Text

/-! ### Numbers and times -/

theorem all_toDigits (n : Nat) : (Nat.toDigits 10 n).all isPlainChar = true :=
  List.all_eq_true.2 fun _ h =>
    isPlainChar_of_isDigit (Nat.isDigit_of_mem_toDigits (by decide) (by decide) h)

theorem isPlain_zeros (n : Nat) : (List.replicate n '0').all isPlainChar = true :=
  List.all_eq_true.2 fun _ h => List.eq_of_mem_replicate h ▸ rfl

namespace Text

theorem isPlain_toString_nat (n : Nat) : isPlain (toString n) = true := by
  have hr : (toString n).toList = Nat.toDigits 10 n := Nat.toList_repr
  rw [isPlain, hr, all_toDigits]

theorem isPlain_toString_int (n : Int) : isPlain (toString n) = true := by
  cases n with
  | ofNat n => exact isPlain_toString_nat n
  | negSucc n =>
    have hm : toString (Int.negSucc n) = "-" ++ toString (n + 1) := rfl
    rw [hm, isPlain_append, isPlain_toString_nat]
    rfl

end Text

theorem Decimal.isPlain_positional (d : Decimal) (pointZero : Bool) :
    Text.isPlain (d.positional pointZero) = true := by
  unfold positional
  split
  · have hz : Text.isPlain (if pointZero then ".0" else "") = true := by cases pointZero <;> rfl
    rw [Text.isPlain_append, Text.isPlain_ofList, List.all_append, all_toDigits, isPlain_zeros, hz]
    rfl
  · have hp : ∀ c ∈ List.replicate ((-d.exponent).toNat + 1 - (Nat.toDigits 10 d.digits).length)
        '0' ++ Nat.toDigits 10 d.digits, isPlainChar c = true := by
      rw [← List.all_eq_true, List.all_append, isPlain_zeros, all_toDigits]
      rfl
    simp only [Text.isPlain_ofList, List.all_append, List.all_cons, Bool.and_eq_true,
      List.all_eq_true]
    exact ⟨fun c hc => hp c (List.mem_of_mem_take hc), rfl,
      fun c hc => hp c (List.mem_of_mem_drop hc)⟩

theorem Binary.isPlain_plain {f : Binary.Format} (x : Binary f) : Text.isPlain x.plain = true := by
  cases x with
  | nan => exact (by rfl : Text.isPlain "NaN" = true)
  | infinity negative =>
    cases negative with
    | false => exact (by rfl : Text.isPlain "inf" = true)
    | true => exact (by rfl : Text.isPlain "-inf" = true)
  | finite x =>
    have hs : Text.isPlain (if x.negative then "-" else "") = true := by
      cases x.negative <;> rfl
    rw [plain, Finite.write, Text.isPlain_append, hs]
    exact Decimal.isPlain_positional _ false

namespace DateTime

theorem isPlain_padded (width n : Nat) : Text.isPlain (padded width n) = true := by
  rw [padded, Text.isPlain_ofList, List.all_append, isPlain_zeros, all_toDigits]
  rfl

theorem isPlain_yearText (year : Int) : Text.isPlain (yearText year) = true := by
  unfold yearText
  split
  · exact isPlain_padded _ _
  · have hs : Text.isPlain (if year < 0 then "-" else "+") = true := by split <;> rfl
    rw [Text.isPlain_append, hs, isPlain_padded]
    rfl

theorem isPlain_format (t : DateTime) : Text.isPlain t.format = true := by
  simp only [format, Text.isPlain_append, isPlain_yearText, isPlain_padded]
  rfl

end DateTime

/-! ### Literals -/

namespace Value

mutual

/-- The texts in a value are plain. -/
def isPlain : Value → Bool
  | text s => Text.isPlain s
  | list items => allPlain items
  | json j => Text.isPlain j.render
  | _ => true

/-- The texts in some values are plain. -/
def allPlain : List Value → Bool
  | [] => true
  | v :: vs => isPlain v && allPlain vs

end

mutual

/-- **The literal of a value is plain if the texts in the value are.** -/
theorem isPlain_literal (v : Value) (h : v.isPlain = true) : Text.isPlain v.literal = true := by
  cases v with
  | null => rfl
  | bool b => cases b <;> rfl
  | int n => exact Text.isPlain_toString_int _
  | uint n => exact Text.isPlain_toString_nat _
  | float x => exact x.isPlain_plain
  | text s => exact (Text.isPlain_quoted s).trans h
  | time t => exact (Text.isPlain_quoted t.format).trans t.isPlain_format
  | list items => exact Text.isPlain_intercalate rfl (all_isPlain_literals items h)
  | vector xs =>
    refine (Text.isPlain_quoted _).trans ?_
    have hx : Text.isPlain (",".intercalate (xs.map Binary.plain)) = true :=
      Text.isPlain_intercalate rfl (by simp [Binary.isPlain_plain])
    rw [vectorLiteral, Text.isPlain_append, Text.isPlain_append, hx]
    rfl
  | json j => exact (Text.isPlain_quoted j.render).trans h

theorem all_isPlain_literals (vs : List Value) (h : allPlain vs = true) :
    (literals vs).all Text.isPlain = true := by
  cases vs with
  | nil => rfl
  | cons v vs =>
    rw [allPlain, Bool.and_eq_true] at h
    rw [literals, List.all_cons, isPlain_literal v h.1, all_isPlain_literals vs h.2]
    rfl

end

end Value

end QueryTree
