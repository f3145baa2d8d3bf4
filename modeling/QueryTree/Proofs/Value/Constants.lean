import Mathlib.Data.List.TakeWhile
import QueryTree.Proofs.Binary.Shortest
import QueryTree.Proofs.Text.Words
import QueryTree.Proofs.Value.Normalized
import QueryTree.Sql.Condition

/-!
# Sets read back

The members of a set are no arguments: they are written into the text of a statement, one after the
other.  A reader that knows the constants of the query language, and nothing of how they came into
the text, finds as many constants as the set has members, in order, and each of them is the member.
What stands in a text can neither end its literal nor move a boundary between members.

* `Constant`, `Constant.read?` — constants, and how one is read.
* `Constant.split?`, `Constant.readList?` — how a list of them is read, up to its parenthesis.
* `Constant.Denotes` — which value a constant stands for.
* `Constant.readList?_literals`, `set_reads_back` — a set is read as its members.
-/

namespace QueryTree

/-- A constant as it is read in a statement. -/
inductive Constant where
  | text (s : String)
  | truth (b : Bool)
  /-- A numeral, its sign apart from its digits. -/
  | number (negative : Bool) (magnitude : Decimal)

namespace Constant

/-! ### One constant -/

/-- The characters of a string literal behind its opening quote.  A doubled quote stands for one,
and any other ends the literal. -/
def unquote? : List Char → Option (List Char)
  | [] => none
  | c :: cs =>
    if c = '\'' then
      match cs with
      | [] => some []
      | d :: ds => if d = '\'' then (unquote? ds).map (d :: ·) else none
    else (unquote? cs).map (c :: ·)

/-- An unsigned numeral: digits, perhaps with one point among them. -/
def numeral? (cs : List Char) : Option Decimal :=
  let whole := cs.takeWhile Char.isDigit
  if whole = [] then none
  else
    match cs.dropWhile Char.isDigit with
    | [] => some ⟨Nat.ofDigitChars 10 whole 0, 0⟩
    | c :: fraction =>
      if c = '.' ∧ fraction ≠ [] ∧ fraction.all Char.isDigit then
        some ⟨Nat.ofDigitChars 10 (whole ++ fraction) 0, -fraction.length⟩
      else none

/-- A truth value. -/
def truth? (cs : List Char) : Option Bool :=
  if cs.map Char.toUpper = ['T', 'R', 'U', 'E'] then some true
  else if cs.map Char.toUpper = ['F', 'A', 'L', 'S', 'E'] then some false
  else none

/-- The constant that some characters are. -/
def read? : List Char → Option Constant
  | [] => none
  | c :: cs =>
    if c = '\'' then (unquote? cs).map fun s => text (String.ofList s)
    else if c = '-' then (numeral? cs).map (number true)
    else ((numeral? (c :: cs)).map (number false)).or ((truth? (c :: cs)).map truth)

/-! ### Lists -/

/-- The members of a list as they are written, and what is behind its closing parenthesis. -/
structure Members where
  first : List Char
  others : List (List Char)
  behind : List Char

/-- The members with some characters in front. -/
def Members.prepend (cs : List Char) (m : Members) : Members := { m with first := cs ++ m.first }

/-- The members of a list up to its closing parenthesis.  Commas and parentheses count outside of
string literals; `quoted` tells whether one is open. -/
def split? (quoted : Bool) : List Char → Option Members
  | [] => none
  | c :: cs =>
    if c = '\'' then (split? (!quoted) cs).map (.prepend [c])
    else if quoted = false ∧ c = ',' then
      (split? false cs).map fun m => ⟨[], m.first :: m.others, m.behind⟩
    else if quoted = false ∧ c = ')' then some ⟨[], [], cs⟩
    else (split? quoted cs).map (.prepend [c])

/-- The constants of a list up to its closing parenthesis, and what is behind it. -/
def readList? (cs : List Char) : Option (List Constant × List Char) :=
  (split? false cs).bind fun m =>
    ((m.first :: m.others).mapM fun member => read? (Text.trimChars member)).map (·, m.behind)

/-! ### Values -/

/-- A decimal with its sign. -/
def signed (negative : Bool) (d : Decimal) : ℚ := if negative then -d.value else d.value

/-- The value that a constant stands for: a text, a truth value, the same whole number, or the
nearest number of 64 bits. -/
def Denotes : Constant → Value → Prop
  | text s, .text t => s = t
  | truth a, .bool b => a = b
  | number negative d, .int n => signed negative d = n.toInt
  | number negative d, .uint n => signed negative d = n.toNat
  | number negative d, .float x => d.toBinary .double negative = x
  | _, _ => False

/-! ### Texts -/

theorem unquote?_doubleQuotes (s : List Char) :
    unquote? (Text.doubleQuotes s ++ ['\'']) = some s := by
  induction s with
  | nil => rfl
  | cons c cs ih =>
    rw [Text.doubleQuotes]
    split
    · next hc =>
      simp only [List.cons_append, unquote?, if_pos hc, ih, Option.map_some]
    · next hc =>
      rw [List.cons_append, unquote?.eq_def]
      simp only [if_neg hc, ih, Option.map_some]

/-! ### Numerals -/

section

variable {whole fraction : List Char}

theorem takeWhile_isDigit (h : whole.all Char.isDigit = true) :
    whole.takeWhile Char.isDigit = whole :=
  List.takeWhile_eq_self_iff.2 (List.all_eq_true.1 h)

theorem numeral?_of_digits (hne : whole ≠ []) (h : whole.all Char.isDigit = true) :
    numeral? whole = some ⟨Nat.ofDigitChars 10 whole 0, 0⟩ := by
  have hdrop : whole.dropWhile Char.isDigit = [] :=
    List.dropWhile_eq_nil_iff.2 (List.all_eq_true.1 h)
  simp only [numeral?, takeWhile_isDigit h, if_neg hne, hdrop]

theorem numeral?_of_point (hw : whole ≠ []) (hwd : whole.all Char.isDigit = true)
    (hf : fraction ≠ []) (hfd : fraction.all Char.isDigit = true) :
    numeral? (whole ++ '.' :: fraction) =
      some ⟨Nat.ofDigitChars 10 (whole ++ fraction) 0, -fraction.length⟩ := by
  have htake : (whole ++ '.' :: fraction).takeWhile Char.isDigit = whole := by
    rw [List.takeWhile_append_of_pos (List.all_eq_true.1 hwd),
      List.takeWhile_cons_of_neg (by decide), List.append_nil]
  have hdrop : (whole ++ '.' :: fraction).dropWhile Char.isDigit = '.' :: fraction := by
    rw [List.dropWhile_append_of_pos (List.all_eq_true.1 hwd),
      List.dropWhile_cons_of_neg (by decide)]
  simp only [numeral?, htake, if_neg hw, hdrop]
  exact if_pos ⟨trivial, hf, hfd⟩

end

theorem all_isDigit_toDigits (n : Nat) : (Nat.toDigits 10 n).all Char.isDigit = true :=
  List.all_eq_true.2 fun _ => Nat.isDigit_of_mem_toDigits (by decide) (by decide)

theorem numeral?_toString (n : Nat) : numeral? (toString n).toList = some ⟨n, 0⟩ := by
  rw [Nat.toString_eq_repr, Nat.toList_repr,
    numeral?_of_digits Nat.toDigits_ne_nil (all_isDigit_toDigits n), Nat.ofDigitChars_ten_toDigits]

theorem all_isDigit_zeros (n : Nat) : (List.replicate n '0').all Char.isDigit = true := by
  rw [List.all_replicate]
  split <;> rfl

/-- A decimal without exponent part is read as a decimal of the same value. -/
theorem numeral?_positional (d : Decimal) :
    ∃ e, numeral? (d.positional false).toList = some e ∧ e.value = d.value := by
  have hds := all_isDigit_toDigits d.digits
  unfold Decimal.positional
  simp only
  split
  · next he =>
    have hne : Nat.toDigits 10 d.digits ++ List.replicate d.exponent.toNat '0' ≠ [] := fun h =>
      Nat.toDigits_ne_nil (List.append_eq_nil_iff.1 h).1
    refine ⟨⟨d.digits * 10 ^ d.exponent.toNat, 0⟩, ?_, ?_⟩
    · rw [if_neg Bool.false_ne_true, String.append_empty, String.toList_ofList,
        numeral?_of_digits hne (by rw [List.all_append, hds, all_isDigit_zeros]; rfl),
        Nat.ofDigitChars_append, Nat.ofDigitChars_ten_toDigits, Nat.ofDigitChars_replicate_zero,
        Nat.mul_comm]
    · rw [Decimal.value, Decimal.value, zpow_zero, mul_one]
      push_cast
      rw [← zpow_natCast, Int.toNat_of_nonneg he]
  · next he =>
    generalize hzeros : (-d.exponent).toNat + 1 - (Nat.toDigits 10 d.digits).length = zeros
    generalize hall : List.replicate zeros '0' ++ Nat.toDigits 10 d.digits = all
    have hdigits : all.all Char.isDigit = true := by
      rw [← hall, List.all_append, hds, all_isDigit_zeros]
      rfl
    have hvalue : Nat.ofDigitChars 10 all 0 = d.digits := by
      rw [← hall, Nat.ofDigitChars_append, Nat.ofDigitChars_replicate_zero, Nat.mul_zero,
        Nat.ofDigitChars_ten_toDigits]
    -- zeros in front make room for a digit before the point
    have hlength : (-d.exponent).toNat < all.length := by
      rw [← hall, List.length_append, List.length_replicate]
      omega
    refine ⟨d, ?_, rfl⟩
    rw [String.toList_ofList, numeral?_of_point, List.take_append_drop, hvalue]
    · rw [List.length_drop]
      congr
      omega
    · exact List.ne_nil_of_length_pos (by rw [List.length_take]; omega)
    · exact List.all_eq_true.2 fun c hc => List.all_eq_true.1 hdigits c (List.mem_of_mem_take hc)
    · exact List.ne_nil_of_length_pos (by rw [List.length_drop]; omega)
    · exact List.all_eq_true.2 fun c hc => List.all_eq_true.1 hdigits c (List.mem_of_mem_drop hc)

/-! ### How constants are written -/

/-- A character of a numeral or of a keyword. -/
def isWordChar (c : Char) : Bool := c.isDigit || "-.TRUEFALSE".toList.contains c

theorem isWordChar_of_isDigit {c : Char} (h : c.isDigit = true) : isWordChar c = true := by
  rw [isWordChar, h, Bool.true_or]

theorem all_isWordChar_numeral {cs : List Char} {d : Decimal} (h : numeral? cs = some d) :
    cs.all isWordChar = true := by
  have hwhole : (cs.takeWhile Char.isDigit).all isWordChar = true :=
    List.all_eq_true.2 fun _ hc => isWordChar_of_isDigit (List.mem_takeWhile_imp hc)
  -- behind the digits stands nothing, or a point and digits
  have hrest : (cs.dropWhile Char.isDigit).all isWordChar = true := by
    simp only [numeral?] at h
    split at h
    · cases h
    · split at h
      · next hd => rw [hd, List.all_nil]
      · next point fraction hd =>
        split at h
        · next hp =>
          rw [hd, List.all_cons, hp.1, Bool.and_eq_true]
          exact ⟨rfl, List.all_eq_true.2 fun c hc =>
            isWordChar_of_isDigit (List.all_eq_true.1 hp.2.2 c hc)⟩
        · cases h
  rw [← List.takeWhile_append_dropWhile (p := Char.isDigit) (l := cs), List.all_append, hwhole,
    hrest]
  rfl

/-- The ways in which constants are written. -/
inductive Written : Constant → List Char → Prop
  | text (s : String) : Written (.text s) (Text.quoted s).toList
  | truth (b : Bool) : Written (.truth b) (if b then "TRUE" else "FALSE").toList
  | positive {cs : List Char} {d : Decimal} (h : numeral? cs = some d) :
    Written (.number false d) cs
  | negative {cs : List Char} {d : Decimal} (h : numeral? cs = some d) :
    Written (.number true d) ('-' :: cs)

theorem written_integer (n : Int) :
    ∃ negative d, Written (number negative d) (toString n).toList ∧ signed negative d = n := by
  have hvalue (k : Nat) : (⟨k, 0⟩ : Decimal).value = k := by
    rw [Decimal.value, zpow_zero, mul_one]
  cases n with
  | ofNat k =>
    refine ⟨false, ⟨k, 0⟩, .positive (numeral?_toString k), ?_⟩
    rw [signed, if_neg Bool.false_ne_true, hvalue]
    rfl
  | negSucc k =>
    have htext : toString (Int.negSucc k) = "-" ++ toString (k + 1) := rfl
    refine ⟨true, ⟨k + 1, 0⟩, ?_, ?_⟩
    · rw [htext, String.toList_append]
      exact .negative (numeral?_toString (k + 1))
    · rw [signed, if_pos rfl, hvalue, Int.cast_negSucc]

/-- A finite number is written as a constant that is read as it. -/
theorem written_finite (x : Binary.Finite .double) :
    ∃ negative d, Written (number negative d) (Binary.finite x).plain.toList ∧
      d.toBinary .double negative = .finite x := by
  obtain ⟨d, hd, hvalue⟩ := numeral?_positional (Decimal.shortest .away x)
  have hread : d.toBinary .double x.negative = .finite x :=
    Decimal.toBinary_of_value_eq hvalue (by decide) (by decide) x.negative
  have htext : (Binary.finite x).plain =
      (if x.negative then "-" else "") ++ (Decimal.shortest .away x).positional false := rfl
  refine ⟨x.negative, d, ?_, hread⟩
  rw [htext, String.toList_append]
  cases x.negative with
  | false => exact .positive hd
  | true => exact .negative hd

/-- The literal of a scalar is a constant that stands for it. -/
theorem written_literal {v : Value} (h : v.IsScalar) :
    ∃ c, Written c v.literal.toList ∧ c.Denotes v := by
  cases h with
  | bool b => exact ⟨_, .truth b, rfl⟩
  | int n =>
    obtain ⟨negative, d, hw, hd⟩ := written_integer n.toInt
    exact ⟨_, hw, hd⟩
  | uint n =>
    obtain ⟨negative, d, hw, hd⟩ := written_integer n.toNat
    exact ⟨_, hw, hd.trans (Int.cast_natCast _)⟩
  | @float x hx =>
    cases x with
    | nan => cases hx
    | infinity negative => cases hx
    | finite x =>
      obtain ⟨negative, d, hw, hd⟩ := written_finite x
      exact ⟨_, hw, hd⟩
  | @text s hs => exact ⟨_, .text s, rfl⟩

theorem read?_numeral {cs : List Char} {d : Decimal} (h : numeral? cs = some d) :
    read? cs = some (number false d) := by
  cases cs with
  | nil => cases h
  | cons c cs =>
    -- a numeral begins with a digit, so neither with a quote nor with a sign
    have hdigit : c.isDigit = true := by
      by_contra hc
      rw [numeral?, List.takeWhile_cons_of_neg hc] at h
      cases h
    rw [read?, if_neg, if_neg, h]
    · rfl
    · rintro rfl
      cases hdigit
    · rintro rfl
      cases hdigit

/-- What is written is read. -/
theorem Written.read {c : Constant} {cs : List Char} (h : Written c cs) : read? cs = some c := by
  cases h with
  | text s =>
    rw [Text.quoted, String.toList_ofList, read?, if_pos rfl, unquote?_doubleQuotes,
      Option.map_some, String.ofList_toList]
  | truth b => cases b <;> rfl
  | positive h => exact read?_numeral h
  | negative h =>
    rw [read?, if_neg (by decide), if_pos rfl, h]
    rfl

/-- Apart from texts, constants are words. -/
theorem Written.quoted_or_word {c : Constant} {m : List Char} (h : Written c m) :
    (∃ s, m = (Text.quoted s).toList) ∨ m.all isWordChar = true := by
  cases h with
  | text s => exact .inl ⟨s, rfl⟩
  | truth b => exact .inr (by cases b <;> decide)
  | positive h => exact .inr (all_isWordChar_numeral h)
  | negative h =>
    rw [List.all_cons, all_isWordChar_numeral h]
    exact .inr rfl

/-! ### Boundaries -/

theorem map_prepend_prepend (a b : List Char) (m : Option Members) :
    (m.map (Members.prepend b)).map (Members.prepend a) = m.map (Members.prepend (a ++ b)) := by
  cases m with
  | none => rfl
  | some m => exact congrArg some (congrArg (Members.mk · m.others m.behind)
      (List.append_assoc a b m.first).symm)

theorem split?_word {m : List Char} (h : m.all isWordChar = true) (cs : List Char) :
    split? false (m ++ cs) = (split? false cs).map (.prepend m) := by
  induction m with
  | nil => exact (congrFun Option.map_id (split? false cs)).symm
  | cons c m ih =>
    rw [List.all_cons, Bool.and_eq_true] at h
    -- no character of a word is a boundary
    have ne_of {b : Char} (hb : isWordChar b = false) : c ≠ b := by
      rintro rfl
      rw [h.1] at hb
      cases hb
    have hquote := ne_of (b := '\'') (by decide)
    have hcomma := ne_of (b := ',') (by decide)
    have hclosing := ne_of (b := ')') (by decide)
    rw [List.cons_append, split?, if_neg hquote, if_neg fun h => hcomma h.2,
      if_neg fun h => hclosing h.2, ih h.2, map_prepend_prepend]
    rfl

theorem split?_doubleQuotes (s cs : List Char) :
    split? true (Text.doubleQuotes s ++ cs) =
      (split? true cs).map (.prepend (Text.doubleQuotes s)) := by
  induction s with
  | nil => exact (congrFun Option.map_id (split? true cs)).symm
  | cons c s ih =>
    rw [Text.doubleQuotes]
    split
    · next hc =>
      -- the first of the two quotes closes the literal, the second one opens it again
      rw [List.cons_append, List.cons_append, split?, if_pos hc, split?, if_pos hc, Bool.not_true,
        Bool.not_false, ih, map_prepend_prepend, map_prepend_prepend]
      rfl
    · next hc =>
      rw [List.cons_append, split?, if_neg hc, if_neg fun h => Bool.noConfusion h.1,
        if_neg fun h => Bool.noConfusion h.1, ih, map_prepend_prepend]
      rfl

theorem split?_quoted (s : String) (cs : List Char) :
    split? false ((Text.quoted s).toList ++ cs) =
      (split? false cs).map (.prepend (Text.quoted s).toList) := by
  rw [Text.quoted, String.toList_ofList, List.cons_append, split?, if_pos rfl, List.append_assoc,
    Bool.not_false, split?_doubleQuotes, List.singleton_append, split?, if_pos rfl, Bool.not_true,
    map_prepend_prepend, map_prepend_prepend]
  rfl

theorem Written.split {c : Constant} {m : List Char} (h : Written c m) (cs : List Char) :
    split? false (m ++ cs) = (split? false cs).map (.prepend m) := by
  rcases h.quoted_or_word with ⟨s, rfl⟩ | hw
  · exact split?_quoted s cs
  · exact split?_word hw cs

/-! ### White space -/

theorem isSpace_eq_false_of_isWordChar {c : Char} (h : isWordChar c = true) :
    Text.isSpace c = false := by
  rcases Bool.or_eq_true_iff.1 h with hd | hc
  · exact Text.isSpace_eq_false_of_isAlphanum (by rw [Char.isAlphanum, hd, Bool.or_true])
  · have hall : ("-.TRUEFALSE".toList.all fun c => !Text.isSpace c) = true := by decide
    have hspace := List.all_eq_true.1 hall c (List.contains_iff_mem.1 hc)
    rwa [Bool.not_eq_true'] at hspace

/-- A constant begins and ends with characters that are not white space. -/
theorem Written.trim {c : Constant} {m : List Char} (h : Written c m) : Text.trimChars m = m := by
  rcases h.quoted_or_word with ⟨s, rfl⟩ | hw
  · rw [Text.quoted, String.toList_ofList]
    refine Text.trimChars_of_ends (fun c hc => ?_) fun c hc => ?_
    · cases hc
      decide
    · rw [← List.cons_append, List.getLast?_concat] at hc
      cases hc
      decide
  · have hspace (c : Char) (hc : c ∈ m) : Text.isSpace c = false :=
      isSpace_eq_false_of_isWordChar (List.all_eq_true.1 hw c hc)
    exact Text.trimChars_of_ends (fun c hc => hspace c (List.mem_of_mem_head? hc))
      fun c hc => hspace c (List.mem_of_getLast? hc)

theorem Written.trim_blank {c : Constant} {m : List Char} (h : Written c m) :
    Text.trimChars (' ' :: m) = m := by
  have hdrop : (' ' :: m).dropWhile Text.isSpace = m.dropWhile Text.isSpace :=
    List.dropWhile_cons_of_pos (by decide)
  rw [Text.trimChars, hdrop]
  exact h.trim

/-! ### Sets -/

/-- **The members of a list are as many as its literals,** whatever is behind the list. -/
theorem split?_literals {v : Value} {vs : List Value} (h : ∀ w ∈ v :: vs, w.IsScalar)
    (behind : List Char) :
    split? false ((", ".intercalate ((v :: vs).map Value.literal)).toList ++ ')' :: behind) =
      some ⟨v.literal.toList, vs.map fun w => ' ' :: w.literal.toList, behind⟩ := by
  induction vs generalizing v with
  | nil =>
    obtain ⟨hv, -⟩ := List.forall_mem_cons.1 h
    obtain ⟨c, hc, -⟩ := written_literal hv
    have hend : split? false (')' :: behind) = some ⟨[], [], behind⟩ := by
      rw [split?, if_neg (by decide), if_neg (by decide), if_pos (by decide)]
    rw [List.map_singleton, String.intercalate_singleton, hc.split, hend]
    exact congrArg some (congrArg (Members.mk · [] behind) (List.append_nil _))
  | cons w vs ih =>
    obtain ⟨hv, hvs⟩ := List.forall_mem_cons.1 h
    obtain ⟨c, hc, -⟩ := written_literal hv
    rw [List.map_cons, List.map_cons, String.intercalate_cons_cons, ← List.map_cons,
      String.toList_append, String.toList_append, List.append_assoc, List.append_assoc, hc.split]
    -- the comma ends the member, and the blank behind it belongs to the next one
    have hcomma (cs : List Char) : split? false (", ".toList ++ cs) =
        (split? false cs).map fun m => ⟨[], (' ' :: m.first) :: m.others, m.behind⟩ := by
      show split? false (',' :: ' ' :: cs) = _
      rw [split?, if_neg (by decide), if_pos (by decide), split?, if_neg (by decide),
        if_neg (by decide), if_neg (by decide), Option.map_map]
      rfl
    rw [hcomma, ih hvs]
    exact congrArg some (congrArg (Members.mk · _ behind) (List.append_nil _))

theorem mapM_read?_literals {vs : List Value} (h : ∀ w ∈ vs, w.IsScalar) :
    ∃ cs, ((vs.map fun w => ' ' :: w.literal.toList).mapM
        fun member => read? (Text.trimChars member)) = some cs ∧ List.Forall₂ Denotes cs vs := by
  induction vs with
  | nil => exact ⟨[], rfl, .nil⟩
  | cons v vs ih =>
    obtain ⟨hv, hvs⟩ := List.forall_mem_cons.1 h
    obtain ⟨c, hc, hdenotes⟩ := written_literal hv
    obtain ⟨cs, hcs, hall⟩ := ih hvs
    refine ⟨c :: cs, ?_, .cons hdenotes hall⟩
    rw [List.map_cons, List.mapM_cons, hc.trim_blank, hc.read, hcs]
    rfl

/-- **A list of literals is read as its members,** whatever is behind it. -/
theorem readList?_literals {vs : List Value} (hne : vs ≠ []) (h : ∀ w ∈ vs, w.IsScalar) :
    ∃ cs, List.Forall₂ Denotes cs vs ∧ ∀ behind : List Char,
      readList? ((", ".intercalate (vs.map Value.literal)).toList ++ ')' :: behind) =
        some (cs, behind) := by
  obtain ⟨v, vs, rfl⟩ := List.exists_cons_of_ne_nil hne
  obtain ⟨hv, hvs⟩ := List.forall_mem_cons.1 h
  obtain ⟨c, hc, hdenotes⟩ := written_literal hv
  obtain ⟨cs, hcs, hall⟩ := mapM_read?_literals hvs
  refine ⟨c :: cs, .cons hdenotes hall, fun behind => ?_⟩
  rw [readList?, split?_literals h, Option.bind_some, List.mapM_cons, hc.trim, hc.read, hcs]
  rfl

end Constant

/-- **A set in a statement is read as its members.**  The set holds scalars, in the order in which
they were offered.  Its condition is the left-hand side, the operator and the literals between
parentheses; read by the rules of the query language, whatever follows, these are as many constants
as there are members, each standing for its member. -/
theorem set_reads_back {v w : Value} (h : v.asMembers = .present w) (d : Dialect) (m : Membership)
    (key : String) (p : Placeholder) (n : Numbering) :
    (w = .list v.members ∧ v.members ≠ [] ∧ ∀ member ∈ v.members, member.IsScalar) ∧
    (leafPieces d (.member m) key (some (.value w))).render p n =
      key ++ " " ++ (Op.member m).symbol ++ " (" ++ w.literal ++ ")" ∧
    ∃ cs, List.Forall₂ Constant.Denotes cs v.members ∧ ∀ behind : List Char,
      Constant.readList? (w.literal.toList ++ ')' :: behind) = some (cs, behind) := by
  obtain ⟨hw, hne⟩ := Value.eq_of_asMembers h
  -- what is kept of a set are scalars
  have hscalar : ∀ member ∈ v.members, member.IsScalar := by
    obtain ⟨kept, hkept, -, hall⟩ := Value.of_asMembers h
    rw [hw] at hkept
    cases hkept
    exact hall
  have hliteral : w.literal = ", ".intercalate (v.members.map Value.literal) := by
    rw [hw, Value.literal, Value.literals_eq_map]
  refine ⟨⟨hw, hne, hscalar⟩, String.append_empty, ?_⟩
  rw [hliteral]
  exact Constant.readList?_literals hne hscalar

/-- Quotes, commas and parentheses in a text are neither boundaries nor ends. -/
theorem set_reads_back_of_quotes :
    let set := Value.list [.text "it's', (1)", .int (-3), .bool true]
    set.asMembers = .present set ∧
      ∃ cs, List.Forall₂ Constant.Denotes cs set.members ∧
        Constant.readList? "'it''s'', (1)', -3, TRUE) OR b = ?".toList =
          some (cs, " OR b = ?".toList) := by
  intro set
  have h : set.asMembers = .present set := rfl
  have hliteral : set.literal.toList ++ ')' :: " OR b = ?".toList =
      "'it''s'', (1)', -3, TRUE) OR b = ?".toList := by
    decide +kernel
  obtain ⟨-, -, cs, hcs, hread⟩ := set_reads_back h .postgres .isIn "k" .dollar .start
  exact ⟨h, cs, hcs, hliteral ▸ hread " OR b = ?".toList⟩

end QueryTree
