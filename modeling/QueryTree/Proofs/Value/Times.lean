import Mathlib.Data.List.Lex
import Mathlib.Data.String.Basic
import QueryTree.Proofs.Value.Normalized

/-!
# Times as texts

A time reaches a statement as text, and is compared there as text.  The fields of the text have a
fixed width and stand in the order of their weight, so from the year 0 to the year 9999 the texts
compare as what is printed in them.  What is printed of a later time is never less, also where a leap
second is printed as the sixtieth.

* `DateTime.moment`, `DateTime.printed` — what orders times, and what is printed of them.
* `DateTime.padded_append_lt_iff` — numbers of one width compare as their digits.
* `DateTime.format_lt_iff` — texts compare as what is printed.
* `DateTime.lt_of_printed_lt` — what prints less is earlier.
* `Value.times_compare_as_texts` — comparing the texts never reorders times.
-/

namespace QueryTree

namespace DateTime

/-! ### Numbers of one width -/

theorem toList_padded (width n : Nat) :
    (padded width n).toList =
      List.replicate (width - (Nat.toDigits 10 n).length) '0' ++ Nat.toDigits 10 n := by
  simp [padded]

theorem toList_padded_one {n : Nat} (h : n < 10) : (padded 1 n).toList = [Nat.digitChar n] := by
  simp [toList_padded, Nat.toDigits_of_lt_base h]

/-- The last digit stands behind a number with one digit less. -/
theorem toList_padded_succ (width n : Nat) :
    (padded (width + 2) n).toList =
      (padded (width + 1) (n / 10)).toList ++ [Nat.digitChar (n % 10)] := by
  rw [toList_padded, toList_padded]
  by_cases h : n < 10
  · have hz : n / 10 = 0 := Nat.div_eq_of_lt h
    rw [hz, Nat.mod_eq_of_lt h, Nat.toDigits_of_lt_base h, Nat.toDigits_zero]
    simp [List.replicate_succ']
  · rw [Nat.toDigits_of_base_le (by decide) (Nat.le_of_not_lt h)]
    simp

theorem digitChar_cons_lt_iff {m n : Nat} (hm : m < 10) (hn : n < 10) (us vs : List Char) :
    Nat.digitChar m :: us < Nat.digitChar n :: vs ↔ m < n ∨ m = n ∧ us < vs := by
  have hlt : Nat.digitChar m < Nat.digitChar n ↔
      (Nat.digitChar m).toNat < (Nat.digitChar n).toNat := Iff.rfl
  have heq : Nat.digitChar m = Nat.digitChar n ↔
      (Nat.digitChar m).toNat = (Nat.digitChar n).toNat := Char.toNat_inj.symm
  rw [List.cons_lt_cons_iff, hlt, heq, Nat.toNat_digitChar_of_lt_ten hm,
    Nat.toNat_digitChar_of_lt_ten hn, Nat.add_lt_add_iff_left, Nat.add_left_cancel_iff]

/-- Numbers of one width compare as their digits, and if they are equal what is behind them
decides. -/
theorem padded_append_lt_iff {width m n : Nat} (hm : m < 10 ^ (width + 1))
    (hn : n < 10 ^ (width + 1)) (us vs : List Char) :
    (padded (width + 1) m).toList ++ us < (padded (width + 1) n).toList ++ vs ↔
      m < n ∨ m = n ∧ us < vs := by
  induction width generalizing m n us vs with
  | zero =>
    rw [toList_padded_one hm, toList_padded_one hn]
    exact digitChar_cons_lt_iff hm hn us vs
  | succ width ih =>
    rw [Nat.pow_succ] at hm hn
    -- the digits in front are compared by the induction, and the last one decides between equals
    have hm' : m / 10 < 10 ^ (width + 1) := by omega
    have hn' : n / 10 < 10 ^ (width + 1) := by omega
    have hdigit := digitChar_cons_lt_iff (Nat.mod_lt m (by decide)) (Nat.mod_lt n (by decide)) us vs
    rw [toList_padded_succ, toList_padded_succ, List.append_assoc, List.append_assoc, ih hm' hn',
      List.singleton_append, List.singleton_append, hdigit]
    by_cases h : us < vs
    · simp only [h, and_true]
      omega
    · simp only [h, and_false, or_false]
      omega

/-! ### The order of times -/

/-- What orders times: the day, the second of the day, and the fraction of the second.  A leap second
is a fraction, so it lies behind its second and in front of the next one. -/
def moment (t : DateTime) : List ℤ :=
  [t.date.year, t.date.month, t.date.day, t.clock.secondOfDay, t.clock.nanosecond]

instance : LT DateTime := ⟨fun t u => t.moment < u.moment⟩

/-- One of two times is in front of the other, or they are the same. -/
instance : LE DateTime := ⟨fun t u => ¬u < t⟩

instance : DecidableLT DateTime := fun t u => inferInstanceAs (Decidable (t.moment < u.moment))

instance : DecidableLE DateTime := fun t u => inferInstanceAs (Decidable ¬u < t)

/-- What is printed of a time, from the year to the second. -/
def printed (t : DateTime) : List ℤ :=
  [t.date.year, t.date.month, t.date.day, t.clock.hour, t.clock.minute, t.clock.printedSecond]

/-- The years that are printed with four digits and no sign. -/
def IsCommon (t : DateTime) : Prop := 0 ≤ t.date.year ∧ t.date.year ≤ 9999

variable {t u : DateTime}

/-- What prints less is earlier: a leap second prints a second that is over before the next minute,
or none at all. -/
theorem lt_of_printed_lt (h : t.printed < u.printed) : t < u := by
  have := t.clock.minute_lt
  have := t.clock.second_lt
  have := u.clock.minute_lt
  have := u.clock.second_lt
  have hgoal : t.moment < u.moment := by
    simp only [printed, Clock.printedSecond, List.cons_lt_cons_iff, List.not_lt_nil, and_false,
      or_false] at h
    simp only [moment, Clock.secondOfDay, List.cons_lt_cons_iff, List.not_lt_nil, and_false,
      or_false]
    -- whether a second is a leap second shows in its nanoseconds only
    split_ifs at h <;> omega
  exact hgoal

/-! ### The order of texts -/

theorem toList_format (h : t.IsCommon) :
    t.format.toList =
      (padded 4 t.date.year.natAbs).toList ++ '-' :: ((padded 2 t.date.month).toList ++
        '-' :: ((padded 2 t.date.day).toList ++ ' ' :: ((padded 2 t.clock.hour).toList ++
          ':' :: ((padded 2 t.clock.minute).toList ++
            ':' :: ((padded 2 t.clock.printedSecond).toList ++ []))))) := by
  have hy : yearText t.date.year = padded 4 t.date.year.natAbs := if_pos h
  simp [format, hy]

/-- One field of two digits, with the same separator behind it. -/
theorem padded_two_cons_lt_iff {m n : Nat} (hm : m < 100) (hn : n < 100) (c : Char)
    (us vs : List Char) :
    (padded 2 m).toList ++ c :: us < (padded 2 n).toList ++ c :: vs ↔ m < n ∨ m = n ∧ us < vs := by
  rw [padded_append_lt_iff hm hn]
  simp

/-- From the year 0 to the year 9999 texts compare as what is printed in them. -/
theorem format_lt_iff (ht : t.IsCommon) (hu : u.IsCommon) :
    t.format < u.format ↔ t.printed < u.printed := by
  have hyear {v : DateTime} (h : v.IsCommon) : v.date.year.natAbs < 10 ^ 4 := by
    unfold IsCommon at h
    omega
  have hmonth (d : Date) : d.month < 100 := Nat.lt_of_le_of_lt d.month_le (by decide)
  have hday (d : Date) : d.day < 100 :=
    Nat.lt_of_le_of_lt (Nat.le_trans d.day_le daysInMonth_le) (by decide)
  have hhour (c : Clock) : c.hour < 100 := Nat.lt_trans c.hour_lt (by decide)
  have hminute (c : Clock) : c.minute < 100 := Nat.lt_trans c.minute_lt (by decide)
  have hsecond (c : Clock) : c.printedSecond < 10 ^ 2 :=
    Nat.lt_of_le_of_lt c.printedSecond_le (by decide)
  rw [String.lt_iff_toList_lt, toList_format ht, toList_format hu,
    padded_append_lt_iff (hyear ht) (hyear hu)]
  simp only [List.cons_lt_cons_iff, Char.lt_irrefl, true_and, false_or,
    padded_two_cons_lt_iff (hmonth t.date) (hmonth u.date),
    padded_two_cons_lt_iff (hday t.date) (hday u.date),
    padded_two_cons_lt_iff (hhour t.clock) (hhour u.clock),
    padded_two_cons_lt_iff (hminute t.clock) (hminute u.clock),
    padded_append_lt_iff (hsecond t.clock) (hsecond u.clock), printed, List.not_lt_nil, and_false,
    or_false]
  -- What is left are six fields on both sides, the year once without its sign.
  unfold IsCommon at ht hu
  omega

/-- Texts are equal just if what is printed in them is. -/
theorem format_eq_iff (ht : t.IsCommon) (hu : u.IsCommon) :
    t.format = u.format ↔ t.printed = u.printed := by
  have hlt := format_lt_iff ht hu
  have hgt := format_lt_iff hu ht
  constructor
  · intro h
    rw [h] at hlt hgt
    exact le_antisymm (not_lt.1 fun hp => lt_irrefl _ (hgt.2 hp))
      (not_lt.1 fun hp => lt_irrefl _ (hlt.2 hp))
  · intro h
    rw [h] at hlt hgt
    exact le_antisymm (not_lt.1 fun hf => lt_irrefl _ (hgt.1 hf))
      (not_lt.1 fun hf => lt_irrefl _ (hlt.1 hf))

end DateTime

namespace Value

/-- What a value comes to in a comparison, in a set of its own, and in an assignment is one text. -/
def BecomesText (v : Value) (s : String) : Prop :=
  v.asScalar = .present (text s) ∧ v.asMembers = .present (list [text s]) ∧
    v.asAssignment = .present (text s)

theorem becomesText_time (t : DateTime) : (time t).BecomesText t.format := ⟨rfl, rfl, rfl⟩

/-- **Times compare as their texts do.**  From the year 0 to the year 9999 the text of a time is at
most the text of a later one, and the texts are equal just if what is printed is equal, down to the
second.  A text that is less is the text of an earlier time, so no comparison of texts puts two times
in the wrong order. -/
theorem times_compare_as_texts {t u : DateTime} (ht : t.IsCommon) (hu : u.IsCommon) :
    ∃ s r, (time t).BecomesText s ∧ (time u).BecomesText r ∧
      (t ≤ u → s ≤ r) ∧ (s = r ↔ t.printed = u.printed) ∧ (s < r → t < u) := by
  refine ⟨t.format, u.format, becomesText_time t, becomesText_time u, ?_,
    DateTime.format_eq_iff ht hu, ?_⟩
  · intro hle
    apply String.not_lt.1
    intro hlt
    exact hle (DateTime.lt_of_printed_lt ((DateTime.format_lt_iff hu ht).1 hlt))
  · intro hlt
    exact DateTime.lt_of_printed_lt ((DateTime.format_lt_iff ht hu).1 hlt)

/-- A leap second in the last minute of 2016 is in front of the year that follows. -/
theorem times_compare_as_texts_of_leap :
    let leap : DateTime := ⟨⟨2016, 12, 31, by decide, by decide, by decide, by decide⟩,
      ⟨23, 59, 59, 1500000000, by decide, by decide, by decide, by decide⟩⟩
    let next : DateTime := .midnight ⟨2017, 1, 1, by decide, by decide, by decide, by decide⟩
    leap.format = "2016-12-31 23:59:60" ∧
      ∃ s r, (time leap).BecomesText s ∧ (time next).BecomesText r ∧ s ≤ r := by
  intro leap next
  have hle : leap ≤ next := by decide
  obtain ⟨s, r, hs, hr, hmono, -⟩ := times_compare_as_texts (t := leap) (u := next)
    ⟨by decide, by decide⟩ ⟨by decide, by decide⟩
  exact ⟨by decide +kernel, s, r, hs, hr, hmono hle⟩

end Value

end QueryTree
