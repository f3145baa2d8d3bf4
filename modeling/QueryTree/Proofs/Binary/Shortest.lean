import QueryTree.Proofs.Binary.Rounding

/-!
# The fewest digits read back

A finite number is written as a decimal of its interval: the grids of ever smaller powers of ten are
tried until one meets the interval, and the last one holds the number itself.  So whatever decimal
has the same value as the written one is read as the number that was written.

* `Decimal.value` — the value of a decimal.
* `Decimal.Interval.holds_of_onGrid`, `Decimal.Interval.exists_onGrid` — what is found on a grid is
  in the interval, and something is found where the number itself is a point.
* `Decimal.holds_shortest` — the written decimal is in the interval.
* `Decimal.toBinary_of_value_eq` — what has its value is read as the number.
-/

namespace QueryTree

namespace Decimal

variable {f : Binary.Format}

/-! ### Values -/

/-- The value of a decimal. -/
def value (d : Decimal) : ℚ := d.digits * 10 ^ d.exponent

theorem ten_zpow_pos (k : Int) : (0 : ℚ) < 10 ^ k := zpow_pos (by norm_num) k

theorem den_ne_zero (d : Decimal) : d.den ≠ 0 := pow_ne_zero _ (by norm_num)

theorem value_eq_div (d : Decimal) : d.value = d.num / d.den := by
  rw [value, zpow_eq_div (by norm_num), num, den]
  push_cast [Nat.pow_eq]
  rw [mul_div_assoc]

/-- Moving zeros from the digits to the exponent keeps the value. -/
theorem value_stripZeros (digits : Nat) (exponent : Int) :
    (stripZeros digits exponent).value = (⟨digits, exponent⟩ : Decimal).value := by
  fun_induction stripZeros digits exponent with
  | case1 digits exponent h ih =>
    have hdigits : (digits : ℚ) = (digits / 10 : Nat) * 10 := by
      exact_mod_cast (Nat.div_mul_cancel (Nat.dvd_of_mod_eq_zero h.2)).symm
    rw [ih, value, value, hdigits, zpow_add_one₀ (by norm_num)]
    ring
  | case2 digits exponent h => rfl

/-- The value of a decimal other than zero, by the number of its digits. -/
theorem value_bounds {d : Decimal} (h : d.digits ≠ 0) :
    (10 : ℚ) ^ ((digitCount d.digits : Int) - 1 + d.exponent) ≤ d.value ∧
      d.value < 10 ^ ((digitCount d.digits : Int) + d.exponent) := by
  have h10 : (10 : ℚ) ≠ 0 := by norm_num
  have hpos : 0 < digitCount d.digits := Nat.length_toDigits_pos
  have hlow : 10 ^ (digitCount d.digits - 1) ≤ d.digits := by
    refine Nat.le_of_not_lt fun hlt => ?_
    rcases Nat.eq_zero_or_pos (digitCount d.digits - 1) with h0 | h0
    · rw [h0] at hlt
      omega
    · have := (Nat.length_toDigits_le_iff (by decide) h0).2 hlt
      rw [← digitCount] at this
      omega
  have hhigh : d.digits < 10 ^ digitCount d.digits :=
    (Nat.length_toDigits_le_iff (by decide) hpos).1 (Nat.le_refl _)
  rw [zpow_add₀ h10, zpow_add₀ h10, value]
  refine ⟨mul_le_mul_of_nonneg_right ?_ (ten_zpow_pos _).le,
    mul_lt_mul_of_pos_right ?_ (ten_zpow_pos _)⟩
  · rw [← Nat.cast_pred hpos, zpow_natCast]
    exact_mod_cast hlow
  · rw [zpow_natCast]
    exact_mod_cast hhigh

/-! ### Grids -/

namespace Interval

variable {i : Interval} {tie : Tie} {k : Int}

/-- A bound of the interval and a point of a grid as fractions with one denominator. -/
theorem bound_eq_div (s k : Int) (l : Nat) :
    (l : ℚ) * 2 ^ s = ((l * (Nat.pow 2 s.toNat * Nat.pow 10 (-k).toNat) : Nat) : ℚ) /
      (2 ^ (-s).toNat * 10 ^ (-k).toNat) := by
  rw [zpow_eq_div (by norm_num) s]
  push_cast [Nat.pow_eq]
  rw [← mul_assoc, mul_div_mul_right _ _ (pow_ne_zero _ (by norm_num)), mul_div_assoc]

theorem point_eq_div (s k : Int) (a : Nat) :
    (a : ℚ) * 10 ^ k = ((a * (Nat.pow 2 (-s).toNat * Nat.pow 10 k.toNat) : Nat) : ℚ) /
      (2 ^ (-s).toNat * 10 ^ (-k).toNat) := by
  rw [zpow_eq_div (by norm_num) k]
  push_cast [Nat.pow_eq]
  rw [mul_left_comm, mul_div_mul_left _ _ (pow_ne_zero _ (by norm_num)), mul_div_assoc]

/-- Whether a point of a grid is in the interval, by the comparisons that the search makes. -/
def meets (i : Interval) (k : Int) (a : Nat) : Bool :=
  let up := Nat.pow 2 i.scale.toNat * Nat.pow 10 (-k).toNat
  let down := Nat.pow 2 (-i.scale).toNat * Nat.pow 10 k.toNat
  if i.closed then i.low * up ≤ a * down && a * down ≤ i.high * up
  else i.low * up < a * down && a * down < i.high * up

/-- The point of a grid next below the number, or the number itself. -/
def floorOn (i : Interval) (k : Int) : Nat :=
  i.mid * (Nat.pow 2 i.scale.toNat * Nat.pow 10 (-k).toNat) /
    (Nat.pow 2 (-i.scale).toNat * Nat.pow 10 k.toNat)

theorem meets_iff (i : Interval) (k : Int) (a : Nat) :
    i.meets k a = true ↔ i.Holds (a * 10 ^ k) := by
  have hc : (0 : ℚ) < 2 ^ (-i.scale).toNat * 10 ^ (-k).toNat := by positivity
  rw [Holds, bound_eq_div i.scale k, bound_eq_div i.scale k, point_eq_div i.scale]
  simp only [div_le_div_iff_of_pos_right hc, div_lt_div_iff_of_pos_right hc, Nat.cast_le,
    Nat.cast_lt, meets]
  split <;> simp

/-- A search of a grid finds the point below the number or the one above it, if that is in the
interval, and finds one of them if one is. -/
theorem onGrid?_cases (i : Interval) (tie : Tie) (k : Int) :
    (∃ a, i.onGrid? tie k = some a ∧ i.meets k a = true) ∨
      i.onGrid? tie k = none ∧ i.meets k (i.floorOn k) = false := by
  unfold onGrid?
  simp only
  split
  · -- both neighbours are in the interval: the nearer one is taken, and at a tie the rule decides
    next h0 h1 =>
    refine .inl ?_
    split
    · exact ⟨_, rfl, h0⟩
    · split
      · exact ⟨_, rfl, h1⟩
      · split
        · exact ⟨_, rfl, h1⟩
        · split
          · exact ⟨_, rfl, h0⟩
          · exact ⟨_, rfl, h1⟩
  · next h0 _ => exact .inl ⟨_, rfl, h0⟩
  · next _ h1 => exact .inl ⟨_, rfl, h1⟩
  · next h0 _ => exact .inr ⟨rfl, h0⟩

/-- What is found on a grid is in the interval. -/
theorem holds_of_onGrid {a : Nat} (h : i.onGrid? tie k = some a) : i.Holds (a * 10 ^ k) := by
  rcases i.onGrid?_cases tie k with ⟨b, hb, hmeets⟩ | ⟨hn, -⟩
  · rw [hb] at h
    cases h
    exact (i.meets_iff k a).1 hmeets
  · rw [hn] at h
    cases h

/-- A grid that holds the number itself is met. -/
theorem exists_onGrid (hlow : i.low < i.mid) (hhigh : i.mid < i.high) {a : Nat}
    (ha : (i.mid : ℚ) * 2 ^ i.scale = a * 10 ^ k) (tie : Tie) :
    ∃ b, i.onGrid? tie k = some b := by
  have hw := two_zpow_pos i.scale
  have hholds : i.Holds (a * 10 ^ k) := by
    have hl : (i.low : ℚ) * 2 ^ i.scale < i.mid * 2 ^ i.scale :=
      mul_lt_mul_of_pos_right (by exact_mod_cast hlow) hw
    have hh : (i.mid : ℚ) * 2 ^ i.scale < i.high * 2 ^ i.scale :=
      mul_lt_mul_of_pos_right (by exact_mod_cast hhigh) hw
    rw [← ha, Holds]
    split
    · exact ⟨hl.le, hh.le⟩
    · exact ⟨hl, hh⟩
  have hdown : 0 < Nat.pow 2 (-i.scale).toNat * Nat.pow 10 k.toNat :=
    Nat.mul_pos (Nat.pow_pos (by decide)) (Nat.pow_pos (by decide))
  -- the number is itself a point of the grid, so nothing is cut off
  have hdiv : i.floorOn k = a := by
    have hc : (0 : ℚ) < 2 ^ (-i.scale).toNat * 10 ^ (-k).toNat := by positivity
    rw [bound_eq_div i.scale k, point_eq_div i.scale k, div_left_inj' hc.ne', Nat.cast_inj] at ha
    rw [floorOn, ha, Nat.mul_div_cancel _ hdown]
  rcases i.onGrid?_cases tie k with ⟨b, hb, -⟩ | ⟨-, hnot⟩
  · exact ⟨b, hb⟩
  · rw [hdiv, (i.meets_iff k a).2 hholds] at hnot
    cases hnot

/-- The search ends on a grid that is met if the last one is. -/
theorem firstGrid_of_last {steps : Nat} {b : Nat} (h : i.onGrid? tie (k - steps) = some b) :
    i.Holds (i.firstGrid tie steps k).value := by
  induction steps generalizing k with
  | zero =>
    rw [Int.natCast_zero, Int.sub_zero] at h
    rw [firstGrid, h]
    exact holds_of_onGrid h
  -- a finer grid is searched only if this one has no point in the interval
  | succ steps ih =>
    rw [firstGrid]
    split
    · next a ha => exact holds_of_onGrid ha
    · refine ih ?_
      rwa [Int.sub_sub, Int.add_comm 1, ← Int.natCast_succ]

end Interval

/-! ### The written decimal -/

/-- The written decimal of a number other than zero is in its interval. -/
theorem holds_shortest {x : Binary.Finite f} (hm : x.significand ≠ 0) (tie : Tie) :
    (Interval.of x).Holds (shortest tie x).value := by
  rw [shortest, if_neg hm]
  simp only [value_stripZeros]
  generalize leadingExponent x.num x.den = k
  generalize hl : k - ((k - min x.exponent 0).toNat : Int) = l
  have hle : l ≤ x.exponent ∧ l ≤ 0 := by omega
  -- on this grid the number is a whole number of tens and fives
  have hpoint : ((Interval.of x).mid : ℚ) * 2 ^ (Interval.of x).scale =
      (x.significand * (2 ^ (x.exponent - l).toNat * 5 ^ (-l).toNat) : Nat) * 10 ^ l := by
    have hmid : (Interval.of x).mid = 4 * x.significand := rfl
    have hscale : (Interval.of x).scale = x.exponent - 2 := rfl
    have hten : (10 : ℚ) ^ l = 2 ^ l * 5 ^ l := by
      rw [← mul_zpow]
      norm_num
    have htwo : (2 : ℚ) ^ (x.exponent - l).toNat * 2 ^ l = 2 ^ x.exponent := by
      rw [← zpow_natCast, Int.toNat_of_nonneg (by omega), ← two_zpow_add, Int.sub_add_cancel]
    have hfive : (5 : ℚ) ^ (-l).toNat * 5 ^ l = 1 := by
      rw [← zpow_natCast, Int.toNat_of_nonneg (by omega), ← zpow_add₀ (by norm_num),
        Int.add_left_neg, zpow_zero]
    rw [hmid, hscale, hten, zpow_sub₀ (by norm_num), ← htwo]
    push_cast
    calc 4 * (x.significand : ℚ) * (2 ^ (x.exponent - l).toNat * 2 ^ l / 2 ^ (2 : Int))
        = x.significand * (2 ^ (x.exponent - l).toNat * 2 ^ l) * 1 := by ring
      _ = x.significand * (2 ^ (x.exponent - l).toNat * 5 ^ (-l).toNat) * (2 ^ l * 5 ^ l) := by
        rw [← hfive]
        ring
  have hlow : (Interval.of x).low < (Interval.of x).mid := by
    simp only [Interval.of]
    split <;> omega
  have hhigh : (Interval.of x).mid < (Interval.of x).high := Nat.lt_add_of_pos_right (by decide)
  obtain ⟨b, hb⟩ := Interval.exists_onGrid hlow hhigh hpoint tie
  exact Interval.firstGrid_of_last (hl ▸ hb)

/-! ### Reading back -/

/-- Eight and ten to one power, in the order of the sign of the exponent. -/
theorem eight_zpow_le {k : Int} (hk : 0 ≤ k) : (2 : ℚ) ^ (3 * k) ≤ 10 ^ k := by
  rw [zpow_mul]
  exact zpow_le_zpow_left₀ hk (by norm_num) (by norm_num)

theorem le_eight_zpow {k : Int} (hk : k ≤ 0) : (10 : ℚ) ^ k ≤ 2 ^ (3 * k) := by
  have h := eight_zpow_le (Int.neg_nonneg_of_nonpos hk)
  rw [Int.mul_neg, zpow_neg, zpow_neg] at h
  exact (inv_le_inv₀ (two_zpow_pos _) (ten_zpow_pos _)).1 h

/-- **A decimal in the interval of a number is read as the number.**  It is not so long, nor so
short, that the number of its digits alone settles what it is. -/
theorem toBinary_of_holds {x : Binary.Finite f} (hm : x.significand ≠ 0) {d : Decimal}
    (h : (Interval.of x).Holds d.value) (hmin : f.minExp ≤ 0) (hmax : 0 ≤ f.maxExp)
    (negative : Bool) : d.toBinary f negative = .finite { x with negative := negative } := by
  obtain ⟨hlow, hhigh, -, -⟩ := Interval.bounds_of_holds hm h
  have hw := two_zpow_pos x.exponent
  have hone : (1 : ℚ) ≤ x.significand := by exact_mod_cast Nat.pos_of_ne_zero hm
  have hbits : (x.significand : ℚ) + 1 ≤ 2 ^ f.precision := by exact_mod_cast x.canonical.1
  -- a binary lower and a binary upper bound of the decimal
  have hge : (2 : ℚ) ^ (x.exponent - 1) ≤ d.value := by
    have : (1 : ℚ) / 2 ≤ d.value / 2 ^ x.exponent := by linarith
    rw [le_div_iff₀ hw] at this
    rw [zpow_sub_one₀ (by norm_num)]
    linarith
  have hlt : d.value < 2 ^ ((f.precision : Int) + x.exponent) := by
    have : d.value / 2 ^ x.exponent < 2 ^ f.precision := by linarith
    rw [div_lt_iff₀ hw] at this
    rwa [two_zpow_add, zpow_natCast]
  have hdigits : d.digits ≠ 0 := by
    intro h0
    have hv : d.value = 0 := by rw [value, h0, Nat.cast_zero, zero_mul]
    rw [hv] at hge
    exact absurd hge (not_le.2 (two_zpow_pos _))
  obtain ⟨hdlow, hdhigh⟩ := value_bounds hdigits
  have hexpLow : f.minExp ≤ x.exponent := x.canonical.2.1
  have hexpHigh : x.exponent ≤ f.maxExp := x.canonical.2.2.1
  have h1 : (1 : ℚ) < 2 := by norm_num
  -- neither shortcut on the number of digits applies
  have hlong :
      ¬ f.maxExp + f.precision < 3 * ((digitCount d.digits : Int) - 1 + d.exponent) := by
    intro h3
    have hle := eight_zpow_le (k := (digitCount d.digits : Int) - 1 + d.exponent) (by omega)
    have := (zpow_lt_zpow_iff_right₀ h1).1 (lt_of_le_of_lt (le_trans hle hdlow) hlt)
    omega
  have hshort : ¬ 3 * ((digitCount d.digits : Int) + d.exponent) < f.minExp - 1 := by
    intro h3
    have hle := le_eight_zpow (k := (digitCount d.digits : Int) + d.exponent) (by omega)
    have := (zpow_lt_zpow_iff_right₀ h1).1 (lt_of_le_of_lt hge (lt_of_lt_of_le hdhigh hle))
    omega
  simp only [toBinary, if_neg hdigits, if_neg hlong, if_neg hshort]
  exact Binary.round_of_holds hm d.den_ne_zero (value_eq_div d ▸ h)

theorem toBinary_of_zero {x : Binary.Finite f} (hm : x.significand = 0) {d : Decimal}
    (h : d.digits = 0) (negative : Bool) :
    d.toBinary f negative = .finite { x with negative := negative } := by
  obtain ⟨hbits, hlow, hhigh, hcanonical⟩ := x.canonical
  -- zero has the least exponent, as a higher one needs a leading bit
  have hexp : x.exponent = f.minExp := by
    refine hcanonical.resolve_left fun hle => ?_
    rw [hm] at hle
    exact absurd (Nat.pow_pos (n := f.precision - 1) (Nat.zero_lt_two)) (Nat.not_lt.2 hle)
  rw [toBinary, if_pos h, Binary.round_eq (m := 0) (q := f.minExp) rfl ?_ ?_]
  · congr 2
    · exact hm.symm
    · exact hexp.symm
  · rw [Binary.unscale, Nat.zero_mul]
    have hd := Nat.mul_pos Nat.one_pos (Nat.pow_pos (n := f.minExp.toNat) Nat.zero_lt_two)
    exact Binary.nearest_eq hd (by omega) (by omega) (.inl rfl)
  · rw [← hm, ← hexp]
    exact x.canonical

/-- **A finite number is read back from the fewest digits,** and from every decimal of the same
value. -/
theorem toBinary_of_value_eq {x : Binary.Finite f} {tie : Tie} {d : Decimal}
    (h : d.value = (shortest tie x).value) (hmin : f.minExp ≤ 0) (hmax : 0 ≤ f.maxExp)
    (negative : Bool) : d.toBinary f negative = .finite { x with negative := negative } := by
  by_cases hm : x.significand = 0
  · refine toBinary_of_zero hm ?_ negative
    have hzero : d.value = 0 := by
      rw [h, shortest, if_pos hm, value, Nat.cast_zero, zero_mul]
    have := (mul_eq_zero.1 hzero).resolve_right (ten_zpow_pos _).ne'
    exact_mod_cast this
  · exact toBinary_of_holds hm (h ▸ holds_shortest hm tie) hmin hmax negative

end Decimal

end QueryTree
