import Mathlib.Algebra.Order.Field.Power
import Mathlib.Data.Int.Log
import Mathlib.Data.Rat.Floor
import Mathlib.Tactic.Linarith
import Mathlib.Tactic.NormNum
import Mathlib.Tactic.Positivity
import Mathlib.Tactic.Ring
import QueryTree.Binary.Decimal

/-!
# What rounds to a number

A quotient is rounded by dividing it by the power of two that leaves all bits of a significand in
front of the point.  The rationals that round to a finite number are those in its interval, which
reaches half-way to either neighbour; the ends belong to it if the significand is even.

* `Binary.nearest_eq_of_rat`, `Binary.exponentFor_eq_log` — the steps of a rounding.
* `Decimal.Interval.Holds` — the rationals in an interval.
* `Binary.round_of_holds` — they round to the number.
-/

namespace QueryTree

/-! ### Powers -/

/-- A power with a signed exponent as a quotient of powers. -/
theorem zpow_eq_div {a : ℚ} (ha : a ≠ 0) (q : Int) : a ^ q = a ^ q.toNat / a ^ (-q).toNat := by
  rw [eq_div_iff (pow_ne_zero _ ha), ← zpow_natCast, ← zpow_natCast, ← zpow_add₀ ha]
  congr 1
  omega

theorem two_zpow_pos (q : Int) : (0 : ℚ) < 2 ^ q := zpow_pos (by norm_num) q

theorem two_zpow_add (p q : Int) : (2 : ℚ) ^ (p + q) = 2 ^ p * 2 ^ q := zpow_add₀ (by norm_num) p q

namespace Binary

variable {f : Format}

/-! ### Steps of a rounding -/

/-- A quotient no further than one half from a whole number, and as far only from an even one. -/
theorem nearest_eq {n d m : Nat} (hd : 0 < d) (hlow : 2 * (m * d) ≤ 2 * n + d)
    (hhigh : 2 * n ≤ 2 * (m * d) + d)
    (htie : m % 2 = 0 ∨ 2 * (m * d) < 2 * n + d ∧ 2 * n < 2 * (m * d) + d) :
    nearest n d = m := by
  have hn : n / d * d + n % d = n := Nat.div_add_mod' n d
  have hrest : n % d < d := Nat.mod_lt n hd
  have hle : n / d ≤ m := by
    refine Nat.le_of_lt_succ ((Nat.div_lt_iff_lt_mul hd).2 ?_)
    rw [Nat.succ_mul]
    omega
  have hge : m ≤ n / d + 1 := by
    refine Nat.le_of_lt_succ (Nat.lt_of_mul_lt_mul_right (a := d) ?_)
    rw [Nat.succ_mul, Nat.succ_mul]
    omega
  -- only the quotient and its successor are near enough
  have hm : m = n / d ∨ m = n / d + 1 := by omega
  unfold nearest
  generalize n / d = low at *
  generalize n % d = rest at *
  rcases hm with rfl | rfl
  · grind
  · rw [Nat.succ_mul] at hlow hhigh htie
    grind

theorem nearest_eq_of_rat {n d m : Nat} (hd : 0 < d) (hlow : (m : ℚ) - 1 / 2 ≤ n / d)
    (hhigh : (n / d : ℚ) ≤ m + 1 / 2)
    (htie : m % 2 = 0 ∨ (m : ℚ) - 1 / 2 < n / d ∧ (n / d : ℚ) < m + 1 / 2) :
    nearest n d = m := by
  have hd' : (0 : ℚ) < d := by exact_mod_cast hd
  rw [le_div_iff₀ hd'] at hlow
  rw [div_le_iff₀ hd'] at hhigh
  rw [lt_div_iff₀ hd', div_lt_iff₀ hd'] at htie
  refine nearest_eq hd ?_ ?_ (htie.imp id fun h => ⟨?_, ?_⟩)
  · have : (2 * (m * d) : ℚ) ≤ 2 * n + d := by linarith
    exact_mod_cast this
  · have : (2 * n : ℚ) ≤ 2 * (m * d) + d := by linarith
    exact_mod_cast this
  · have : (2 * (m * d) : ℚ) < 2 * n + d := by linarith [h.1]
    exact_mod_cast this
  · have : (2 * n : ℚ) < 2 * (m * d) + d := by linarith [h.2]
    exact_mod_cast this

theorem unscale_den_pos (num : Nat) {den : Nat} (hd : 0 < den) (q : Int) :
    0 < (unscale num den q).2 := Nat.mul_pos hd (Nat.two_pow_pos _)

theorem unscale_value (num den : Nat) (q : Int) :
    ((unscale num den q).1 / (unscale num den q).2 : ℚ) = num / den / 2 ^ q := by
  rw [zpow_eq_div (by norm_num), unscale]
  push_cast [Nat.pow_eq]
  rw [div_div_div_eq]

/-- The bits in front of the point of a positive quotient, by the bits of its parts. -/
theorem log2_bounds {num den : Nat} (hn : num ≠ 0) (hd : den ≠ 0) :
    (2 : ℚ) ^ ((num.log2 : Int) - den.log2 - 1) < num / den ∧
      (num / den : ℚ) < 2 ^ ((num.log2 : Int) - den.log2 + 1) := by
  -- each part lies between two neighbouring powers of two
  have bounds {n : Nat} (h : n ≠ 0) :
      (2 : ℚ) ^ (n.log2 : Int) ≤ n ∧ (n : ℚ) < 2 ^ ((n.log2 : Int) + 1) := by
    rw [← Nat.cast_succ, zpow_natCast, zpow_natCast]
    exact ⟨by exact_mod_cast Nat.log2_self_le h, by exact_mod_cast Nat.lt_log2_self⟩
  have hd' : (0 : ℚ) < den := by exact_mod_cast Nat.pos_of_ne_zero hd
  constructor
  · rw [lt_div_iff₀ hd']
    calc (2 : ℚ) ^ ((num.log2 : Int) - den.log2 - 1) * den
        < 2 ^ ((num.log2 : Int) - den.log2 - 1) * 2 ^ ((den.log2 : Int) + 1) :=
          mul_lt_mul_of_pos_left (bounds hd).2 (two_zpow_pos _)
      _ = 2 ^ (num.log2 : Int) := by
          rw [← two_zpow_add]
          congr 1
          omega
      _ ≤ num := (bounds hn).1
  · rw [div_lt_iff₀ hd']
    calc (num : ℚ) < 2 ^ ((num.log2 : Int) + 1) := (bounds hn).2
      _ = 2 ^ ((num.log2 : Int) - den.log2 + 1) * 2 ^ (den.log2 : Int) := by
          rw [← two_zpow_add]
          congr 1
          omega
      _ ≤ 2 ^ ((num.log2 : Int) - den.log2 + 1) * den :=
          mul_le_mul_of_nonneg_left (bounds hd).1 (two_zpow_pos _).le

/-- The exponent at which a positive quotient has all bits of a significand in front of the
point. -/
theorem exponentFor_eq_log {num den : Nat} (hn : num ≠ 0) (hd : den ≠ 0) :
    exponentFor f num den = max f.minExp (Int.log 2 (num / den : ℚ) + 1 - f.precision) := by
  have hpos : (0 : ℚ) < num / den :=
    div_pos (by exact_mod_cast Nat.pos_of_ne_zero hn) (by exact_mod_cast Nat.pos_of_ne_zero hd)
  obtain ⟨hl, hu⟩ := log2_bounds hn hd
  have hlog1 : (num.log2 : Int) - den.log2 - 1 ≤ Int.log 2 (num / den : ℚ) :=
    (Int.zpow_le_iff_le_log (by decide) hpos).1 (by exact_mod_cast hl.le)
  have hlog2 : Int.log 2 (num / den : ℚ) < (num.log2 : Int) - den.log2 + 1 :=
    (Int.lt_zpow_iff_log_lt (by decide) hpos).1 (by exact_mod_cast hu)
  rw [exponentFor, if_neg hn]
  simp only
  generalize hq : (num.log2 : Int) - den.log2 - f.precision = q
  have hd0 := unscale_den_pos num (Nat.pos_of_ne_zero hd) q
  -- the whole part has all bits, or one bit too many
  have hbits : Nat.pow 2 f.precision ≤ (unscale num den q).1 / (unscale num den q).2 ↔
      (f.precision : Int) + q ≤ Int.log 2 (num / den : ℚ) := by
    have hcast : (((2 : Nat) : ℚ) ^ ((f.precision : Int) + q)) = 2 ^ f.precision * 2 ^ q := by
      rw [Nat.cast_two, two_zpow_add, zpow_natCast]
    rw [← Int.zpow_le_iff_le_log (by decide) hpos, hcast, ← le_div_iff₀ (two_zpow_pos q),
      ← unscale_value, le_div_iff₀ (by exact_mod_cast hd0), Nat.le_div_iff_mul_le hd0, Nat.pow_eq]
    norm_cast
  congr 1
  split
  · next h =>
    have := hbits.1 h
    omega
  · next h =>
    have := fun hle => h (hbits.2 hle)
    omega

theorem round_eq {negative : Bool} {num den m : Nat} {q : Int}
    (hq : exponentFor f num den = q)
    (hm : nearest (unscale num den q).1 (unscale num den q).2 = m) (hc : f.Canonical m q) :
    round f negative num den = finite ⟨negative, m, q, hc⟩ := by
  have hne : m ≠ Nat.pow 2 f.precision := Nat.ne_of_lt hc.1
  simp only [round, hq, hm, if_neg hne, dif_pos hc]

theorem round_eq_of_carry {negative : Bool} {num den : Nat} {q : Int}
    (hq : exponentFor f num den = q)
    (hm : nearest (unscale num den q).1 (unscale num den q).2 = Nat.pow 2 f.precision)
    (hc : f.Canonical (Nat.pow 2 (f.precision - 1)) (q + 1)) :
    round f negative num den = finite ⟨negative, Nat.pow 2 (f.precision - 1), q + 1, hc⟩ := by
  simp only [round, hq, hm, if_true, dif_pos hc]

end Binary

/-! ### Intervals -/

namespace Decimal.Interval

variable {f : Binary.Format}

/-- The rationals in an interval. -/
def Holds (i : Interval) (r : ℚ) : Prop :=
  if i.closed then i.low * 2 ^ i.scale ≤ r ∧ r ≤ i.high * 2 ^ i.scale
  else i.low * 2 ^ i.scale < r ∧ r < i.high * 2 ^ i.scale

/-- The interval of a number in units of its last bit.  It is narrower below a power of two. -/
theorem bounds_of_holds {x : Binary.Finite f} (hm : x.significand ≠ 0) {r : ℚ}
    (h : (of x).Holds r) :
    (x.significand : ℚ) - 1 / 2 ≤ r / 2 ^ x.exponent ∧
      r / 2 ^ x.exponent ≤ x.significand + 1 / 2 ∧
      (x.significand % 2 = 0 ∨ (x.significand : ℚ) - 1 / 2 < r / 2 ^ x.exponent ∧
        r / 2 ^ x.exponent < x.significand + 1 / 2) ∧
      (x.significand = Nat.pow 2 (f.precision - 1) → x.exponent ≠ f.minExp →
        (x.significand : ℚ) - 1 / 4 ≤ r / 2 ^ x.exponent) := by
  have hw := two_zpow_pos x.exponent
  obtain ⟨u, rfl⟩ : ∃ u, r = u * 2 ^ x.exponent := ⟨_, (div_mul_cancel₀ r hw.ne').symm⟩
  rw [mul_div_cancel_right₀ _ hw.ne']
  -- the interval counts in quarters of the last bit
  have hscale (n : Nat) : (n : ℚ) * 2 ^ (x.exponent - 2) = n / 4 * 2 ^ x.exponent := by
    rw [zpow_sub₀ (by norm_num)]
    ring
  have hhigh : (((of x).high : Nat) : ℚ) = 4 * x.significand + 2 := by
    rw [of]
    push_cast
    rfl
  have hlow : (((of x).low : Nat) : ℚ) = 4 * x.significand -
      (if x.significand = Nat.pow 2 (f.precision - 1) ∧ x.exponent ≠ f.minExp then 1 else 2) := by
    simp only [of]
    rw [Nat.cast_sub (by split <;> omega)]
    push_cast
    rfl
  have hbounds : ((of x).low : ℚ) / 4 ≤ u ∧ u ≤ ((of x).high : ℚ) / 4 ∧
      (x.significand % 2 = 0 ∨ ((of x).low : ℚ) / 4 < u ∧ u < ((of x).high : ℚ) / 4) := by
    have hs : (of x).scale = x.exponent - 2 := rfl
    have hc : (of x).closed = (x.significand % 2 == 0) := rfl
    rw [Holds, hs, hc, hscale, hscale] at h
    simp only [mul_le_mul_iff_of_pos_right hw, mul_lt_mul_iff_of_pos_right hw] at h
    split at h
    · next he => exact ⟨h.1, h.2, .inl (by simpa using he)⟩
    · exact ⟨h.1.le, h.2.le, .inr h⟩
  rw [hlow, hhigh] at hbounds
  obtain ⟨hl, hu, htie⟩ := hbounds
  split at hl
  · next hn =>
    rw [if_pos hn] at htie
    refine ⟨by linarith, by linarith, htie.imp id fun ht => ⟨?_, ?_⟩, fun _ _ => by linarith⟩
    · linarith [ht.1]
    · linarith [ht.2]
  · next hn =>
    rw [if_neg hn] at htie
    refine ⟨by linarith, by linarith, htie.imp id fun ht => ⟨?_, ?_⟩,
      fun h1 h2 => absurd ⟨h1, h2⟩ hn⟩
    · linarith [ht.1]
    · linarith [ht.2]

end Decimal.Interval

/-! ### Rounding -/

namespace Binary

variable {f : Format}

theorem Finite.precision_pos {x : Finite f} (hm : x.significand ≠ 0) : 0 < f.precision := by
  have hlt : x.significand < 2 ^ f.precision := x.canonical.1
  refine Nat.pos_of_ne_zero fun h0 => hm ?_
  rw [h0] at hlt
  omega

section

variable {x : Finite f} {negative : Bool} {num den : Nat}

theorem round_of_exponent (hd : 0 < den) (he : exponentFor f num den = x.exponent)
    (hlow : (x.significand : ℚ) - 1 / 2 ≤ num / den / 2 ^ x.exponent)
    (hhigh : (num / den / 2 ^ x.exponent : ℚ) ≤ x.significand + 1 / 2)
    (htie : x.significand % 2 = 0 ∨ (x.significand : ℚ) - 1 / 2 < num / den / 2 ^ x.exponent ∧
      (num / den / 2 ^ x.exponent : ℚ) < x.significand + 1 / 2) :
    round f negative num den = finite { x with negative := negative } := by
  refine round_eq he (nearest_eq_of_rat (unscale_den_pos num hd _) ?_ ?_ ?_) x.canonical
  · rwa [unscale_value]
  · rwa [unscale_value]
  · rwa [unscale_value]

/-- A quotient just below a power of two has one bit more there; it is rounded to one bit too many,
which carries. -/
theorem round_of_below (hd : 0 < den) (hp : 0 < f.precision)
    (he : exponentFor f num den = x.exponent - 1)
    (hm : x.significand = 2 ^ (f.precision - 1))
    (hlow : (x.significand : ℚ) - 1 / 4 ≤ num / den / 2 ^ x.exponent)
    (hhigh : (num / den / 2 ^ x.exponent : ℚ) < x.significand) :
    round f negative num den = finite { x with negative := negative } := by
  -- at the lower exponent the quotient is twice as large
  have hdouble : (num / den / 2 ^ (x.exponent - 1) : ℚ) = 2 * (num / den / 2 ^ x.exponent) := by
    rw [zpow_sub_one₀ (by norm_num), ← div_div, div_inv_eq_mul, mul_comm]
  have hbits : Nat.pow 2 f.precision = 2 * x.significand := by
    rw [hm, ← pow_succ', Nat.sub_add_cancel hp]
    rfl
  have hbits' : ((Nat.pow 2 f.precision : Nat) : ℚ) = 2 * x.significand := by exact_mod_cast hbits
  have hcarry : f.Canonical (Nat.pow 2 (f.precision - 1)) (x.exponent - 1 + 1) := by
    rw [Int.sub_add_cancel, Nat.pow_eq, ← hm]
    exact x.canonical
  have heven : Nat.pow 2 f.precision % 2 = 0 := by rw [hbits, Nat.mul_mod_right]
  rw [round_eq_of_carry he (nearest_eq_of_rat (unscale_den_pos num hd _) ?_ ?_ (.inl heven)) hcarry]
  · congr 2
    · exact hm.symm
    · exact Int.sub_add_cancel _ _
  · rw [unscale_value, hdouble, hbits']
    linarith
  · rw [unscale_value, hdouble, hbits']
    linarith

/-- **What is in the interval of a number rounds to it.** -/
theorem round_of_holds (hm : x.significand ≠ 0) (hd : den ≠ 0)
    (h : (Decimal.Interval.of x).Holds (num / den)) :
    round f negative num den = finite { x with negative := negative } := by
  obtain ⟨hlow, hhigh, htie, hnarrow⟩ := Decimal.Interval.bounds_of_holds hm h
  have hp := x.precision_pos hm
  have hd0 : 0 < den := Nat.pos_of_ne_zero hd
  have hw := two_zpow_pos x.exponent
  have hone : (1 : ℚ) ≤ x.significand := by exact_mod_cast Nat.pos_of_ne_zero hm
  have hpos : (0 : ℚ) < num / den := by
    have : (0 : ℚ) < num / den / 2 ^ x.exponent := by linarith
    exact (div_pos_iff_of_pos_right hw).1 this
  have hn : num ≠ 0 := by
    rintro rfl
    simp at hpos
  have hq := exponentFor_eq_log (f := f) hn hd
  -- the bits of the quotient in front of the point, in units of the number's last bit
  have hlog (k : Int) : k + x.exponent ≤ Int.log 2 (num / den : ℚ) ↔
      (2 : ℚ) ^ k ≤ num / den / 2 ^ x.exponent := by
    rw [← Int.zpow_le_iff_le_log (by decide) hpos, Nat.cast_two, le_div_iff₀ hw, ← two_zpow_add]
  have htop : (2 : ℚ) ^ ((f.precision : Int) - 1) = 2 ^ (f.precision - 1) := by
    rw [← zpow_natCast, Nat.cast_pred hp]
  have hfull : ¬ (f.precision : Int) + x.exponent ≤ Int.log 2 (num / den : ℚ) := by
    have hbits : (x.significand : ℚ) + 1 ≤ 2 ^ f.precision := by exact_mod_cast x.canonical.1
    rw [hlog, zpow_natCast, not_le]
    linarith
  have hmin := x.canonical.2.1
  rcases le_or_gt ((2 : ℚ) ^ (f.precision - 1)) (num / den / 2 ^ x.exponent) with hge | hlt
  · have hle : (f.precision : Int) - 1 + x.exponent ≤ Int.log 2 (num / den : ℚ) := by
      rwa [hlog, htop]
    exact round_of_exponent hd0 (by omega) hlow hhigh htie
  · have hle : ¬ (f.precision : Int) - 1 + x.exponent ≤ Int.log 2 (num / den : ℚ) := by
      rwa [hlog, htop, not_le]
    by_cases heq : x.exponent = f.minExp
    · exact round_of_exponent hd0 (by omega) hlow hhigh htie
    · -- the significand has all bits, so it is the least that does
      have hsignificand : x.significand = 2 ^ (f.precision - 1) := by
        refine le_antisymm (Nat.le_of_lt_succ ?_) (x.canonical.2.2.2.resolve_right heq)
        have : (x.significand : ℚ) < 2 ^ (f.precision - 1) + 1 := by linarith
        exact_mod_cast this
      have hcast : (x.significand : ℚ) = 2 ^ (f.precision - 1) := by exact_mod_cast hsignificand
      have hquarter := hnarrow hsignificand heq
      have hbelow : (f.precision : Int) - 1 - 1 + x.exponent ≤ Int.log 2 (num / den : ℚ) := by
        rw [hlog, zpow_sub_one₀ (by norm_num), htop]
        linarith
      exact round_of_below hd0 hp (by omega) hsignificand hquarter (hcast ▸ hlt)

end

end Binary

end QueryTree
