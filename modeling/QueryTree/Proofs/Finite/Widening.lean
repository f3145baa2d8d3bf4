import Mathlib.Algebra.Group.Nat.Defs
import QueryTree.Binary.Basic

/-!
# Widening keeps numbers finite

A number of 32 bits becomes one of 64 bits before it is an argument or a part of a request.  The
wider format has room for every finite number of the narrower one, so nothing overflows.

* `Binary.Finite.exponentFor_widen` — the exponent of the widened number.
* `Binary.isFinite_widen` — a number is as finite as its widening.
-/

namespace QueryTree

namespace Binary

theorem nearest_mul (t : Nat) {d : Nat} (hd : 0 < d) : nearest (t * d) d = t := by
  have hrest : t * d % d = 0 := Nat.mul_mod_left t d
  simp only [nearest, Nat.mul_div_cancel t hd, hrest, Nat.mul_zero, if_pos hd]

namespace Finite

variable {f g : Format} (x : Finite f)

theorem den_pos : 0 < x.den := Nat.two_pow_pos _

theorem unscale_eq {q : Int} {c : Nat} (h : x.exponent = q + c) :
    unscale x.num x.den q =
      (x.significand * 2 ^ c * (x.den * 2 ^ q.toNat), x.den * 2 ^ q.toNat) := by
  have he : x.exponent.toNat + (-q).toNat = c + ((-x.exponent).toNat + q.toNat) := by omega
  rw [unscale, num, den]
  refine Prod.ext ?_ rfl
  simp only [Nat.pow_eq, Nat.mul_assoc, ← Nat.pow_add, he]

theorem log2_num (h : x.significand ≠ 0) :
    x.num.log2 = x.significand.log2 + x.exponent.toNat := by
  have hlow := Nat.log2_self_le h
  have hhigh : x.significand < 2 ^ (x.significand.log2 + 1) := Nat.lt_log2_self
  have hn : x.num ≠ 0 := Nat.mul_ne_zero h (Nat.pos_iff_ne_zero.1 (Nat.two_pow_pos _))
  rw [Nat.log2_eq_iff hn, num, Nat.pow_eq, Nat.pow_add, Nat.add_right_comm, Nat.pow_add]
  exact ⟨Nat.mul_le_mul_right _ hlow, Nat.mul_lt_mul_of_pos_right hhigh (Nat.two_pow_pos _)⟩

/-- A significand other than zero, with its bits moved up to a place. -/
theorem two_pow_le_significand (h : x.significand ≠ 0) {n : Nat} (hn : x.significand.log2 ≤ n) :
    2 ^ n ≤ x.significand * 2 ^ (n - x.significand.log2) := by
  calc 2 ^ n = 2 ^ x.significand.log2 * 2 ^ (n - x.significand.log2) := by
        rw [← Nat.pow_add, Nat.add_sub_cancel' hn]
    _ ≤ x.significand * 2 ^ (n - x.significand.log2) :=
        Nat.mul_le_mul_right _ (Nat.log2_self_le h)

theorem log2_den : x.den.log2 = (-x.exponent).toNat := by
  rw [den, Nat.pow_eq, Nat.log2_two_pow]

end Finite

/-! ### From 32 to 64 bits -/

section

variable (x : Finite .single)

theorem Finite.log2_significand_le : x.significand.log2 ≤ 23 := by
  by_cases h : x.significand = 0
  · rw [h]
    decide
  · have hs : x.significand < 2 ^ 24 := x.canonical.1
    exact Nat.le_of_lt_succ ((Nat.log2_lt h).2 hs)

/-- The exponent at which the widened significand has all its bits. -/
theorem Finite.exponentFor_widen (h : x.significand ≠ 0) :
    exponentFor .double x.num x.den = x.significand.log2 + x.exponent - 52 := by
  have hk := x.log2_significand_le
  have hlow : -149 ≤ x.exponent := x.canonical.2.1
  have hn : x.num ≠ 0 := Nat.mul_ne_zero h (Nat.pos_iff_ne_zero.1 (Nat.two_pow_pos _))
  have hprecision : Format.double.precision = 53 := rfl
  have hmin : Format.double.minExp = -1074 := rfl
  have hq : (x.num.log2 : Int) - x.den.log2 - Format.double.precision =
      x.significand.log2 + x.exponent - 53 := by
    rw [x.log2_num h, x.log2_den]
    omega
  have hc : x.exponent = (x.significand.log2 + x.exponent - 53) +
      ((53 - x.significand.log2 : Nat) : Int) := by omega
  -- one bit more than a significand has
  have hbits : Nat.pow 2 Format.double.precision ≤
      x.significand * 2 ^ (53 - x.significand.log2) :=
    x.two_pow_le_significand h (show x.significand.log2 ≤ 53 by omega)
  have hd : 0 < x.den * 2 ^ (x.significand.log2 + x.exponent - 53 : Int).toNat :=
    Nat.mul_pos x.den_pos (Nat.two_pow_pos _)
  rw [exponentFor, if_neg hn]
  simp only [hq, x.unscale_eq hc]
  rw [Nat.mul_div_cancel _ hd, if_pos hbits]
  omega

/-- **A finite number of 32 bits stays finite.** -/
theorem Finite.isFinite_widen : ((finite x).convert .double).isFinite = true := by
  -- it is enough that the rounded quotient is canonical and does not carry
  have of_canonical {m : Nat} {q : Int} (hq : exponentFor .double x.num x.den = q)
      (hm : nearest (unscale x.num x.den q).1 (unscale x.num x.den q).2 = m)
      (h : Format.double.Canonical m q) :
      ((finite x).convert .double).isFinite = true := by
    have hne : m ≠ Nat.pow 2 Format.double.precision := Nat.ne_of_lt h.1
    rw [convert, round]
    simp only [hq, hm, if_neg hne, dif_pos h]
    rfl
  have hhigh : x.exponent ≤ 104 := x.canonical.2.2.1
  have hlow : -149 ≤ x.exponent := x.canonical.2.1
  by_cases h : x.significand = 0
  · have hn : x.num = 0 := by rw [num, h, Nat.zero_mul]
    refine of_canonical (m := 0) (q := -1074) ?_ ?_ ?_
    · rw [exponentFor, if_pos hn]
      rfl
    · rw [unscale, hn, Nat.zero_mul]
      have hd := nearest_mul 0 (Nat.mul_pos x.den_pos (Nat.two_pow_pos (-1074 : Int).toNat))
      rwa [Nat.zero_mul] at hd
    · decide
  · have hk := x.log2_significand_le
    have hlt : x.significand < 2 ^ (x.significand.log2 + 1) := Nat.lt_log2_self
    -- with all 53 bits in front of the point the quotient is whole
    have hc : x.exponent = (x.significand.log2 + x.exponent - 52) +
        ((52 - x.significand.log2 : Nat) : Int) := by omega
    refine of_canonical (x.exponentFor_widen h)
      (m := x.significand * 2 ^ (52 - x.significand.log2)) ?_ ⟨?_, ?_, ?_, ?_⟩
    · rw [x.unscale_eq hc]
      exact nearest_mul _ (Nat.mul_pos x.den_pos (Nat.two_pow_pos _))
    · calc x.significand * 2 ^ (52 - x.significand.log2)
          < 2 ^ (x.significand.log2 + 1) * 2 ^ (52 - x.significand.log2) :=
            Nat.mul_lt_mul_of_pos_right hlt (Nat.two_pow_pos _)
        _ = 2 ^ 53 := by
            rw [← Nat.pow_add]
            congr 1
            omega
    · have hmin : Format.double.minExp = -1074 := rfl
      omega
    · have hmax : Format.double.maxExp = 971 := rfl
      omega
    · exact .inl (x.two_pow_le_significand h (show x.significand.log2 ≤ 52 by omega))

end

/-- **A number is as finite as its widening.** -/
theorem isFinite_widen (x : Single) : (x.convert .double).isFinite = x.isFinite := by
  cases x with
  | nan => rfl
  | infinity negative => rfl
  | finite x => exact x.isFinite_widen

end Binary

end QueryTree
