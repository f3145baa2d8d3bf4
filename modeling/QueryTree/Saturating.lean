/-!
# Saturating words

Products of row counts and page numbers can pass the range of a word; they then stay at the
greatest word.

* `toNat_saturatingMul` — the product is that of the numbers, cut off at the greatest word.
-/

namespace QueryTree

/-- The greatest word, as a number. -/
def maxWord : Nat := UInt64.size - 1

/-- The product of two words, at most the greatest word. -/
def saturatingMul (a b : UInt64) : UInt64 := .ofNat (min (a.toNat * b.toNat) maxWord)

theorem toNat_saturatingMul {a b : UInt64} :
    (saturatingMul a b).toNat = min (a.toNat * b.toNat) maxWord := by
  rw [saturatingMul, UInt64.toNat_ofNat', Nat.mod_eq_of_lt (by unfold maxWord UInt64.size; omega)]

theorem toNat_le_maxWord {a : UInt64} : a.toNat ≤ maxWord := by
  have := a.toNat_lt
  unfold maxWord UInt64.size
  omega

end QueryTree
