import QueryTree.Value.Basic

/-!
# Structures as values and back

A structure that is taken as a value, and the value written as a structure again, is the structure
it was.  Whole numbers go through words of two kinds, arrays are taken apart item by item, and an
object is one value at whatever depth it stands.

* `Value.ofInteger_cases` — the word that a whole number becomes.
* `Value.toJsonItems_ofJsonItems` — items that come back make an array that comes back.
* `Value.toJson_ofJson` — every structure comes back.
-/

namespace QueryTree

namespace Value

/-- A whole number becomes the word of its value: a signed one below `2 ^ 63`, an unsigned one from
there on. -/
theorem ofInteger_cases (n : Json.Integer) :
    (∃ k : Int64, ofInteger n = int k ∧ k.toInt = n.val) ∨
      ∃ k : UInt64, ofInteger n = uint k ∧ (k.toNat : Int) = n.val := by
  have hl := n.low
  have hh := n.high
  by_cases h : n.val < 9223372036854775808
  · refine .inl ⟨.ofInt n.val, by simp [ofInteger, h], ?_⟩
    exact Int64.toInt_ofInt_of_le hl h
  · refine .inr ⟨.ofNat n.val.toNat, by simp [ofInteger, h], ?_⟩
    rw [UInt64.toNat_ofNat_of_lt' (by unfold UInt64.size; omega)]
    omega

/-- A whole number comes back whole, with its value. -/
theorem toJson_ofInteger (n : Json.Integer) : (ofInteger n).toJson = .integer n := by
  rcases ofInteger_cases n with ⟨k, hk, hv⟩ | ⟨k, hk, hv⟩
  · simp only [hk, toJson, Json.ofInt64, hv]
  · simp only [hk, toJson, Json.ofUInt64, hv]

theorem toJsonItems_ofJsonItems {js : List Json} (h : ∀ j ∈ js, (ofJson j).toJson = j) :
    toJsonItems (ofJsonItems js) = js := by
  induction js with
  | nil => rfl
  | cons j js ih =>
    obtain ⟨hj, hjs⟩ := List.forall_mem_cons.1 h
    rw [ofJsonItems, toJsonItems, hj, ih hjs]

/-- **Every structure comes back from the value it is taken as.**  Numbers keep their kind and their
value, and objects are left alone at every depth. -/
theorem toJson_ofJson (j : Json) : (ofJson j).toJson = j := by
  match j with
  | .null | .bool _ | .float _ | .string _ | .object _ => rfl
  | .integer n => exact toJson_ofInteger n
  | .array items =>
    have hi : toJsonItems (ofJsonItems items) = items :=
      toJsonItems_ofJsonItems fun j _ => toJson_ofJson j
    rw [ofJson, toJson, hi]

end Value

end QueryTree
