import Mathlib.Tactic.SplitIfs
import QueryTree.Proofs.Value.Normalized

/-!
# Normalizations as projections

A value that has been normalized may be handed on and normalized again.  Each role picks out the
values that can fill it, and what it has let through it lets through again, unchanged.

* `ProjectsOnto` — which values a normalization lets through, and that it changes none of them again.
* `Value.IsSetScalar`, `Value.IsPattern`, `Value.IsSet`, `Value.IsAssignable` — the values that can
  fill the four roles.
* `Value.asMembers_eq_absent_iff`, `Value.exists_asMembers_eq_invalid_iff` — the two ways in which a
  set comes to nothing.
* `Value.normalizations_project` — the four roles together.
-/

namespace QueryTree

/-- A normalization lets through the values with a property, and no others; what it has let through
it does not change again. -/
structure ProjectsOnto (normalize : Value → Normalized) (P : Value → Prop) : Prop where
  /-- What was let through is let through again, unchanged. -/
  again {v w : Value} : normalize v = .present w → normalize w = .present w
  /-- The values that are let through. -/
  image (w : Value) : (∃ v, normalize v = .present w) ↔ P w

theorem ProjectsOnto.of_fixed {normalize : Value → Normalized} {P : Value → Prop}
    (hp : ∀ v w, normalize v = .present w → P w) (hf : ∀ w, P w → normalize w = .present w) :
    ProjectsOnto normalize P := by
  refine ⟨fun {v w} h => hf w (hp v w h), ?_⟩
  intro w
  constructor
  · rintro ⟨v, h⟩
    exact hp v w h
  · intro h
    exact ⟨w, hf w h⟩

/-! ### Texts of nested structures -/

theorem Decimal.positional_ne_empty (d : Decimal) (pointZero : Bool) :
    d.positional pointZero ≠ "" := by
  unfold positional
  split <;> simp [Nat.toDigits_ne_nil]

theorem Decimal.write_ne_empty (layout : NumberLayout) (d : Decimal) : d.write layout ≠ "" := by
  have hs : d.scientific ≠ "" := by
    simp only [scientific]
    split_ifs <;> simp
  simp only [write]
  split
  · exact positional_ne_empty d _
  · split_ifs
    · exact positional_ne_empty d _
    · exact hs

theorem toString_ne_empty (n : Int) : toString n ≠ "" := by
  cases n with
  | ofNat n =>
    intro h
    have hr : (toString n).toList = Nat.toDigits 10 n := Nat.toList_repr
    exact Nat.toDigits_ne_nil (hr.symm.trans (congrArg String.toList h))
  | negSucc n =>
    have hm : toString (Int.negSucc n) = "-" ++ toString (n + 1) := rfl
    simp [hm]

/-- No nested structure is written as the empty text. -/
theorem Json.render_ne_empty (j : Json) : j.render ≠ "" := by
  cases j with
  | bool b => cases b <;> simp [render]
  | integer n => exact toString_ne_empty n.val
  | float x => simp [render, Binary.Finite.write, Decimal.write_ne_empty]
  | null | string _ | array _ | object _ => simp [render, quoted]

namespace Value

/-! ### The values that can fill a role -/

/-- A scalar that counts as set. -/
def IsSetScalar (v : Value) : Prop := v.IsScalar ∧ v.isZero = false

/-- A text that is not empty. -/
def IsPattern (v : Value) : Prop := ∃ s, v = text s ∧ s ≠ ""

/-- A list of scalars, one at least. -/
def IsSet (v : Value) : Prop := ∃ kept, v = list kept ∧ kept ≠ [] ∧ ∀ m ∈ kept, m.IsScalar

/-- A scalar that counts as set, or a vector that is not empty. -/
def IsAssignable (v : Value) : Prop := v.IsSetScalar ∨ ∃ xs, v = vector xs ∧ xs ≠ []

/-- A scalar is neither nested nor infinite, is a member, and has nothing of a time. -/
theorem IsScalar.kind {v : Value} (h : v.IsScalar) :
    v.isNested = false ∧ v.isNonFinite = false ∧ v.isMember = true ∧ v.timeless = v := by
  cases h with
  | float hf => simp [isNested, isNonFinite, isMember, timeless, hf]
  | text hs => simp [isNested, isNonFinite, isMember, timeless, hs]
  | bool _ | int _ | uint _ => exact ⟨rfl, rfl, rfl, rfl⟩

theorem projectsOnto_asScalar : ProjectsOnto asScalar IsSetScalar := by
  apply ProjectsOnto.of_fixed
  · intro v w h
    exact of_asScalar h
  · intro w ⟨hs, hz⟩
    obtain ⟨hn, hx, -, ht⟩ := hs.kind
    exact asScalar_eq_present_iff.2 ⟨ht.symm, hn, hx, hz⟩

theorem projectsOnto_asPattern : ProjectsOnto asPattern IsPattern := by
  apply ProjectsOnto.of_fixed
  · intro v w h
    exact of_asPattern h
  · rintro w ⟨s, rfl, hs⟩
    simp [asPattern, hs]

theorem members_list_of_isScalar {kept : List Value} (h : ∀ m ∈ kept, m.IsScalar) :
    (list kept).members = kept := by
  have hm : kept.filter isMember = kept := by
    rw [List.filter_eq_self]
    intro m hm
    exact (h m hm).kind.2.2.1
  have ht : kept.map timeless = kept.map id := by
    apply List.map_congr_left
    intro m hm
    exact (h m hm).kind.2.2.2
  rw [members, items, hm, ht, List.map_id]

theorem projectsOnto_asMembers : ProjectsOnto asMembers IsSet := by
  apply ProjectsOnto.of_fixed
  · intro v w h
    exact of_asMembers h
  · rintro w ⟨kept, rfl, hne, h⟩
    have hm := members_list_of_isScalar h
    rw [asMembers_eq_present_iff, hm]
    refine ⟨rfl, hne, ?_⟩
    intro m hk
    obtain ⟨hn, hx, -, -⟩ := (h m hk).kind
    exact memberFault?_eq_none_iff.2 ⟨hn, hx⟩

/-- What fills a comparison is the one member of a set. -/
theorem asMembers_of_asScalar {v w : Value} (h : v.asScalar = .present w) :
    v.asMembers = .present (list [w]) := by
  obtain ⟨rfl, hn, hx, hz⟩ := asScalar_eq_present_iff.1 h
  -- only a list offers more than itself
  have hi : v.items = [v] := by
    cases v with
    | list _ => cases hn
    | _ => rfl
  have hm : v.members = [v.timeless] := by
    simp [members, hi, isMember_of_isZero hz]
  rw [asMembers_eq_present_iff, hm, hi]
  refine ⟨rfl, List.cons_ne_nil _ _, ?_⟩
  intro m hm
  rw [List.mem_singleton.1 hm]
  exact memberFault?_eq_none_iff.2 ⟨hn, hx⟩

/-! ### Sets that come to nothing -/

theorem memberFault?_of_not_isMember {v : Value} (h : v.isMember = false) :
    v.memberFault? = none := by
  cases v with
  | null | text _ => rfl
  | _ => cases h

theorem isSome_memberFault?_iff {v : Value} :
    v.memberFault?.isSome = true ↔ v.isNested = true ∨ v.isNonFinite = true := by
  unfold memberFault?
  cases v.isNested <;> cases v.isNonFinite <;> simp

/-- A set is absent if none of the values that are offered is a member. -/
theorem asMembers_eq_absent_iff {v : Value} :
    v.asMembers = .absent ↔ ∀ m ∈ v.items, m.isMember = false := by
  have hm : v.members = [] ↔ ∀ m ∈ v.items, m.isMember = false := by
    simp [members]
  rw [asMembers_eq, ← hm]
  cases hf : v.items.findSome? memberFault? with
  | none => by_cases h : v.members = [] <;> simp [h]
  | some why =>
    obtain ⟨m, hi, hmf⟩ := List.exists_of_findSome?_eq_some hf
    -- a value at fault is a member, so the set is not absent but rejected
    have hne : v.members ≠ [] := by
      intro h
      rw [memberFault?_of_not_isMember (hm.1 h m hi)] at hmf
      cases hmf
    simp [hne]

/-- A set is rejected if one of the values that are offered is nested or not finite.  A vector or a
nested structure is offered as it is, and so rejected. -/
theorem exists_asMembers_eq_invalid_iff {v : Value} :
    (∃ why, v.asMembers = .invalid why) ↔
      ∃ m ∈ v.items, m.isNested = true ∨ m.isNonFinite = true := by
  have hs : (∃ m ∈ v.items, m.isNested = true ∨ m.isNonFinite = true) ↔
      (v.items.findSome? memberFault?).isSome = true := by
    simp only [List.findSome?_isSome_iff, isSome_memberFault?_iff]
  rw [hs, asMembers_eq]
  cases v.items.findSome? memberFault? with
  | none => by_cases h : v.members = [] <;> simp [h]
  | some why => simp

/-! ### Assignments -/

/-- Apart from vectors and nested structures, an assignment is a comparison. -/
theorem asAssignment_cases (v : Value) :
    (∃ j, v = json j) ∨ (∃ xs, v = vector xs) ∨ v.asAssignment = v.asScalar := by
  cases v with
  | json j => exact .inl ⟨j, rfl⟩
  | vector xs => exact .inr (.inl ⟨xs, rfl⟩)
  | _ => exact .inr (.inr rfl)

theorem of_asAssignment {v w : Value} (h : v.asAssignment = .present w) : w.IsAssignable := by
  rcases v.asAssignment_cases with ⟨j, rfl⟩ | ⟨xs, rfl⟩ | hv
  · simp only [asAssignment] at h
    split_ifs at h
    cases h
    exact .inl ⟨.text j.render_ne_empty, by simpa [isZero] using j.render_ne_empty⟩
  · simp only [asAssignment] at h
    split_ifs at h with hne
    cases h
    exact .inr ⟨xs, rfl, by simpa using hne⟩
  · exact .inl (of_asScalar (hv ▸ h))

theorem projectsOnto_asAssignment : ProjectsOnto asAssignment IsAssignable := by
  apply ProjectsOnto.of_fixed
  · intro v w h
    exact of_asAssignment h
  · rintro w (h | ⟨xs, rfl, hne⟩)
    · obtain ⟨v, hv⟩ := (projectsOnto_asScalar.image w).2 h
      have hw : w.asAssignment = w.asScalar := by cases h.1 <;> rfl
      rw [hw]
      exact projectsOnto_asScalar.again hv
    · simp [asAssignment, hne]

/-- **Normalizations are projections.**  Each of the four roles lets through what can fill it, and
changes none of it again.  A set holds just the values that are offered and are neither null nor the
empty text, in order, times as text; it is absent if there are none, and rejected if one of them is
nested or not finite.  What fills a comparison is a set of one. -/
theorem normalizations_project :
    ProjectsOnto asScalar IsSetScalar ∧ ProjectsOnto asPattern IsPattern ∧
    ProjectsOnto asMembers IsSet ∧ ProjectsOnto asAssignment IsAssignable ∧
    ∀ v w : Value,
      (v.asMembers = .present w →
        w = list ((v.items.filter isMember).map timeless) ∧ v.members ≠ []) ∧
      (v.asMembers = .absent ↔ ∀ m ∈ v.items, m.isMember = false) ∧
      ((∃ why, v.asMembers = .invalid why) ↔
        ∃ m ∈ v.items, m.isNested = true ∨ m.isNonFinite = true) ∧
      (v.asScalar = .present w → v.asMembers = .present (list [w])) := by
  refine ⟨projectsOnto_asScalar, projectsOnto_asPattern, projectsOnto_asMembers,
    projectsOnto_asAssignment, ?_⟩
  intro v w
  exact ⟨eq_of_asMembers, asMembers_eq_absent_iff, exists_asMembers_eq_invalid_iff,
    asMembers_of_asScalar⟩

end Value

end QueryTree
