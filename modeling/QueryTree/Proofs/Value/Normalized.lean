import QueryTree.Value.Literal
import QueryTree.Value.Normalize

/-!
# Normalized values

What becomes of a value in a role, and what is known of one that is let through.

* `Value.IsScalar` — the scalars that criteria hold: no null, no infinity, no empty text.
* `Value.asScalar_eq`, `Value.asMembers_eq` — the outcome of a comparison and of a set, told from the
  kind of the value and from the values that are offered as members.
* `Value.of_asScalar`, `Value.of_asPattern`, `Value.of_asMembers` — what the three roles of a
  criterion let through.
* `Value.members`, `Value.memberFault?` — which members a set has, and what cannot be one.
-/

namespace QueryTree

namespace Value

/-- A scalar that a criterion can hold. -/
inductive IsScalar : Value → Prop
  | bool (b : Bool) : IsScalar (bool b)
  | int (n : Int64) : IsScalar (int n)
  | uint (n : UInt64) : IsScalar (uint n)
  | float {x : Double} (h : x.isFinite = true) : IsScalar (float x)
  | text {s : String} (h : s ≠ "") : IsScalar (text s)

theorem format_ne_empty (t : DateTime) : t.format ≠ "" := by
  simp [DateTime.format]

theorem text_ne_empty {s : String} (h : ¬s.isEmpty = true) : s ≠ "" := by
  rintro rfl
  exact h rfl

/-! ### Kinds of values -/

/-- Lists, vectors and nested structures. -/
def isNested : Value → Bool
  | list _ | vector _ | json _ => true
  | _ => false

/-- Infinities and not-a-number. -/
def isNonFinite : Value → Bool
  | float x => !x.isFinite
  | _ => false

/-- Null and the empty text are no members. -/
def isMember : Value → Bool
  | null => false
  | text s => !s.isEmpty
  | _ => true

/-- A member as the set holds it; a time becomes text. -/
def timeless : Value → Value
  | time t => text t.format
  | v => v

theorem isZero_timeless (v : Value) : v.timeless.isZero = v.isZero := by
  cases v with
  | time t => simpa [timeless, isZero] using format_ne_empty t
  | _ => rfl

theorem isMember_of_isZero {v : Value} (h : v.isZero = false) : v.isMember = true := by
  cases v with
  | null => cases h
  | text s => simpa [isMember, isZero] using h
  | _ => rfl

/-- What is neither nested nor infinite and is a member becomes a scalar. -/
theorem isScalar_timeless {v : Value} (hn : v.isNested = false) (hx : v.isNonFinite = false)
    (hm : v.isMember = true) : v.timeless.IsScalar := by
  cases v with
  | null => cases hm
  | bool b => exact .bool b
  | int n => exact .int n
  | uint n => exact .uint n
  | float x => exact .float (by simpa [isNonFinite] using hx)
  | text s => exact .text (text_ne_empty (by simpa [isMember] using hm))
  | time t => exact .text (format_ne_empty t)
  | list _ | vector _ | json _ => cases hn

/-! ### Comparisons -/

theorem asScalar_eq (v : Value) :
    v.asScalar =
      if v.isNested then .invalid .notScalar
      else if v.isNonFinite then .invalid .nonFinite
      else if v.isZero then .absent
      else .present v.timeless := by
  cases v <;> rfl

theorem asScalar_eq_present_iff {v w : Value} :
    v.asScalar = .present w ↔
      w = v.timeless ∧ v.isNested = false ∧ v.isNonFinite = false ∧ v.isZero = false := by
  rw [asScalar_eq]
  cases v.isNested <;> cases v.isNonFinite <;> cases v.isZero <;> simp [eq_comm]

theorem of_asScalar {v w : Value} (h : v.asScalar = .present w) :
    w.IsScalar ∧ w.isZero = false := by
  obtain ⟨rfl, hn, hx, hz⟩ := asScalar_eq_present_iff.1 h
  exact ⟨isScalar_timeless hn hx (isMember_of_isZero hz), (isZero_timeless v).trans hz⟩

/-! ### Patterns -/

theorem of_asPattern {v w : Value} (h : v.asPattern = .present w) :
    ∃ s, w = text s ∧ s ≠ "" := by
  cases v with
  | text s =>
    rw [asPattern] at h
    split at h
    · cases h
    · next hs =>
      cases h
      exact ⟨s, rfl, text_ne_empty hs⟩
  | _ => cases h

/-! ### Members -/

/-- The values that are offered as members: the items of a list, or a lone value. -/
def items : Value → List Value
  | list items => items
  | v => [v]

/-- The members of the set that a value describes, in the order in which they are offered. -/
def members (v : Value) : List Value := (v.items.filter isMember).map timeless

/-- Why a value cannot be offered as a member, if it cannot. -/
def memberFault? (v : Value) : Option Rejection :=
  if v.isNested then some .notMembers else if v.isNonFinite then some .nonFinite else none

theorem memberFault?_eq_none_iff {v : Value} :
    v.memberFault? = none ↔ v.isNested = false ∧ v.isNonFinite = false := by
  unfold memberFault?
  cases v.isNested <;> cases v.isNonFinite <;> simp

theorem asMember_eq (v : Value) :
    v.asMember =
      match v.memberFault? with
      | some why => .invalid why
      | none => if v.isMember then .present v.timeless else .absent := by
  cases v with
  | float x =>
    cases h : x.isFinite <;> simp [asMember, memberFault?, isNested, isNonFinite, isMember,
      timeless, h]
  | text s =>
    by_cases h : s = "" <;> simp [asMember, memberFault?, isNested, isNonFinite, isMember,
      timeless, h]
  | _ => rfl

/-! ### Sets -/

/-- The members that are kept: the first value that cannot be offered is the reason to reject the
whole set. -/
theorem keptMembers_eq (vs : List Value) :
    keptMembers vs =
      match vs.findSome? memberFault? with
      | some why => .error why
      | none => .ok ((vs.filter isMember).map timeless) := by
  induction vs with
  | nil => rfl
  | cons v vs ih =>
    rw [keptMembers, asMember_eq, List.findSome?_cons]
    cases v.memberFault? with
    -- the first value at fault ends it; what is behind is not looked at
    | some why => rfl
    | none =>
      by_cases hm : v.isMember = true
      · simp only [hm, if_true, List.filter_cons_of_pos, List.map_cons, ih]
        cases vs.findSome? memberFault? <;> rfl
      · simp [hm, ih]

/-- What becomes of a set, told from the values that are offered. -/
theorem asMembers_eq (v : Value) :
    v.asMembers =
      match v.items.findSome? memberFault? with
      | some why => .invalid why
      | none => if v.members = [] then .absent else .present (list v.members) := by
  have hlone : v.asMembers = ofMembers v.items := by cases v <;> rfl
  rw [hlone, ofMembers, keptMembers_eq, members]
  cases v.items.findSome? memberFault? with
  | some why => rfl
  | none => cases (v.items.filter isMember).map timeless <;> rfl

theorem asMembers_eq_present_iff {v w : Value} :
    v.asMembers = .present w ↔
      w = list v.members ∧ v.members ≠ [] ∧ ∀ m ∈ v.items, m.memberFault? = none := by
  rw [asMembers_eq, ← List.findSome?_eq_none_iff]
  cases v.items.findSome? memberFault? with
  | some why => simp
  | none => by_cases h : v.members = [] <;> simp [h, eq_comm]

/-- A set has the members that are offered, in order, without null and empty texts, and at least
one. -/
theorem eq_of_asMembers {v w : Value} (h : v.asMembers = .present w) :
    w = list v.members ∧ v.members ≠ [] := by
  obtain ⟨hw, hne, -⟩ := asMembers_eq_present_iff.1 h
  exact ⟨hw, hne⟩

/-- A set gets members, all of them scalars. -/
theorem of_asMembers {v w : Value} (h : v.asMembers = .present w) :
    ∃ kept, w = list kept ∧ kept ≠ [] ∧ ∀ m ∈ kept, m.IsScalar := by
  obtain ⟨rfl, hne, hf⟩ := asMembers_eq_present_iff.1 h
  refine ⟨v.members, rfl, hne, ?_⟩
  intro m hm
  obtain ⟨u, hu, rfl⟩ := List.mem_map.1 hm
  obtain ⟨hi, hmem⟩ := List.mem_filter.1 hu
  obtain ⟨hn, hx⟩ := memberFault?_eq_none_iff.1 (hf u hi)
  exact isScalar_timeless hn hx hmem

theorem literals_eq_map (vs : List Value) : literals vs = vs.map literal := by
  induction vs with
  | nil => rfl
  | cons v vs ih => rw [literals, ih, List.map_cons]

end Value

end QueryTree
