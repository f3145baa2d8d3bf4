import QueryTree.Proofs.Finite.Requests

/-!
# Numbers that reach a backend

Infinities and not-a-number are refused where a value is brought into a form.  What is passed on as
it was given is not looked at: the arguments of raw pieces of text, assigned vectors, and the
vectors and thresholds of similarity searches.  These, and no others, can hand a backend a number
that has no form there.

* `Compiled.Guards` — the numbers of a statement are finite but for the given ones.
* `finite_unless_given` — whatever is built, in whichever statement or request.
-/

namespace QueryTree

variable {d : Dialect}

/-! ### Guarded statements -/

/-- A statement shows some values.  Its numbers are finite, but for those that are passed on as they
were given: its arguments are all finite exactly if these are. -/
structure Compiled.Guards (d : Dialect) (c : Compiled) (shown : List Shown) : Prop where
  displays : c.Displays d shown
  checked : Checked shown
  finite_iff : (∀ v ∈ c.arguments, v.isFinite = true) ↔
    ∀ s ∈ shown, s.way = .given → s.value.isFinite = true

theorem Compiled.Displays.guards {c : Compiled} {shown : List Shown} (h : c.Displays d shown)
    (hc : Checked shown) : c.Guards d shown := by
  refine ⟨h, hc, ?_⟩
  rw [h.arguments, List.forall_mem_map]
  constructor
  · -- a given value is never a literal
    intro hf s hs hw
    exact hf s (List.mem_filter.2 ⟨hs, by simp [hw]⟩)
  · intro hf s hs
    have hm := List.mem_of_mem_filter hs
    by_cases hw : s.way = .given
    · exact hf s hm hw
    · exact hc s hm hw

/-! ### Assignments -/

/-- What is assigned is checked. -/
def Assignments.IsChecked (a : Assignments) : Prop := ∀ i ∈ a.items, Checked i.assigned.shown

theorem Assigned.checked_shown {v w : Value} (h : v.asAssignment = .present w) :
    Checked (value w).shown := by
  -- all kinds of values but vectors and documents are scalars, and those are finite
  have of_finite (hw : w.isFinite = true) : Checked (value w).shown := by
    cases w with
    | vector xs => exact checked_given
    | _ => exact checked_singleton hw
  cases v with
  | json j =>
    rw [Value.asAssignment] at h
    split at h
    · cases h
    · cases h
      exact checked_singleton rfl
  | vector xs =>
    rw [Value.asAssignment] at h
    split at h
    · cases h
    · cases h
      exact checked_given
  | _ =>
    simp only [Value.asAssignment] at h
    exact of_finite (Value.isFinite_of_asScalar h)

namespace Assignments

variable {a : Assignments}

theorem IsChecked.assign (h : a.IsChecked) (column : String) {assigned : Assigned}
    (hs : Checked assigned.shown) : (a.assign column assigned).IsChecked := by
  rw [Assignments.assign]
  split
  · exact h
  · exact List.forall_mem_append.2
      ⟨fun i hi => h i (List.mem_of_mem_filter hi), List.forall_mem_singleton.2 hs⟩

theorem IsChecked.add (h : a.IsChecked) (w : Write) : (a.add w).IsChecked := by
  cases w with
  | set column v =>
    rw [Assignments.add]
    split
    · next w hw => exact h.assign column (Assigned.checked_shown hw)
    · -- a value that is absent or cannot be used adds nothing
      exact h
    · exact h
  | setNull column => exact h.assign column (show Checked Assigned.null.shown from checked_nil)
  | setExpression column text =>
    exact h.assign column (show Checked (Assigned.expression text).shown from checked_nil)

theorem IsChecked.foldl_add (h : a.IsChecked) (writes : List Write) :
    (writes.foldl Assignments.add a).IsChecked := by
  induction writes generalizing a with
  | nil => exact h
  | cons w writes ih => exact ih (h.add w)

theorem IsChecked.of_finish (h : a.IsChecked) {table : String} {items : List Assignment}
    (hf : a.finish table = .ok items) : Checked (assignedShown items) := by
  rw [finish] at hf
  split at hf
  · cases hf
  · split at hf
    · cases hf
    · cases hf
      rw [assignedShown, ← List.flatMap_def, checked_flatMap]
      exact h

theorem checked_of_finish {writes : List Write} {table : String} {items : List Assignment}
    (h : (writes.foldl Assignments.add .empty).finish table = .ok items) :
    Checked (assignedShown items) :=
  (IsChecked.foldl_add (a := .empty) nofun writes).of_finish h

end Assignments

/-! ### Conditions of writes -/

theorem Node.checked_of_build {criteria : List Criterion} {nodes : List Node}
    (h : Node.build criteria = .ok nodes) (hp : ∀ p ∈ Criterion.pagesAll criteria, p.IsMade) :
    Checked (nodeShown nodes) := by
  obtain ⟨-, rfl⟩ := Node.build_eq_ok_iff.1 h
  exact Node.checked_nodeShown.2 (Criterion.checked_addAll Draft.all_empty criteria hp)

theorem Node.declared_of_build {criteria : List Criterion} {nodes : List Node}
    (h : Node.build criteria = .ok nodes) : ∀ n ∈ nodes, n.Declared := by
  obtain ⟨-, rfl⟩ := Node.build_eq_ok_iff.1 h
  exact Criterion.declared_addAll Draft.all_empty criteria

theorem Insert.checked_of_build {table : String} {writes : List Write} {i : Insert}
    (h : Insert.build table writes = .ok i) : Checked i.shown := by
  rw [Insert.build] at h
  cases ha : (writes.foldl Assignments.add .empty).finish table with
  | error cause =>
    rw [ha] at h
    cases h
  | ok items =>
    rw [ha] at h
    cases h
    exact Assignments.checked_of_finish ha

/-! ### What reaches a backend -/

/-- **No number that is not finite reaches a backend but a given one.**  Whatever is built, the
statements in every dialect show literals and arguments that are finite, but for the arguments of
raw pieces of text, assigned vectors, and the vectors and thresholds of similarity searches, which
are passed on as they were given; if one of these is not finite, neither are the arguments.  In the
request of a query there is no null in place of a number, but in place of the numbers of its vector
and of its threshold that are not finite. -/
theorem finite_unless_given (d : Dialect) :
    (∀ clauses q, Query.build clauses = .ok q → (∀ p ∈ Clause.pagesAll clauses, p.IsMade) →
      (q.toSelect d).compiled.Guards d q.shown ∧ (q.toCount d).Guards d q.shownCount ∧
      (∀ c, q.toVectorSearch d = .ok c → ∃ field search,
        q.vectorSearch? = some (field, search) ∧ c.Guards d (q.shownNearest search)) ∧
      ∀ key, (∀ e ∈ q.extensions, e.1 ≠ key) →
        ((∃ j, q.toVectorJson.entry? key = some j ∧ j.hasNull = true) ↔
          ∃ x ∈ (Request.ofQuery q).numbersAt key, x.isFinite = false)) ∧
    (∀ table writes i, Insert.build table writes = .ok i → (i.compile d).Guards d i.shown) ∧
    (∀ table clauses u, Update.build table clauses = .ok u →
      (∀ p ∈ Criterion.pagesAll (clauses.filterMap Update.Clause.criterion?), p.IsMade) →
      (u.compile d).Guards d u.shown) ∧
    ∀ table criteria x, Delete.build table criteria = .ok x →
      (∀ p ∈ Criterion.pagesAll criteria, p.IsMade) → (x.compile d).Guards d x.shown := by
  refine ⟨?_, ?_, ?_, ?_⟩
  · intro clauses q h hp
    have hc := Query.checked_of_build h hp
    -- for the request the conditions have to be declared ones as well
    have hd := Node.declared_of_build (Query.build_eq_ok h)
    refine ⟨(q.displays_toSelect d).guards hc.rows, (q.displays_toCount d).guards hc.count, ?_,
      fun key hk => Query.hasNull_toVectorJson hd hc.page hk⟩
    intro c hs
    obtain ⟨field, search, hv, hshow⟩ := q.displays_toVectorSearch d hs
    exact ⟨field, search, hv, hshow.guards (hc.nearest search)⟩
  · intro table writes i h
    exact (i.displays_compile d).guards (Insert.checked_of_build h)
  · intro table clauses u h hp
    obtain ⟨hn, ha, -⟩ := Update.build_eq_ok_iff.1 h
    exact (u.displays_compile d).guards
      (checked_append.2 ⟨Assignments.checked_of_finish ha, Node.checked_of_build hn hp⟩)
  · intro table criteria x h hp
    exact (x.displays_compile d).guards (Node.checked_of_build (Delete.build_eq_ok_iff.1 h).1 hp)

/-- The rows near a vector that is no number, from a later page on: the page asks for a finite bound,
but the vector gets lost in the request and is not finite among the arguments. -/
theorem null_in_request_of_nan :
    let search : Search := .new [.nan] 5
    let page : Page := ⟨1, 10, some (.int 7)⟩
    let clauses : List Clause :=
      [.source "docs", .criterion (.search "embedding" search), .sort ⟨"id", .asc⟩, .paged page]
    let q : Query := ⟨{ Outline.empty with sorts := [⟨"id", .asc⟩], page := some page },
      [⟨"docs", none, none, none, none⟩],
      [⟨.search, "embedding", some (.search search), []⟩], [], [], []⟩
    Query.build clauses = .ok q ∧ (∀ p ∈ Clause.pagesAll clauses, p.IsMade) ∧
      (∃ j, q.toVectorJson.entry? "vector" = some j ∧ j.hasNull = true) ∧
      ∀ d c, q.toVectorSearch d = .ok c → ¬∀ v ∈ c.arguments, v.isFinite = true := by
  intro search page clauses q
  have hb : Query.build clauses = .ok q := rfl
  have hp : ∀ p ∈ Clause.pagesAll clauses, p.IsMade := by
    refine List.forall_mem_singleton.2 fun w hw => ?_
    cases hw
    exact ⟨.int 7, rfl⟩
  refine ⟨hb, hp, ?_, fun d c hc hf => ?_⟩
  · have h := ((finite_unless_given .default).1 clauses q hb hp).2.2.2 "vector" nofun
    exact h.2 ⟨.nan, List.mem_singleton_self _, rfl⟩
  · obtain ⟨field, found, hs, hg⟩ :=
      ((finite_unless_given d).1 clauses q hb hp).2.2.1 c hc
    cases hs
    have hm : ⟨.given, .vector [.nan]⟩ ∈ q.shownNearest search := by
      simp [Query.shownNearest, search, Search.new]
    cases hg.finite_iff.1 hf _ hm rfl

end QueryTree
