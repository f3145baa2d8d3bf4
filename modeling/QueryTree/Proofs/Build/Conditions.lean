import QueryTree.Mutation
import QueryTree.Proofs.Build.Change

/-!
# The conditions of what is built

Queries, updates and deletions take in criteria among other declarations.  Their conditions depend
on the criteria alone, in the order in which they were declared.

* `Clause.criterion?`, `Update.Clause.criterion?` — the criterion among other declarations.
* `Query.build_eq_ok`, `Delete.build_eq_ok_iff`, `Update.build_eq_ok_iff` — the conditions of what
  is built are what the criteria alone describe.
-/

namespace QueryTree

/-! ### Conditions -/

theorem Node.build_eq_ok_iff {criteria : List Criterion} {nodes : List Node} :
    Node.build criteria = .ok nodes ↔
      (Criterion.addAll .empty criteria).misuse = none ∧
        (Criterion.addAll .empty criteria).nodes = nodes := Draft.finish_eq_ok_iff

/-! ### Queries -/

theorem QueryDraft.conditions_eliminate (q : Query) : (eliminate q).conditions = q.conditions := by
  unfold eliminate
  split <;> rfl

/-- The criterion of a clause about the rows. -/
def Clause.criterion? : Clause → Option Criterion
  | .criterion c => some c
  | _ => none

namespace Change

/-- The criterion that a change adds to the conditions on the rows. -/
def criterion? : Change → Option Criterion
  | criterion c => some c
  | _ => none

theorem criterion?_ofBuilt {α : Type} (built : Except Misuse α) {use : α → Change}
    (h : ∀ a, (use a).criterion? = none) : (ofBuilt built use).criterion? = none := by
  cases built with
  | ok a => exact h a
  | error cause => rfl

end Change

theorem QueryDraft.conditions_apply (d : QueryDraft) (x : Change) :
    (d.apply x).conditions = Criterion.addAll d.conditions x.criterion?.toList := by
  cases x <;> rfl

theorem Clause.criterion?_change (started : Bool) (c : Clause) :
    (c.change started).criterion? = c.criterion? := by
  cases c with
  -- whatever comes of what is built, it is no criterion
  | source spec => exact Change.criterion?_ofBuilt _ fun _ => rfl
  | nested nickname body => exact Change.criterion?_ofBuilt _ fun _ => rfl
  | join j spec rule =>
    rw [change]
    split
    · exact Change.criterion?_ofBuilt _ fun _ => rfl
    · rfl
  | joinNested j nickname body rule =>
    rw [change]
    split
    · exact Change.criterion?_ofBuilt _ fun _ => rfl
    · rfl
  | cte name recursive body =>
    rw [change]
    split
    · rfl
    · exact Change.criterion?_ofBuilt _ fun _ => rfl
  | union keepsDuplicates body => exact Change.criterion?_ofBuilt _ fun _ => rfl
  | last v =>
    rw [change]
    split <;> rfl
  | _ => rfl

/-- The conditions of a draft are what the criteria among its clauses add. -/
theorem Clause.conditions_addAll (d : QueryDraft) (clauses : List Clause) :
    (Clause.addAll d clauses).conditions =
      Criterion.addAll d.conditions (clauses.filterMap Clause.criterion?) := by
  induction clauses generalizing d with
  | nil => rfl
  | cons c clauses ih =>
    rw [Clause.addAll, ih, add_eq_apply, QueryDraft.conditions_apply, criterion?_change,
      List.filterMap_cons]
    cases c.criterion? <;> rfl

theorem Query.build_eq_ok {clauses : List Clause} {q : Query} (h : Query.build clauses = .ok q) :
    Node.build (clauses.filterMap Clause.criterion?) = .ok q.conditions := by
  obtain ⟨-, hm, -, -, rfl⟩ := QueryDraft.finish_eq_ok_iff.1 h
  rw [Clause.conditions_addAll] at hm
  rw [Node.build_eq_ok_iff, QueryDraft.conditions_eliminate, Clause.conditions_addAll]
  exact ⟨hm, rfl⟩

/-! ### Updates -/

namespace Update

/-- The criterion among the declarations of an update. -/
def Clause.criterion? : Clause → Option Criterion
  | .criterion c => some c
  | .write _ => none

/-- The write to a column among the declarations of an update. -/
def Clause.write? : Clause → Option Write
  | .criterion _ => none
  | .write w => some w

theorem Draft.foldl_add (d : Draft) (clauses : List Clause) :
    clauses.foldl Draft.add d =
      ⟨(clauses.filterMap Clause.write?).foldl Assignments.add d.assignments,
        Criterion.addAll d.conditions (clauses.filterMap Clause.criterion?)⟩ := by
  induction clauses generalizing d with
  | nil => rfl
  | cons c clauses ih =>
    rw [List.foldl_cons, ih]
    cases c with
    | write w => rfl
    | criterion c => rfl

/-- The assignments that an update declares, in the making. -/
def assigning (clauses : List Clause) : Assignments :=
  (clauses.filterMap Clause.write?).foldl Assignments.add .empty

theorem build_eq (table : String) (clauses : List Clause) :
    Update.build table clauses =
      (ofMisuse (Node.build (clauses.filterMap Clause.criterion?))).bind fun conditions =>
        ((assigning clauses).finish table).map fun assignments =>
          ⟨table, assignments, conditions⟩ := by
  rw [Update.build, Draft.foldl_add]
  rfl

theorem build_eq_ok_iff {table : String} {clauses : List Clause} {u : Update} :
    Update.build table clauses = .ok u ↔
      Node.build (clauses.filterMap Clause.criterion?) = .ok u.conditions ∧
        (assigning clauses).finish table = .ok u.assignments ∧ u.table = table := by
  rw [build_eq]
  obtain ⟨t, assignments, conditions⟩ := u
  -- the conditions are judged first, so without them the assignments play no part
  cases hn : Node.build (clauses.filterMap Clause.criterion?) with
  | error cause => simp [ofMisuse, Except.bind]
  | ok nodes =>
    cases ha : (assigning clauses).finish table with
    | error cause => simp [ofMisuse, Except.bind, Except.map]
    | ok items =>
      simp only [ofMisuse, Except.bind, Except.map, Except.ok.injEq, Update.mk.injEq]
      grind

end Update

/-! ### Deletions -/

theorem Delete.build_eq_ok_iff {table : String} {criteria : List Criterion} {x : Delete} :
    Delete.build table criteria = .ok x ↔
      Node.build criteria = .ok x.conditions ∧ x.table = table := by
  obtain ⟨t, conditions⟩ := x
  cases hn : Node.build criteria with
  | error cause => simp [Delete.build, hn, ofMisuse, Except.map]
  | ok nodes =>
    simp only [Delete.build, hn, ofMisuse, Except.map, Except.ok.injEq, Delete.mk.injEq]
    grind

end QueryTree
