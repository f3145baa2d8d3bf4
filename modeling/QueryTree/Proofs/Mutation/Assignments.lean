import Mathlib.Data.List.Nodup
import QueryTree.Proofs.Build.Reported
import QueryTree.Proofs.Mutation.Filtered
import QueryTree.Proofs.Similarity.Nearest

/-!
# The last write to a column counts

A write is described by declarations that may come back to a column, and some of them have no effect
because their value is not set.  What is left is the last declaration with an effect for each
column, in the order of these declarations; the statement puts each column together with what is
assigned to it, and the arguments come in the same order.

* `Write.assignment?` — the effect of a declaration.
* `Resolves` — the assignments that some declarations come down to.
* `Resolves.append`, `Assignments.resolves` — one more declaration, and all of them.
* `entries` — what a statement assigns, in its words.
* `last_write_counts` — what is built from the declarations, how it is written, and when nothing is.
-/

namespace QueryTree

/-! ### What declarations come down to -/

/-- The assignment that a declaration makes, if its value is set and can be assigned. -/
def Write.assignment? : Write → Option Assignment
  | set column v =>
    match v.asAssignment with
    | .present w => some ⟨column, .value w⟩
    | _ => none
  | setNull column => some ⟨column, .null⟩
  | setExpression column text => some ⟨column, .expression text⟩

/-- The declaration at a place makes the assignment, and none behind it makes one to the same
column. -/
def IsLast (writes : List Write) (place : Nat) (a : Assignment) : Prop :=
  (∃ w, writes[place]? = some w ∧ w.assignment? = some a) ∧
    ∀ v ∈ writes.drop (place + 1), ∀ b, v.assignment? = some b → b.column ≠ a.column

/-- The assignments are what the declarations come down to: one for each column with an effective
declaration, made by the last of these, in the order of the declarations that make them. -/
structure Resolves (writes : List Write) (as : List Assignment) : Prop where
  distinct : (as.map Assignment.column).Nodup
  columns : ∀ c, c ∈ as.map Assignment.column ↔
    ∃ w ∈ writes, ∃ a, w.assignment? = some a ∧ a.column = c
  ordered : ∃ placed : List (Nat × Assignment), placed.map Prod.snd = as ∧
    (placed.map Prod.fst).Pairwise (· < ·) ∧ ∀ p ∈ placed, IsLast writes p.1 p.2

section

variable {writes : List Write} {w : Write} {a : Assignment} {place : Nat}

theorem IsLast.lt_length (h : IsLast writes place a) : place < writes.length := by
  obtain ⟨⟨v, hv, -⟩, -⟩ := h
  exact (List.getElem?_eq_some_iff.1 hv).1

/-- The last declaration for a column stays the last one behind which nothing is assigned to it. -/
theorem IsLast.append (h : IsLast writes place a)
    (hw : ∀ b, w.assignment? = some b → b.column ≠ a.column) : IsLast (writes ++ [w]) place a := by
  have hlt := h.lt_length
  obtain ⟨⟨v, hv, ha⟩, hlast⟩ := h
  refine ⟨⟨v, by rw [List.getElem?_append_left hlt, hv], ha⟩, ?_⟩
  rw [List.drop_append_of_le_length hlt, List.forall_mem_append]
  exact ⟨hlast, List.forall_mem_singleton.2 hw⟩

theorem isLast_concat (hw : w.assignment? = some a) : IsLast (writes ++ [w]) writes.length a := by
  refine ⟨⟨w, List.getElem?_concat_length, hw⟩, fun v hv => absurd hv ?_⟩
  rw [List.drop_eq_nil_of_le (by simp)]
  exact List.not_mem_nil

/-- The assignments after one more declaration. -/
def resolveNext (as : List Assignment) (w : Write) : List Assignment :=
  match w.assignment? with
  | none => as
  | some a => (as.filter fun b => b.column != a.column) ++ [a]

namespace Resolves

variable {as : List Assignment}

theorem nil : Resolves [] [] := ⟨List.nodup_nil, by simp, [], rfl, .nil, by simp⟩

theorem append_of_none (h : Resolves writes as) (hw : w.assignment? = none) :
    Resolves (writes ++ [w]) as := by
  obtain ⟨placed, hplaced, hordered, hlast⟩ := h.ordered
  refine ⟨h.distinct, fun c => ?_, placed, hplaced, hordered, fun p hp => ?_⟩
  · rw [h.columns c]
    simp [hw]
  · exact (hlast p hp).append fun b hb => by rw [hw] at hb; cases hb

/-- An assignment takes the place of an earlier one to its column, and goes behind the others. -/
theorem append_of_some (h : Resolves writes as) (hw : w.assignment? = some a) :
    Resolves (writes ++ [w]) ((as.filter fun b => b.column != a.column) ++ [a]) := by
  obtain ⟨placed, rfl, hordered, hlast⟩ := h.ordered
  have hcolumns : ((placed.map Prod.snd).filter fun b => b.column != a.column).map
      Assignment.column = ((placed.map Prod.snd).map Assignment.column).filter (· != a.column) := by
    simp only [List.filter_map]
    rfl
  -- the others keep their places; the new assignment has the place behind all earlier declarations
  refine ⟨?_, fun c => ?_,
    (placed.filter fun p => p.2.column != a.column) ++ [(writes.length, a)], ?_, ?_, ?_⟩
  · rw [List.map_append, hcolumns, List.map_singleton, List.nodup_append_comm,
      List.singleton_append, List.nodup_cons]
    exact ⟨by simp, h.distinct.filter _⟩
  · rw [List.map_append, hcolumns, List.mem_append, List.mem_filter, h.columns c]
    by_cases hc : c = a.column
    · simp [hc, hw]
    · simp [hc, hw, Ne.symm hc]
  · rw [List.map_append, List.filter_map]
    rfl
  · rw [List.map_append, List.map_singleton, List.pairwise_append]
    refine ⟨hordered.sublist (List.filter_sublist.map _), List.pairwise_singleton _ _, ?_⟩
    intro i hi j hj
    obtain ⟨p, hp, rfl⟩ := List.mem_map.1 hi
    rw [List.mem_singleton.1 hj]
    exact (hlast p (List.mem_of_mem_filter hp)).lt_length
  · rw [List.forall_mem_append, List.forall_mem_singleton]
    refine ⟨fun p hp => ?_, isLast_concat hw⟩
    obtain ⟨hp, hne⟩ := List.mem_filter.1 hp
    refine (hlast p hp).append fun b hb => ?_
    rw [hw] at hb
    cases hb
    exact (bne_iff_ne.1 hne).symm

/-- **One more declaration.** -/
theorem append (h : Resolves writes as) (w : Write) :
    Resolves (writes ++ [w]) (resolveNext as w) := by
  unfold resolveNext
  split
  · next hw => exact h.append_of_none hw
  · next hw => exact h.append_of_some hw

theorem eq_nil_iff (h : Resolves writes as) : as = [] ↔ ∀ w ∈ writes, w.assignment? = none := by
  constructor
  · rintro rfl w hw
    rw [Option.eq_none_iff_forall_ne_some]
    exact fun a ha => List.not_mem_nil ((h.columns a.column).2 ⟨w, hw, a, ha, rfl⟩)
  · intro hnone
    rw [List.eq_nil_iff_forall_not_mem]
    intro a ha
    obtain ⟨w, hw, b, hb, -⟩ := (h.columns a.column).1 (List.mem_map_of_mem ha)
    rw [hnone w hw] at hb
    cases hb

end Resolves

end

/-! ### Assignments in the making -/

namespace Assignments

theorem items_add {a : Assignments} (ha : a.misuse = none) (w : Write) :
    (a.add w).items = resolveNext a.items w := by
  cases w with
  | set column v =>
    rw [add, resolveNext, Write.assignment?]
    cases v.asAssignment with
    | present x => simp [assign, ha]
    | absent => rfl
    | invalid why => rfl
  | setNull column => simp [add, assign, ha, resolveNext, Write.assignment?]
  | setExpression column text => simp [add, assign, ha, resolveNext, Write.assignment?]

theorem misuse_foldl (a : Assignments) (writes : List Write) :
    (writes.foldl add a).misuse = a.misuse.or (writes.findSome? Write.misuse?) := by
  induction writes generalizing a with
  | nil => exact Option.or_none.symm
  | cons w writes ih =>
    rw [List.foldl_cons, ih, misuse_add, Option.or_assoc, List.findSome?_cons]
    cases w.misuse? <;> rfl

theorem misuse_foldl_eq_none_iff {writes : List Write} :
    (writes.foldl add empty).misuse = none ↔ ∀ w ∈ writes, w.misuse? = none := by
  rw [misuse_foldl]
  exact List.findSome?_eq_none_iff

/-- **All declarations together.**  As long as nothing is misused, the assignments are what the
declarations come down to. -/
theorem resolves {writes : List Write} (h : (writes.foldl add empty).misuse = none) :
    Resolves writes (writes.foldl add empty).items := by
  -- from the end, since what an earlier declaration counts for depends on those behind it
  induction writes using List.reverseRecOn with
  | nil => exact .nil
  | append_singleton writes w ih =>
    rw [List.foldl_append, List.foldl_cons, List.foldl_nil] at h ⊢
    rw [misuse_add, Option.or_eq_none_iff] at h
    rw [items_add h.1]
    exact (ih h.1).append w

theorem finish_eq_ok_iff {a : Assignments} {table : String} {as : List Assignment} :
    a.finish table = .ok as ↔ a.misuse = none ∧ a.items ≠ [] ∧ a.items = as := by
  unfold finish
  cases a.misuse with
  | some cause => simp
  | none => cases h : a.items <;> simp

theorem finish_eq_query_error_iff {a : Assignments} {table : String} :
    (∃ e, a.finish table = .error e ∧ e.kind = .query) ↔ a.misuse = none ∧ a.items = [] := by
  unfold finish
  cases a.misuse with
  | some cause => simp [Error.kind]
  | none => cases h : a.items <;> simp [Error.kind]

/-- There is something to write if nothing is misused and a declaration has an effect. -/
theorem exists_finish_eq_ok_iff (writes : List Write) (table : String) :
    (∃ as, (writes.foldl add empty).finish table = .ok as) ↔
      (∀ w ∈ writes, w.misuse? = none) ∧ ∃ w ∈ writes, w.assignment? ≠ none := by
  simp only [finish_eq_ok_iff, exists_and_left, exists_eq', and_true]
  rw [← misuse_foldl_eq_none_iff]
  refine and_congr_right fun h => ?_
  rw [ne_eq, (resolves h).eq_nil_iff]
  simp

/-- There is nothing to write if nothing is misused and no declaration has an effect. -/
theorem exists_finish_eq_query_error_iff (writes : List Write) (table : String) :
    (∃ e, (writes.foldl add empty).finish table = .error e ∧ e.kind = .query) ↔
      (∀ w ∈ writes, w.misuse? = none) ∧ ∀ w ∈ writes, w.assignment? = none := by
  rw [finish_eq_query_error_iff, ← misuse_foldl_eq_none_iff]
  exact and_congr_right fun h => (resolves h).eq_nil_iff

theorem resolves_of_finish {writes : List Write} {table : String} {as : List Assignment}
    (h : (writes.foldl add empty).finish table = .ok as) : Resolves writes as := by
  obtain ⟨hm, -, rfl⟩ := finish_eq_ok_iff.1 h
  exact resolves hm

end Assignments

/-! ### Statements -/

/-- The values among some assignments, in order. -/
def boundValues (as : List Assignment) : List Value :=
  as.filterMap fun a =>
    match a.assigned with
    | .value v => some v
    | _ => none

/-- The words for what is assigned, behind `n` arguments. -/
def Assigned.entry (p : Placeholder) (n : Nat) : Assigned → String
  | value _ => p.mark n
  | null => "NULL"
  | expression text => text

/-- The words for what some assignments assign, in order; the mark of a value counts the values in
front of it. -/
def entries (p : Placeholder) (as : List Assignment) : List String :=
  as.mapIdx fun k a => a.assigned.entry p (boundValues (as.take k)).length

theorem boundValues_cons (a : Assignment) (as : List Assignment) :
    boundValues (a :: as) = boundValues [a] ++ boundValues as :=
  List.filterMap_append (l := [a])

theorem Assigned.render_pieces (p : Placeholder) (n : Numbering) (x : Assigned) :
    x.pieces.render p n = x.entry p n.arguments := by
  cases x <;> exact String.append_empty

theorem Assignment.render_pieces (p : Placeholder) (n : Numbering) (a : Assignment) :
    a.pieces.render p n = a.column ++ " = " ++ a.assigned.entry p n.arguments := by
  rw [pieces, Fragment.render, Assigned.render_pieces]
  rfl

section

variable {p : Placeholder} {part : Assignment → Fragment}

/-- A list of assignments as it is written, if each part takes up as many arguments as there are
values in its assignment. -/
theorem render_assignments (text : Nat → Assignment → String)
    (hp : ∀ n a, (part a).render p n = text n.arguments a)
    (ha : ∀ a, (part a).arguments = boundValues [a]) (n : Numbering) (as : List Assignment) :
    (Fragment.separated ", " (as.map part)).render p n =
      ", ".intercalate
        (as.mapIdx fun k a => text (n.arguments + (boundValues (as.take k)).length) a) := by
  induction as generalizing n with
  | nil => rfl
  | cons a as ih =>
    cases as with
    | nil => simp [Fragment.separated, hp, boundValues]
    | cons b as =>
      have hn : (n.afterAll (part a)).arguments = n.arguments + (boundValues [a]).length := by
        rw [Fragment.arguments_afterAll, ha]
      -- the arguments in front of what follows are counted from behind the first part
      have hshift :
          (fun k => text (n.arguments + (boundValues ((a :: b :: as).take (k + 1))).length)) =
            fun k => text ((n.afterAll (part a)).arguments +
              (boundValues ((b :: as).take k)).length) := by
        funext k
        rw [List.take_succ_cons, boundValues_cons, List.length_append, hn, Nat.add_assoc]
      show (part a ++ .text ", " :: Fragment.separated ", " ((b :: as).map part)).render p n = _
      rw [List.mapIdx_cons, hshift, String.intercalate_cons_of_ne_nil (by simp), ← ih,
        Fragment.render_append, hp, String.append_assoc]
      rfl

theorem arguments_assignments (ha : ∀ a, (part a).arguments = boundValues [a])
    (as : List Assignment) :
    (Fragment.separated ", " (as.map part)).arguments = boundValues as := by
  rw [Query.arguments_separated, List.flatMap_map]
  induction as with
  | nil => rfl
  | cons a as ih => rw [List.flatMap_cons, ih, ha, ← boundValues_cons]

end

theorem Assignment.arguments_assigned (a : Assignment) :
    a.assigned.pieces.arguments = boundValues [a] := by
  obtain ⟨column, x⟩ := a
  cases x <;> rfl

theorem Assignment.arguments_pieces (a : Assignment) : a.pieces.arguments = boundValues [a] :=
  a.arguments_assigned

theorem render_entries (p : Placeholder) {n : Numbering} (hn : n.arguments = 0)
    (as : List Assignment) :
    (Fragment.separated ", " (as.map fun a => a.assigned.pieces)).render p n =
      ", ".intercalate (entries p as) := by
  rw [render_assignments (fun k a => a.assigned.entry p k)
    (fun n a => a.assigned.render_pieces p n) Assignment.arguments_assigned, hn]
  simp only [Nat.zero_add, entries]

theorem render_settings (p : Placeholder) {n : Numbering} (hn : n.arguments = 0)
    (as : List Assignment) :
    (Fragment.separated ", " (as.map Assignment.pieces)).render p n =
      ", ".intercalate (List.zipWith (fun column entry => column ++ " = " ++ entry)
        (as.map Assignment.column) (entries p as)) := by
  rw [render_assignments (fun k a => a.column ++ " = " ++ a.assigned.entry p k)
    (fun n a => a.render_pieces p n) Assignment.arguments_pieces, hn]
  congr 1
  apply List.ext_getElem
  · simp [entries]
  · intro k _ _
    simp [entries]

theorem Insert.compile_lists (d : Dialect) (i : Insert) :
    i.compile d =
      ⟨"INSERT INTO " ++ i.table ++ " (" ++
        ", ".intercalate (i.assignments.map Assignment.column) ++ ") VALUES (" ++
        ", ".intercalate (entries d.placeholder i.assignments) ++ ")",
        boundValues i.assignments⟩ := by
  rw [compile, Fragment.compile, Compiled.mk.injEq]
  constructor
  · rw [Fragment.render_append, Fragment.render, render_entries _ rfl]
    exact congrArg (_ ++ ·) String.append_empty
  · show Fragment.arguments (Fragment.separated ", " (i.assignments.map fun a : Assignment =>
      a.assigned.pieces) ++ [Piece.text ")"]) = _
    rw [Fragment.arguments_append, arguments_assignments Assignment.arguments_assigned]
    exact List.append_nil _

theorem Fragment.freeNames_append (f g : Fragment) :
    freeNames (f ++ g) = freeNames f + freeNames g := by
  induction f with
  | nil => exact (Nat.zero_add _).symm
  | cons piece f ih =>
    cases piece with
    | item expression =>
      show freeNames (f ++ g) + 1 = freeNames f + 1 + freeNames g
      rw [ih, Nat.add_right_comm]
    | _ => exact ih

theorem Assignment.freeNames_separated (as : List Assignment) :
    (Fragment.separated ", " (as.map pieces)).freeNames = 0 := by
  induction as with
  | nil => rfl
  | cons a as ih =>
    -- only items of a select list take free names
    have ha : a.pieces.freeNames = 0 := by
      obtain ⟨column, x⟩ := a
      cases x <;> rfl
    cases as with
    | nil => exact ha
    | cons b as =>
      show (a.pieces ++ .text ", " :: Fragment.separated ", " ((b :: as).map pieces)).freeNames = 0
      rw [Fragment.freeNames_append, ha, Nat.zero_add]
      exact ih

/-- The statement of an update, each column with what it gets, and the conditions behind. -/
theorem Update.compile_lists (d : Dialect) (u : Update) :
    u.compile d =
      ⟨"UPDATE " ++ u.table ++ " SET " ++
          ", ".intercalate (List.zipWith (fun column entry => column ++ " = " ++ entry)
            (u.assignments.map Assignment.column) (entries d.placeholder u.assignments)) ++
          (whereClause d u.conditions).render d.placeholder ⟨(boundValues u.assignments).length, 0⟩,
        boundValues u.assignments ++ (whereClause d u.conditions).arguments⟩ := by
  have harguments : u.head.arguments = boundValues u.assignments :=
    arguments_assignments Assignment.arguments_pieces u.assignments
  -- the numbering goes on behind the arguments of the assignments
  have hbehind : Numbering.start.afterAll u.head = ⟨(boundValues u.assignments).length, 0⟩ := by
    rw [Fragment.afterAll_eq, harguments]
    show Numbering.mk (0 + _) (0 + _) = _
    rw [Nat.zero_add, Nat.zero_add]
    exact congrArg _ (Assignment.freeNames_separated u.assignments)
  rw [compile_eq, Fragment.compile, Fragment.render_append, Fragment.arguments_append, harguments,
    hbehind, head, Fragment.render, render_settings _ rfl]
  rfl

/-! ### What is built and written -/

section

variable {ε α β : Type} {x : Except ε α} {f : α → β}

theorem Except.exists_map_eq_ok_iff : (∃ b, x.map f = .ok b) ↔ ∃ a, x = .ok a := by
  cases x <;> simp [Except.map]

theorem Except.map_eq_error_iff {e : ε} : x.map f = .error e ↔ x = .error e := by
  cases x <;> simp [Except.map]

end

namespace Insert

theorem build_eq_ok_iff {table : String} {writes : List Write} {i : Insert} :
    build table writes = .ok i ↔
      (writes.foldl Assignments.add .empty).finish table = .ok i.assignments ∧ i.table = table := by
  obtain ⟨t, as⟩ := i
  rw [build]
  cases (writes.foldl Assignments.add .empty).finish table with
  | error e => simp [Except.map]
  | ok items => simp [Except.map, Insert.mk.injEq, and_comm, eq_comm]

theorem exists_build_eq_ok_iff {table : String} {writes : List Write} :
    (∃ i, build table writes = .ok i) ↔
      (∀ w ∈ writes, w.misuse? = none) ∧ ∃ w ∈ writes, w.assignment? ≠ none := by
  rw [build, Except.exists_map_eq_ok_iff, Assignments.exists_finish_eq_ok_iff]

theorem exists_build_eq_query_error_iff {table : String} {writes : List Write} :
    (∃ e, build table writes = .error e ∧ e.kind = .query) ↔
      (∀ w ∈ writes, w.misuse? = none) ∧ ∀ w ∈ writes, w.assignment? = none := by
  simp only [build, Except.map_eq_error_iff]
  exact Assignments.exists_finish_eq_query_error_iff writes table

end Insert

namespace Update

theorem findings_eq_nil_iff {clauses : List Clause} :
    findings clauses = [] ↔
      (∃ nodes, Node.build (clauses.filterMap Clause.criterion?) = .ok nodes) ∧
        ∀ w ∈ clauses.filterMap Clause.write?, w.misuse? = none := by
  -- a build fails exactly if an effect is a misuse
  have hnodes : (∃ nodes, Node.build (clauses.filterMap Clause.criterion?) = .ok nodes) ↔
      ∀ c ∈ clauses.filterMap Clause.criterion?, c.effect.misuse? = none := by
    simp only [Node.build_eq_ok_iff, exists_and_left, exists_eq', and_true,
      Criterion.misuse_addAll]
    exact List.findSome?_eq_none_iff
  rw [findings, List.filterMap_eq_nil_iff, hnodes]
  constructor
  · intro h
    refine ⟨fun c hc => ?_, fun w hw => ?_⟩
    · obtain ⟨x, hx, hxc⟩ := List.mem_filterMap.1 hc
      cases x with
      | criterion b =>
        cases hxc
        exact Option.map_eq_none_iff.1 (h _ hx)
      | write w => cases hxc
    · obtain ⟨x, hx, hxw⟩ := List.mem_filterMap.1 hw
      cases x with
      | criterion c => cases hxw
      | write v =>
        cases hxw
        exact Option.map_eq_none_iff.1 (h _ hx)
  · rintro ⟨hc, hw⟩ x hx
    cases x with
    | criterion c => exact Option.map_eq_none_iff.2 (hc c (List.mem_filterMap.2 ⟨_, hx, rfl⟩))
    | write w => exact Option.map_eq_none_iff.2 (hw w (List.mem_filterMap.2 ⟨_, hx, rfl⟩))

theorem exists_build_eq_ok_iff {table : String} {clauses : List Clause} :
    (∃ u, build table clauses = .ok u) ↔
      findings clauses = [] ∧ ∃ w ∈ clauses.filterMap Clause.write?, w.assignment? ≠ none := by
  rw [findings_eq_nil_iff, and_assoc, ← Assignments.exists_finish_eq_ok_iff _ table,
    build_eq]
  cases Node.build (clauses.filterMap Clause.criterion?) with
  | error cause => simp [ofMisuse, Except.bind]
  | ok nodes =>
    rw [ofMisuse, Except.bind, Except.exists_map_eq_ok_iff, assigning]
    simp

theorem exists_build_eq_query_error_iff {table : String} {clauses : List Clause} :
    (∃ e, build table clauses = .error e ∧ e.kind = .query) ↔
      findings clauses = [] ∧ ∀ w ∈ clauses.filterMap Clause.write?, w.assignment? = none := by
  rw [findings_eq_nil_iff, and_assoc,
    ← Assignments.exists_finish_eq_query_error_iff _ table, build_eq]
  cases Node.build (clauses.filterMap Clause.criterion?) with
  | error cause => simp [ofMisuse, Except.bind, Error.kind]
  | ok nodes =>
    rw [ofMisuse, Except.bind]
    simp only [Except.map_eq_error_iff, assigning]
    simp

end Update

/-- **The last write to a column counts.**  An insertion or an update is built if nothing is misused
and some declaration has an effect; if none has, that is an error about the query.  What is built
assigns to each column with an effective declaration what the last of these assigns, in the order of
these declarations.  The statement puts the columns together with these entries, place by place, and
its first arguments are the values among them in the same order. -/
theorem last_write_counts (d : Dialect) (table : String) :
    (∀ writes,
      ((∃ i, Insert.build table writes = .ok i) ↔
        (∀ w ∈ writes, w.misuse? = none) ∧ ∃ w ∈ writes, w.assignment? ≠ none) ∧
      ((∃ e, Insert.build table writes = .error e ∧ e.kind = .query) ↔
        (∀ w ∈ writes, w.misuse? = none) ∧ ∀ w ∈ writes, w.assignment? = none) ∧
      ∀ i, Insert.build table writes = .ok i →
        Resolves writes i.assignments ∧
        i.compile d =
          ⟨"INSERT INTO " ++ table ++ " (" ++
            ", ".intercalate (i.assignments.map Assignment.column) ++ ") VALUES (" ++
            ", ".intercalate (entries d.placeholder i.assignments) ++ ")",
            boundValues i.assignments⟩) ∧
    ∀ clauses,
      ((∃ u, Update.build table clauses = .ok u) ↔
        Update.findings clauses = [] ∧
          ∃ w ∈ clauses.filterMap Update.Clause.write?, w.assignment? ≠ none) ∧
      ((∃ e, Update.build table clauses = .error e ∧ e.kind = .query) ↔
        Update.findings clauses = [] ∧
          ∀ w ∈ clauses.filterMap Update.Clause.write?, w.assignment? = none) ∧
      ∀ u, Update.build table clauses = .ok u →
        Resolves (clauses.filterMap Update.Clause.write?) u.assignments ∧
        u.compile d =
          ⟨"UPDATE " ++ table ++ " SET " ++
              ", ".intercalate (List.zipWith (fun column entry => column ++ " = " ++ entry)
                (u.assignments.map Assignment.column) (entries d.placeholder u.assignments)) ++
              (whereClause d u.conditions).render d.placeholder
                ⟨(boundValues u.assignments).length, 0⟩,
            boundValues u.assignments ++ (whereClause d u.conditions).arguments⟩ := by
  refine ⟨fun writes => ⟨Insert.exists_build_eq_ok_iff, Insert.exists_build_eq_query_error_iff,
    fun i h => ?_⟩, fun clauses => ⟨Update.exists_build_eq_ok_iff,
    Update.exists_build_eq_query_error_iff, fun u h => ?_⟩⟩
  · obtain ⟨hf, rfl⟩ := Insert.build_eq_ok_iff.1 h
    exact ⟨Assignments.resolves_of_finish hf, i.compile_lists d⟩
  · obtain ⟨-, hf, rfl⟩ := Update.build_eq_ok_iff.1 h
    exact ⟨Assignments.resolves_of_finish hf, u.compile_lists d⟩

/-- One column is assigned a value again after it was set to nothing, another one is null at
first. -/
theorem last_write_counts_of_repeated :
    let writes : List Write := [.set "a" (.int 1), .setNull "b", .set "a" (.text ""),
      .setExpression "c" "NOW()", .set "b" (.uint 5), .set "a" (.int 2)]
    let clauses := .criterion (.compare .eq "id" (.int 7)) :: writes.map Update.Clause.write
    let as : List Assignment :=
      [⟨"c", .expression "NOW()"⟩, ⟨"b", .value (.uint 5)⟩, ⟨"a", .value (.int 2)⟩]
    let u : Update := ⟨"t", as, [.ofValue (.compare .eq) "id" (.int 7)]⟩
    (Insert.build "t" writes = .ok ⟨"t", as⟩ ∧ Update.build "t" clauses = .ok u) ∧
      Resolves writes as ∧
      Insert.compile .postgres ⟨"t", as⟩ =
        ⟨"INSERT INTO t (c, b, a) VALUES (NOW(), $1, $2)", [.uint 5, .int 2]⟩ ∧
      u.compile .postgres =
        ⟨"UPDATE t SET c = NOW(), b = $1, a = $2 WHERE id = $3", [.uint 5, .int 2, .int 7]⟩ := by
  intro writes clauses as u
  have hi : Insert.build "t" writes = .ok ⟨"t", as⟩ := rfl
  have hu : Update.build "t" clauses = .ok u := rfl
  obtain ⟨hinserted, hupdated⟩ := last_write_counts .postgres "t"
  obtain ⟨hresolves, hinsert⟩ := (hinserted writes).2.2 _ hi
  obtain ⟨-, hupdate⟩ := (hupdated clauses).2.2 u hu
  refine ⟨⟨hi, hu⟩, hresolves, hinsert.trans ?_, hupdate.trans ?_⟩
  · exact congrArg₂ Compiled.mk (by decide +kernel) rfl
  · exact congrArg₂ Compiled.mk (by decide +kernel) rfl

end QueryTree
