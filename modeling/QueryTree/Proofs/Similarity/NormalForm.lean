import Mathlib.Data.List.Perm.Basic
import QueryTree.Proofs.Similarity.Agreement
import QueryTree.Proofs.Similarity.Extensions

/-!
# Normal form of filters

A filter that is nested in another one lets every point pass if it is empty, and alternatives next
to clauses that must hold change their meaning under a bound.  Neither is ever sent.  Each literal
of a level goes into one chain of the level and from there into one filter, so the tests in a filter
are those of the nodes it comes from, and the negative ones are those under "must not".

* `Filter.filters`, `Filter.IsNormal` — the filters in a filter, and the form that each of them has.
* `Filter.tests`, `Node.leaves` — the tests in a filter, and the nodes they come from.
* `Filter.filled_chains`, `Filter.flatten_chains_perm` — what one pass over a level collects.
* `Filter.isNormal_of_literal?`, `Filter.tests_literal?_perm` — both along a tree.
* `Query.filter_isNormal` — the filter of a request.
-/

namespace QueryTree

/-! ### Filters at any depth -/

mutual

/-- A filter and the filters nested in it, at any depth. -/
def Filter.filters : Filter → List Filter
  | ⟨must, mustNot, should⟩ =>
    ⟨must, mustNot, should⟩ ::
      (Filter.filtersIn must ++ Filter.filtersIn mustNot ++ Filter.filtersIn should)

/-- The filters in a clause, at any depth. -/
def FilterClause.filters : FilterClause → List Filter
  | .field _ _ => []
  | .isNull _ => []
  | .nested f => f.filters

/-- The filters in some clauses, at any depth. -/
def Filter.filtersIn : List FilterClause → List Filter
  | [] => []
  | c :: cs => c.filters ++ Filter.filtersIn cs

end

/-- A filter in normal form: at least two alternatives and nothing else, or clauses that must hold
and tests that must not, with at least one of them. -/
inductive Filter.IsNormal : Filter → Prop
  | alternatives {should : List FilterClause} (h : 2 ≤ should.length) : IsNormal ⟨[], [], should⟩
  | conditions {must mustNot : List FilterClause} (h : must ≠ [] ∨ mustNot ≠ [])
    (ht : ∀ f, .nested f ∉ mustNot) : IsNormal ⟨must, mustNot, []⟩

/-- All filters in a filter are in normal form. -/
def Filter.AllNormal (f : Filter) : Prop := ∀ g ∈ f.filters, g.IsNormal

/-- All filters in a clause are in normal form. -/
def FilterClause.AllNormal (c : FilterClause) : Prop := ∀ f ∈ c.filters, f.IsNormal

/-- All filters in a literal are in normal form, and a negative literal is a test. -/
structure Literal.IsNormal (l : Literal) : Prop where
  clause : l.clause.AllNormal
  negative : l.positive = false → ∀ f, l.clause ≠ .nested f

/-- The JSON of a filter in normal form: one list of at least two alternatives, or a list of what
must hold, a list of what must not, or both, none of them empty. -/
inductive Json.IsNormalFilter : Json → Prop
  | should {cs : List Json} (h : 2 ≤ cs.length) : IsNormalFilter (.object [("should", .array cs)])
  | must {cs : List Json} (h : cs ≠ []) : IsNormalFilter (.object [("must", .array cs)])
  | mustNot {cs : List Json} (h : cs ≠ []) : IsNormalFilter (.object [("must_not", .array cs)])
  | both {cs ds : List Json} (hc : cs ≠ []) (hd : ds ≠ []) :
    IsNormalFilter (.object [("must", .array cs), ("must_not", .array ds)])

/-! ### Tests and the nodes they come from -/

mutual

/-- The tests in a filter, at any depth; one that stands directly under "must not" is negative. -/
def Filter.tests : Filter → List Literal
  | ⟨must, mustNot, should⟩ =>
    Filter.testsIn true must ++ Filter.testsIn false mustNot ++ Filter.testsIn true should

/-- The tests in a clause of some sign. -/
def FilterClause.tests (positive : Bool) : FilterClause → List Literal
  | .field key test => [⟨positive, .field key test⟩]
  | .isNull key => [⟨positive, .isNull key⟩]
  | .nested f => f.tests

/-- The tests in some clauses of one sign. -/
def Filter.testsIn (positive : Bool) : List FilterClause → List Literal
  | [] => []
  | c :: cs => c.tests positive ++ Filter.testsIn positive cs

end

/-- The tests in a literal. -/
def Literal.tests (l : Literal) : List Literal := l.clause.tests l.positive

mutual

/-- The nodes other than groups to which only groups lead. -/
def Node.leaves : Node → List Node
  | ⟨op, key, operand, subs⟩ =>
    match op with
    | .group _ => Node.leavesIn subs
    | op => [⟨op, key, operand, subs⟩]

/-- These nodes of some trees, in order. -/
def Node.leavesIn : List Node → List Node
  | [] => []
  | n :: ns => n.leaves ++ Node.leavesIn ns

end

namespace Filter

theorem filtersIn_eq_flatMap (cs : List FilterClause) :
    filtersIn cs = cs.flatMap FilterClause.filters := by
  induction cs with
  | nil => rfl
  | cons c cs ih => rw [filtersIn, ih, List.flatMap_cons]

theorem testsIn_eq_flatMap (positive : Bool) (cs : List FilterClause) :
    testsIn positive cs = cs.flatMap (FilterClause.tests positive) := by
  induction cs with
  | nil => rfl
  | cons c cs ih => rw [testsIn, ih, List.flatMap_cons]

theorem tests_mk (must mustNot should : List FilterClause) :
    tests ⟨must, mustNot, should⟩ =
      must.flatMap (FilterClause.tests true) ++ mustNot.flatMap (FilterClause.tests false) ++
        should.flatMap (FilterClause.tests true) := by
  rw [tests, testsIn_eq_flatMap, testsIn_eq_flatMap, testsIn_eq_flatMap]

theorem eq_empty_of_isEmpty {f : Filter} (h : f.isEmpty = true) : f = empty := by
  obtain ⟨must, mustNot, should⟩ := f
  simp only [isEmpty, Bool.and_eq_true, List.isEmpty_iff] at h
  obtain ⟨⟨rfl, rfl⟩, rfl⟩ := h
  rfl

/-! ### One pass over a level -/

theorem filled_nil : Filled [] := fun _ h => absurd h List.not_mem_nil

theorem filled_chains {done : List (List Literal)} (h : Filled done) (pendingOr : Bool)
    (ns : List Node) : Filled (chains done pendingOr ns) := by
  induction ns generalizing done pendingOr with
  | nil => exact h
  | cons n ns ih =>
    rw [chains_cons]
    split
    · exact ih h true
    · split
      · exact ih h pendingOr
      · next l _ => exact ih (h.addToChains (pendingOr && !n.op.isGroup) l) false

theorem flatten_addToChains_perm (separate : Bool) (l : Literal) (done : List (List Literal)) :
    (addToChains separate l done).flatten.Perm (done.flatten ++ [l]) := by
  have hfront : (l :: done.flatten).Perm (done.flatten ++ [l]) :=
    (List.perm_append_singleton l done.flatten).symm
  cases done with
  | nil => exact .refl _
  | cons chain done => cases separate <;> exact hfront

/-- Each literal of a level gets into one chain, once. -/
theorem flatten_chains_perm (done : List (List Literal)) (pendingOr : Bool) (ns : List Node) :
    (chains done pendingOr ns).flatten.Perm (done.flatten ++ literals ns) := by
  induction ns generalizing done pendingOr with
  | nil => exact .of_eq (List.append_nil _).symm
  | cons n ns ih =>
    rw [chains_cons, literals]
    split
    · next hc =>
      rw [literal?_of_isConnective hc]
      exact ih done true
    · split
      · next hn =>
        rw [hn]
        exact ih done pendingOr
      · next l hn =>
        -- the literal starts a chain or joins the last one; either way it is in there once
        have hadd := (flatten_addToChains_perm (pendingOr && !n.op.isGroup) l done).append_right
          (literals ns)
        rw [List.append_assoc] at hadd
        rw [hn]
        exact (ih _ false).trans hadd

/-! ### Normal form of what is put together -/

theorem allNormal_iff {must mustNot should : List FilterClause} :
    AllNormal ⟨must, mustNot, should⟩ ↔
      IsNormal ⟨must, mustNot, should⟩ ∧ (∀ c ∈ must, c.AllNormal) ∧
        (∀ c ∈ mustNot, c.AllNormal) ∧ ∀ c ∈ should, c.AllNormal := by
  simp only [AllNormal, FilterClause.AllNormal, filters, filtersIn_eq_flatMap,
    List.forall_mem_cons, List.forall_mem_append, List.forall_mem_flatMap, and_assoc]

theorem allNormal_must {cs : List FilterClause} (hne : cs ≠ []) (h : ∀ c ∈ cs, c.AllNormal) :
    AllNormal ⟨cs, [], []⟩ :=
  allNormal_iff.2 ⟨.conditions (.inl hne) nofun, h, nofun, nofun⟩

theorem allNormal_should {cs : List FilterClause} (h2 : 2 ≤ cs.length)
    (h : ∀ c ∈ cs, c.AllNormal) : AllNormal ⟨[], [], cs⟩ :=
  allNormal_iff.2 ⟨.alternatives h2, nofun, nofun, h⟩

theorem allNormal_all {ls : List Literal} (hne : ls ≠ []) (h : ∀ l ∈ ls, l.IsNormal) :
    (all ls).AllNormal := by
  have hclause {p : Literal → Bool} : ∀ c ∈ (ls.filter p).map Literal.clause, c.AllNormal := by
    intro c hc
    obtain ⟨l, hl, rfl⟩ := List.mem_map.1 hc
    exact (h l (List.mem_of_mem_filter hl)).clause
  refine allNormal_iff.2 ⟨.conditions ?_ fun f hf => ?_, hclause, hclause, nofun⟩
  · obtain ⟨l, ls, rfl⟩ := List.exists_cons_of_ne_nil hne
    -- the first literal is in one of the two lists
    cases hl : l.positive <;> simp [hl]
  · obtain ⟨l, hl, hc⟩ := List.mem_map.1 hf
    obtain ⟨hmem, hp⟩ := List.mem_filter.1 hl
    exact (h l hmem).negative (by simpa using hp) f hc

end Filter

/-- As an alternative, a negative test becomes a filter of its own. -/
theorem Literal.IsNormal.toClause {l : Literal} (h : l.IsNormal) : l.toClause.AllNormal := by
  rw [Literal.toClause]
  split
  · exact h.clause
  · next hp =>
    refine Filter.allNormal_iff.2 ⟨.conditions (.inr (List.cons_ne_nil _ _)) fun f hf => ?_,
      List.forall_mem_nil _, List.forall_mem_singleton.2 h.clause, List.forall_mem_nil _⟩
    exact h.negative (eq_false_of_ne_true hp) f (List.mem_singleton.1 hf).symm

namespace Filter

theorem allNormal_any {ls : List Literal} (hne : ls ≠ []) (h : ∀ l ∈ ls, l.IsNormal) :
    (any ls).AllNormal := by
  have hcs : ∀ c ∈ ls.map Literal.toClause, c.AllNormal :=
    List.forall_mem_map.2 fun l hl => (h l hl).toClause
  match ls, hne with
  | [l], _ => exact allNormal_must (List.cons_ne_nil _ _) hcs
  | l :: m :: ls, _ => exact allNormal_should (by simp) hcs

theorem allNormal_chainClause {ls : List Literal} (hne : ls ≠ []) (h : ∀ l ∈ ls, l.IsNormal) :
    (chainClause ls).AllNormal := by
  unfold chainClause
  split
  · next l => exact (h l List.mem_cons_self).toClause
  · exact allNormal_all hne h

theorem allNormal_anyChain {chains : List (List Literal)} (hne : chains ≠ []) (hf : Filled chains)
    (h : ∀ ls ∈ chains, ∀ l ∈ ls, l.IsNormal) : (anyChain chains).AllNormal := by
  match chains, hne with
  | [ls], _ => exact allNormal_all (hf ls List.mem_cons_self) (h ls List.mem_cons_self)
  | ls :: ms :: chains, _ =>
    exact allNormal_should (by simp)
      (List.forall_mem_map.2 fun ls hls => allNormal_chainClause (hf ls hls) (h ls hls))

theorem allNormal_ofChains {done : List (List Literal)} (hne : done ≠ []) (hf : Filled done)
    (h : ∀ ls ∈ done, ∀ l ∈ ls, l.IsNormal) : (ofChains done).AllNormal := by
  refine allNormal_anyChain (by simpa using hne) (fun ls hls => ?_) (fun ls hls l hl => ?_)
  · obtain ⟨ms, hms, rfl⟩ := List.mem_map.1 (List.mem_reverse.1 hls)
    simpa using hf ms hms
  · obtain ⟨ms, hms, rfl⟩ := List.mem_map.1 (List.mem_reverse.1 hls)
    exact h ms hms l (List.mem_reverse.1 hl)

end Filter

/-! ### Tests of what is put together -/

theorem Literal.tests_toClause (l : Literal) : l.toClause.tests true = l.tests := by
  obtain ⟨positive, clause⟩ := l
  cases positive with
  | true => rfl
  | false =>
    show Filter.tests ⟨[], [clause], []⟩ = clause.tests false
    simp [Filter.tests_mk]

namespace Filter

/-- The positive literals come first and the negative ones behind them. -/
theorem tests_all_perm (ls : List Literal) : (all ls).tests.Perm (ls.flatMap Literal.tests) := by
  -- in each of the two lists all literals have one sign
  have hsign {positive : Bool} {ms : List Literal} (h : ∀ l ∈ ms, l.positive = positive) :
      (ms.map Literal.clause).flatMap (FilterClause.tests positive) =
        ms.flatMap Literal.tests := by
    rw [List.flatMap_map]
    exact List.flatMap_congr fun l hl => by rw [Literal.tests, h l hl]
  have htrue := hsign fun l (hl : l ∈ ls.filter Literal.positive) => (List.mem_filter.1 hl).2
  have hfalse := hsign fun l (hl : l ∈ ls.filter fun l => !l.positive) =>
    Bool.not_eq_true' _ ▸ (List.mem_filter.1 hl).2
  rw [all, tests_mk, htrue, hfalse, List.flatMap_nil, List.append_nil, ← List.flatMap_append]
  exact (List.filter_append_perm Literal.positive ls).flatMap_right _

theorem tests_any (ls : List Literal) : (any ls).tests = ls.flatMap Literal.tests := by
  have hcs : (ls.map Literal.toClause).flatMap (FilterClause.tests true) =
      ls.flatMap Literal.tests := by
    rw [List.flatMap_map]
    exact congrArg (ls.flatMap ·) (funext Literal.tests_toClause)
  rw [← hcs]
  match ls with
  | [] => rfl
  | [l] => simp [any, tests_mk]
  | l :: m :: ls => simp [any, tests_mk]

theorem tests_chainClause_perm (ls : List Literal) :
    ((chainClause ls).tests true).Perm (ls.flatMap Literal.tests) := by
  unfold chainClause
  split
  · next l => exact .of_eq (by rw [Literal.tests_toClause, List.flatMap_singleton])
  · exact tests_all_perm ls

theorem tests_anyChain_perm (chains : List (List Literal)) :
    (anyChain chains).tests.Perm (chains.flatten.flatMap Literal.tests) := by
  have hclauses : ((chains.map chainClause).flatMap (FilterClause.tests true)).Perm
      (chains.flatten.flatMap Literal.tests) := by
    rw [List.flatMap_map, ← List.flatMap_id, List.flatMap_assoc]
    exact List.Perm.flatMap_left chains fun ls _ => tests_chainClause_perm ls
  match chains with
  | [] => exact .refl _
  | [ls] => simpa [anyChain] using tests_all_perm ls
  | ls :: ms :: chains => simpa [anyChain, tests_mk] using hclauses

theorem tests_ofChains_perm (done : List (List Literal)) :
    (ofChains done).tests.Perm (done.flatten.flatMap Literal.tests) := by
  have hflat : (done.map List.reverse).reverse.flatten.Perm done.flatten := by
    rw [← List.reverse_flatten]
    exact List.reverse_perm _
  exact (tests_anyChain_perm _).trans (hflat.flatMap_right _)

/-! ### Groups -/

/-- The filter of the members of a group. -/
def ofGroup (j : Junction) (subs : List Node) : Filter :=
  if j == .any then any (literals subs) else ofChains (chains [] false subs)

theorem ofGroup_any (subs : List Node) : ofGroup .any subs = any (literals subs) := rfl

theorem ofGroup_all (subs : List Node) : ofGroup .all subs = ofNodes subs := rfl

theorem literal?_eq_ofGroup (j : Junction) (key : String) (operand : Option Operand)
    (subs : List Node) :
    literal? ⟨.group j, key, operand, subs⟩ =
      if (ofGroup j subs).isEmpty then none else some ⟨true, .nested (ofGroup j subs)⟩ := rfl

theorem allNormal_ofGroup {j : Junction} {subs : List Node}
    (hne : (ofGroup j subs).isEmpty = false) (h : ∀ l ∈ literals subs, l.IsNormal) :
    (ofGroup j subs).AllNormal := by
  cases j with
  | any =>
    rw [ofGroup_any] at hne ⊢
    refine allNormal_any (fun hnil => ?_) h
    rw [hnil] at hne
    cases hne
  | all =>
    rw [ofGroup_all, ofNodes] at hne ⊢
    refine allNormal_ofChains (fun hnil => ?_) (filled_chains filled_nil false subs)
      (fun ls hls l hl => ?_)
    · rw [hnil] at hne
      cases hne
    · exact h l ((flatten_chains_perm [] false subs).mem_iff.1 (List.mem_flatten_of_mem hls hl))

theorem tests_ofGroup_perm (j : Junction) (subs : List Node) :
    (ofGroup j subs).tests.Perm ((literals subs).flatMap Literal.tests) := by
  cases j with
  | any => exact .of_eq (tests_any _)
  | all =>
    exact (tests_ofChains_perm _).trans ((flatten_chains_perm [] false subs).flatMap_right _)

theorem tests_literal?_group (j : Junction) (key : String) (operand : Option Operand)
    (subs : List Node) :
    (literal? ⟨.group j, key, operand, subs⟩).toList.flatMap Literal.tests =
      (ofGroup j subs).tests := by
  rw [literal?_eq_ofGroup]
  split
  · next he =>
    rw [eq_empty_of_isEmpty he]
    rfl
  · exact List.append_nil _

/-! ### Leaves -/

section

variable {op : Op} {key : String} {operand : Option Operand} {l : Literal}

theorem clause_of_leaf? (h : leaf? op key operand = some l) :
    (∃ test, l.clause = .field key test) ∨ l.clause = .isNull key := by
  unfold leaf? at h
  split at h <;> cases h
  all_goals first | exact .inl ⟨_, rfl⟩ | exact .inr rfl

theorem positive_of_leaf? (h : leaf? op key operand = some l) :
    l.positive = false ↔ op = .member .notIn ∨ op = .null .nonNull := by
  unfold leaf? at h
  split at h <;> cases h <;> simp

theorem isNormal_of_leaf? (h : leaf? op key operand = some l) : l.IsNormal := by
  obtain ⟨positive, clause⟩ := l
  rcases clause_of_leaf? h with ⟨test, rfl⟩ | rfl <;> exact ⟨nofun, nofun⟩

theorem tests_of_leaf? (h : leaf? op key operand = some l) : l.tests = [l] := by
  obtain ⟨positive, clause⟩ := l
  rcases clause_of_leaf? h with ⟨test, rfl⟩ | rfl <;> rfl

theorem tests_literal?_of_leaf {subs : List Node} (hg : op.isGroup = false) :
    (literal? ⟨op, key, operand, subs⟩).toList.flatMap Literal.tests =
      [⟨op, key, operand, subs⟩].filterMap literal? := by
  rw [List.filterMap_cons, List.filterMap_nil, literal?_of_leaf hg]
  cases hl : leaf? op key operand with
  | none => rfl
  | some l => exact (List.append_nil _).trans (tests_of_leaf? hl)

end

theorem positive_of_literal? {n : Node} {l : Literal} (h : literal? n = some l) :
    l.positive = false ↔ n.op = .member .notIn ∨ n.op = .null .nonNull := by
  obtain ⟨op, key, operand, subs⟩ := n
  cases op with
  | group j =>
    rw [literal?_eq_ofGroup] at h
    split at h <;> cases h
    simp
  | _ =>
    rw [literal?_of_leaf rfl] at h
    exact positive_of_leaf? h

/-! ### Trees -/

mutual

/-- **The filters in the literal of a node are in normal form.** -/
theorem isNormal_of_literal? (n : Node) : ∀ l, literal? n = some l → l.IsNormal := by
  obtain ⟨op, key, operand, subs⟩ := n
  intro l hl
  cases op with
  | group j =>
    have hmembers := isNormal_of_mem_literals subs
    rw [literal?_eq_ofGroup] at hl
    split at hl
    · cases hl
    · next hne =>
      cases hl
      exact ⟨allNormal_ofGroup (eq_false_of_ne_true hne) hmembers, nofun⟩
  | _ =>
    rw [literal?_of_leaf rfl] at hl
    exact isNormal_of_leaf? hl

theorem isNormal_of_mem_literals (ns : List Node) : ∀ l ∈ literals ns, l.IsNormal := by
  cases ns with
  | nil => nofun
  | cons n ns =>
    intro l hl
    rcases List.mem_append.1 hl with hl | hl
    · exact isNormal_of_literal? n l (Option.mem_toList.1 hl)
    · exact isNormal_of_mem_literals ns l hl

end

mutual

/-- **The tests in the literal of a node are those of its leaves,** up to order. -/
theorem tests_literal?_perm (n : Node) :
    ((literal? n).toList.flatMap Literal.tests).Perm (n.leaves.filterMap literal?) := by
  obtain ⟨op, key, operand, subs⟩ := n
  cases op with
  | group j =>
    rw [tests_literal?_group]
    exact (tests_ofGroup_perm j subs).trans (tests_literals_perm subs)
  | _ => exact .of_eq (tests_literal?_of_leaf rfl)

theorem tests_literals_perm (ns : List Node) :
    ((literals ns).flatMap Literal.tests).Perm ((Node.leavesIn ns).filterMap literal?) := by
  cases ns with
  | nil => exact .refl _
  | cons n ns =>
    rw [literals, Node.leavesIn, List.flatMap_append, List.filterMap_append]
    exact (tests_literal?_perm n).append (tests_literals_perm ns)

end

/-! ### The bound of the paging -/

/-- The bound stands beside no alternatives: they are nested next to it. -/
theorem allNormal_withBound {clause : FilterClause} {f : Filter} (hc : clause.AllNormal)
    (h : f.isEmpty = false → f.AllNormal) : (withBound clause f).AllNormal := by
  have hone : ∀ c ∈ [clause], c.AllNormal := List.forall_mem_singleton.2 hc
  cases he : f.isEmpty with
  | true =>
    rw [eq_empty_of_isEmpty he]
    exact allNormal_must (List.cons_ne_nil _ _) hone
  | false =>
    unfold withBound
    split
    · next hs =>
      -- without alternatives the bound joins the conditions that are there
      obtain ⟨must, mustNot, should⟩ := f
      obtain rfl := List.isEmpty_iff.1 hs
      obtain ⟨hn, hmust, hnot, hshould⟩ := allNormal_iff.1 (h he)
      have ht : ∀ g, .nested g ∉ mustNot := by
        cases hn with
        | alternatives _ => nofun
        | conditions _ ht => exact ht
      exact allNormal_iff.2 ⟨.conditions (.inl (List.cons_ne_nil _ _)) ht,
        List.forall_mem_cons.2 ⟨hc, hmust⟩, hnot, hshould⟩
    · have hnested : FilterClause.AllNormal (.nested f) := h he
      exact allNormal_must (List.cons_ne_nil _ _)
        (List.forall_mem_cons.2 ⟨hc, List.forall_mem_singleton.2 hnested⟩)

theorem tests_withBound (clause : FilterClause) (f : Filter) :
    (withBound clause f).tests = clause.tests true ++ f.tests := by
  obtain ⟨must, mustNot, should⟩ := f
  unfold withBound
  split
  · simp [tests_mk]
  · simp [tests_mk, FilterClause.tests]

/-! ### JSON -/

theorem toJson_eq (must mustNot should : List FilterClause) :
    toJson ⟨must, mustNot, should⟩ =
      .object (parts (clausesToJson must) (clausesToJson mustNot) (clausesToJson should)) := by
  rw [toJson, ← parts, Json.ofEntries, insertEntries_of_increasing (increasing_parts _ _ _)]

/-- A list without clauses is left out. -/
theorem IsNormal.toJson {f : Filter} (h : f.IsNormal) : f.toJson.IsNormalFilter := by
  cases h with
  | @alternatives cs h =>
    rw [toJson_eq]
    match cs, h with
    | c :: d :: cs, _ => exact .should (by simp [clausesToJson])
  | @conditions cs ds h ht =>
    rw [toJson_eq]
    match cs, ds with
    | [], [] => simp at h
    | [], d :: ds => exact .mustNot (List.cons_ne_nil _ _)
    | c :: cs, [] => exact .must (List.cons_ne_nil _ _)
    | c :: cs, d :: ds => exact .both (List.cons_ne_nil _ _) (List.cons_ne_nil _ _)

end Filter

/-! ### Sets -/

/-- The set of a membership that is declared has a member. -/
theorem Node.Declared.any_ne_nil {n : Node} (h : n.Declared) {positive : Bool} {key : String}
    {js : List Json} (hn : Filter.literal? n = some ⟨positive, .field key (.any js)⟩) :
    js ≠ [] := by
  cases h with
  | membership m key hv =>
    obtain ⟨kept, rfl, hne, -⟩ := Value.of_asMembers hv
    obtain ⟨v, vs, rfl⟩ := List.exists_cons_of_ne_nil hne
    have hjs : js = Value.toJsonItems (v :: vs) := by cases m <;> cases hn <;> rfl
    exact hjs ▸ List.cons_ne_nil _ _
  | comparison c key hv => cases c <;> cases hn
  | null t key => cases t <;> cases hn
  | group j hs hc =>
    rw [Node.group, Filter.literal?_eq_ofGroup] at hn
    split at hn <;> cases hn
  | _ => cases hn

/-! ### Requests -/

namespace Request

theorem filterOf_eq (q : Query) :
    filterOf q = q.outline.bound?.elim (Filter.ofNodes q.conditions)
      fun b => (Filter.ofNodes q.conditions).withBound (Filter.boundClause b) := by
  rw [filterOf]
  cases q.outline.bound? <;> rfl

theorem allNormal_filterOf {q : Query} (hne : (filterOf q).isEmpty = false) :
    (filterOf q).AllNormal := by
  -- the level of the conditions is a group that all must hold of
  have hlevel (h : (Filter.ofNodes q.conditions).isEmpty = false) :
      (Filter.ofNodes q.conditions).AllNormal := by
    rw [← Filter.ofGroup_all] at h ⊢
    exact Filter.allNormal_ofGroup h (Filter.isNormal_of_mem_literals q.conditions)
  rw [filterOf_eq] at hne ⊢
  cases hb : q.outline.bound? with
  | none =>
    rw [hb] at hne
    exact hlevel hne
  | some b => exact Filter.allNormal_withBound nofun hlevel

theorem tests_filterOf_perm (q : Query) :
    (filterOf q).tests.Perm
      ((q.cursor?.toList ++ Node.leavesIn q.conditions).filterMap Filter.literal?) := by
  have hlevel : (Filter.ofNodes q.conditions).tests.Perm
      ((Node.leavesIn q.conditions).filterMap Filter.literal?) :=
    (Filter.tests_ofGroup_perm .all q.conditions).trans (Filter.tests_literals_perm q.conditions)
  rw [filterOf_eq, Query.cursor?]
  cases hb : q.outline.bound? with
  | none => exact hlevel
  | some b =>
    obtain ⟨comparison, field, value⟩ := b
    rw [List.filterMap_append, Option.elim, Filter.tests_withBound]
    refine List.Perm.append (.of_eq ?_) hlevel
    rcases Outline.comparison_of_bound? hb with rfl | rfl <;> rfl

end Request

namespace Query

theorem entry?_filter (q : Query) :
    q.toVectorJson.entry? "filter" =
      ((q.extensions.reverse.find? fun e => e.1 == "filter").map Prod.snd).or
        (if (Request.filterOf q).isEmpty then none else some (Request.filterOf q).toJson) := by
  obtain ⟨entries, hq, -, hentries⟩ := q.exists_toVectorJson_eq
  rw [hq, Json.entry?, hentries, Request.entryAt?_fields]
  rfl

/-- **Every filter of a request is in normal form.**  What stands under "filter" is the filter of
the conditions under the bound of the paging, unless it asks for nothing or an extension of that
name replaces it.  Each filter in it, at any depth, has at least two alternatives and nothing else,
or clauses that must hold and clauses that must not, the latter no filters.  Its tests are, up to
order, the literals of the bound and of the leaves; those directly under "must not" are those of the
nodes that deny a membership or a null.  The set of a membership that has been built has a member,
wherever its node stands. -/
theorem filter_isNormal (q : Query) :
    q.toVectorJson.entry? "filter" =
      ((q.extensions.reverse.find? fun e => e.1 == "filter").map Prod.snd).or
        (if (Request.filterOf q).isEmpty then none else some (Request.filterOf q).toJson) ∧
    ((Request.filterOf q).isEmpty = false →
      ∀ f ∈ (Request.filterOf q).filters, f.toJson.IsNormalFilter ∧ ∀ g, .nested g ∉ f.mustNot) ∧
    (Request.filterOf q).tests.Perm
      ((q.cursor?.toList ++ Node.leavesIn q.conditions).filterMap Filter.literal?) ∧
    (∀ n l, Filter.literal? n = some l →
      (l.positive = false ↔ n.op = .member .notIn ∨ n.op = .null .nonNull)) ∧
    ∀ criteria nodes, Node.build criteria = .ok nodes → ∀ n ∈ Node.walkAll nodes,
      ∀ positive key js, Filter.literal? n = some ⟨positive, .field key (.any js)⟩ → js ≠ [] := by
  refine ⟨q.entry?_filter, fun hne f hf => ?_, Request.tests_filterOf_perm q,
    fun n l hl => Filter.positive_of_literal? hl, fun criteria nodes hb n hn positive key js hl => ?_⟩
  · have hnormal := Request.allNormal_filterOf hne f hf
    refine ⟨hnormal.toJson, ?_⟩
    cases hnormal with
    | alternatives _ => nofun
    | conditions _ ht => exact ht
  · obtain ⟨-, rfl⟩ := Node.build_eq_ok_iff.1 hb
    have hd := Criterion.declared_addAll Draft.all_empty criteria
    exact (Node.Declared.walkAll _ hd n hn).any_ne_nil hl

/-- Alternatives under a bound, one of them a chain with a denied membership, one a denied
membership alone in a group, with a leaf between them that the backend does not translate. -/
theorem filter_isNormal_of_page :
    let criteria : List Criterion :=
      [.compare .eq "a" (.int 1), .member .notIn "b" (.list [.int 2, .null]), .or,
        .compare .ne "c" (.int 3), .group .any [.member .notIn "d" (.int 4)], .or,
        .null .nonNull "e"]
    let q (conditions : List Node) : Query :=
      { outline := { Outline.empty with
          sorts := [⟨"id", .desc⟩]
          page := some ⟨2, 10, some (.int 7)⟩ }
        sources := []
        conditions := conditions
        having := []
        ctes := []
        unions := [] }
    let denied : Node := .ofValue (.member .notIn) "b" (.list [.int 2])
    ∃ conditions, Node.build criteria = .ok conditions ∧ denied ∈ Node.walkAll conditions ∧
      Filter.literal? denied = some ⟨false, .field "b" (.any [.ofInt64 2])⟩ ∧
      (Request.filterOf (q conditions)).isEmpty = false ∧
      (Request.filterOf (q conditions)).filters.length = 6 ∧
      (∀ f ∈ (Request.filterOf (q conditions)).filters,
        f.toJson.IsNormalFilter ∧ ∀ g, .nested g ∉ f.mustNot) ∧
      (false = false ↔ denied.op = .member .notIn ∨ denied.op = .null .nonNull) ∧
      [Json.ofInt64 2] ≠ [] := by
  intro criteria q denied
  obtain ⟨conditions, hb, hmem, hl, hne, hlen⟩ :
      ∃ conditions, Node.build criteria = .ok conditions ∧ denied ∈ Node.walkAll conditions ∧
        Filter.literal? denied = some ⟨false, .field "b" (.any [.ofInt64 2])⟩ ∧
        (Request.filterOf (q conditions)).isEmpty = false ∧
        (Request.filterOf (q conditions)).filters.length = 6 :=
    ⟨_, rfl, .tail _ (.head _), rfl, rfl, rfl⟩
  obtain ⟨-, hnormal, -, hsign, hany⟩ := filter_isNormal (q conditions)
  exact ⟨conditions, hb, hmem, hl, hne, hlen, hnormal hne, hsign denied _ hl,
    hany criteria conditions hb denied hmem false "b" _ hl⟩

end Query

end QueryTree
