import QueryTree.Proofs.Condition.Meaning
import QueryTree.Proofs.Similarity.Reading

/-!
# Filters of condition trees

The filter of a condition tree is collected in one pass over each level: literals are put into
chains, and a bare "or" starts a new chain.  What the filter says is what the tree means, as long as
leaves without a literal count as vanished.

* `Literal.holds`, `Filter.truth?` — the truth values of literals and of filters that say something.
* `Filter.truth?_ofChains_of_started` — what one pass adds to the chains is what the level adds to
  its truth.
* `Node.filtered`, `Filter.truth?_ofNodes` — the filter of a node and of a level.
-/

namespace QueryTree

variable {α : Atom → Bool}

/-! ### Literals -/

/-- Whether what a literal asks for is the case. -/
def Literal.holds (α : Atom → Bool) (l : Literal) : Bool :=
  if l.positive then l.clause.holds α else !l.clause.holds α

theorem Literal.holds_toClause (l : Literal) : l.toClause.holds α = l.holds α := by
  obtain ⟨positive, clause⟩ := l
  cases positive with
  | true => rfl
  | false => simp [toClause, holds, FilterClause.holds, Filter.holds_mk]

namespace Filter

/-- The truth value of a filter; one that asks for nothing has none. -/
def truth? (α : Atom → Bool) (f : Filter) : Option Bool :=
  if f.isEmpty then none else some (f.holds α)

theorem holds_eq_getD_truth? (f : Filter) : f.holds α = (f.truth? α).getD true := by
  unfold truth?
  split
  · next h => exact holds_of_isEmpty h
  · rfl

theorem map_holds_nested (f : Filter) :
    (if f.isEmpty then none else some (⟨true, .nested f⟩ : Literal)).map (Literal.holds α) =
      f.truth? α := by
  unfold truth?
  split <;> rfl

theorem holds_all (ls : List Literal) : (all ls).holds α = ls.all (Literal.holds α) := by
  rw [all, holds_mk, List.isEmpty_nil, Bool.true_or, Bool.and_true]
  induction ls with
  | nil => rfl
  | cons l ls ih =>
    rw [List.all_cons, ← ih, Literal.holds]
    cases hl : l.positive <;>
      simp [hl, Bool.and_assoc, Bool.and_left_comm]

theorem isEmpty_all (ls : List Literal) : (all ls).isEmpty = ls.isEmpty := by
  cases ls with
  | nil => rfl
  | cons l ls => cases hl : l.positive <;> simp [all, isEmpty, hl]

theorem truth?_any (ls : List Literal) :
    truth? α (any ls) = if ls.isEmpty then none else some (ls.any (Literal.holds α)) := by
  match ls with
  | [] => rfl
  | [l] => simp [any, truth?, isEmpty, holds_mk, Literal.holds_toClause]
  | l :: m :: ls =>
    simp [any, truth?, isEmpty, holds_mk, Literal.holds_toClause, Function.comp_def]

/-! ### Chains -/

theorem holds_chainClause (ls : List Literal) :
    (chainClause ls).holds α = ls.all (Literal.holds α) := by
  unfold chainClause
  split
  · simp [Literal.holds_toClause]
  · rw [FilterClause.holds, holds_all]

theorem holds_anyChain {chains : List (List Literal)} (h : chains ≠ []) :
    (anyChain chains).holds α = chains.any fun ls => ls.all (Literal.holds α) := by
  match chains with
  | [ls] => simp [anyChain, holds_all]
  | ls :: ms :: chains => simp [anyChain, holds_mk, holds_chainClause, Function.comp_def]

/-- What is known of a level when some chains of it have been collected, the open one first. -/
def running (α : Atom → Bool) (chain : List Literal) (done : List (List Literal)) : Running :=
  ⟨done.any fun ls => ls.all (Literal.holds α), chain.all (Literal.holds α)⟩

theorem running_addToChains (separate : Bool) (l : Literal) (chain : List Literal)
    (done : List (List Literal)) :
    ∃ chain' done', addToChains separate l (chain :: done) = chain' :: done' ∧
      running α chain' done' = (running α chain done).next separate (l.holds α) := by
  cases separate with
  | true =>
    refine ⟨[l], chain :: done, rfl, ?_⟩
    simp [running, Running.next, Running.truth, Bool.or_comm]
  | false =>
    refine ⟨l :: chain, done, rfl, ?_⟩
    simp [running, Running.next, Bool.and_comm]

/-- The chains have members. -/
def Filled (chains : List (List Literal)) : Prop := ∀ ls ∈ chains, ls ≠ []

theorem Filled.addToChains {chains : List (List Literal)} (h : Filled chains) (separate : Bool)
    (l : Literal) : Filled (addToChains separate l chains) := by
  intro ls hls
  cases chains with
  | nil => simp_all [Filter.addToChains]
  | cons chain chains =>
    cases separate with
    | true =>
      rcases List.mem_cons.1 hls with rfl | hls
      · exact List.cons_ne_nil _ _
      · exact h ls hls
    | false =>
      rcases List.mem_cons.1 hls with rfl | hls
      · exact List.cons_ne_nil _ _
      · exact h ls (List.mem_cons_of_mem _ hls)

theorem truth?_ofChains {chain : List Literal} {done : List (List Literal)}
    (h : Filled (chain :: done)) :
    truth? α (ofChains (chain :: done)) = some (running α chain done).truth := by
  have hne : ((chain :: done).map List.reverse).reverse ≠ [] := by simp
  -- a single chain has a literal, and several chains are alternatives
  have hempty : (ofChains (chain :: done)).isEmpty = false := by
    cases done with
    | nil =>
      have hc : chain ≠ [] := h chain List.mem_cons_self
      simpa [ofChains, anyChain, isEmpty_all] using hc
    | cons ms done =>
      have hl : 2 ≤ (((chain :: ms :: done).map List.reverse).reverse).length := by simp
      unfold ofChains
      match ((chain :: ms :: done).map List.reverse).reverse, hl with
      | ls :: ms :: chains, _ => simp [anyChain, isEmpty]
  rw [truth?, hempty, if_neg Bool.false_ne_true, ofChains, holds_anyChain hne]
  simp [running, Running.truth, Function.comp_def, Bool.or_comm]

/-! ### Levels -/

end Filter

/-- The truth value of a leaf that has a literal. -/
def Node.filterTruth? (α : Atom → Bool) (n : Node) : Option Bool :=
  (Filter.leaf? n.op n.key n.operand).map (Literal.holds α)

/-- The literal of a node has the truth value of the node. -/
def Node.Filtered (α : Atom → Bool) (n : Node) : Prop :=
  (Filter.literal? n).map (Literal.holds α) = n.meaning (filterTruth? α)

namespace Node.Filtered

variable {n : Node}

theorem meaning_eq_none (h : n.Filtered α) (hl : Filter.literal? n = none) :
    n.meaning (filterTruth? α) = none := by
  rw [Filtered, hl] at h
  exact h.symm

theorem meaning_eq_some {l : Literal} (h : n.Filtered α) (hl : Filter.literal? n = some l) :
    n.meaning (filterTruth? α) = some (l.holds α) := by
  rw [Filtered, hl] at h
  exact h.symm

end Node.Filtered

namespace Filter

theorem chains_cons (done : List (List Literal)) (pendingOr : Bool) (n : Node) (ns : List Node) :
    chains done pendingOr (n :: ns) =
      if n.isConnective then chains done true ns
      else
        match literal? n with
        | none => chains done pendingOr ns
        | some l => chains (addToChains (pendingOr && !n.op.isGroup) l done) false ns := rfl

theorem literal?_of_isConnective {n : Node} (h : n.isConnective = true) :
    literal? n = none := by
  rw [Node.eq_orMark_of_isConnective h]
  rfl

variable {ns : List Node}

/-- What one pass adds to the chains is what the level adds to its truth. -/
theorem truth?_ofChains_of_started (h : ∀ n ∈ ns, n.Filtered α) {chain : List Literal}
    {done : List (List Literal)} (hf : Filled (chain :: done)) (pendingOr : Bool)
    (passed : List Sibling) (hp : passed.any Sibling.isMark = pendingOr) :
    truth? α (ofChains (chains (chain :: done) pendingOr ns)) =
      some ((running α chain done).afterAll false
        (Node.standing (Node.filterTruth? α) passed ns)).truth := by
  induction ns generalizing chain done pendingOr passed with
  | nil => exact truth?_ofChains hf
  | cons n ns ih =>
    have hs : ∀ m ∈ ns, m.Filtered α := fun m hm => h m (List.mem_cons_of_mem _ hm)
    have hn := h n List.mem_cons_self
    rw [chains_cons]
    by_cases hc : n.isConnective = true
    · rw [if_pos hc,
        Node.standing_cons_of_none (hn.meaning_eq_none (literal?_of_isConnective hc))]
      exact ih hs hf true _ (by simp [hc])
    · rw [if_neg hc]
      cases hl : literal? n with
      | none =>
        rw [Node.standing_cons_of_none (hn.meaning_eq_none hl)]
        exact ih hs hf pendingOr _ (by simp [hc, hp])
      | some l =>
        -- the literal goes into the open chain, or opens one behind a bare "or"
        obtain ⟨chain', done', he, hr⟩ :=
          running_addToChains (α := α) (pendingOr && !n.op.isGroup) l chain done
        have hf' := hf.addToChains (pendingOr && !n.op.isGroup) l
        rw [he] at hf'
        simp only [he]
        rw [Node.standing_cons_of_some (hn.meaning_eq_some hl), ih hs hf' false [] rfl, hr, hp,
          Running.afterAll, Running.afterAll, List.foldl_cons, Bool.and_comm pendingOr,
          Bool.false_or]

/-- The chains of a level whose nodes before some point all vanish. -/
theorem truth?_ofChains_chains (h : ∀ n ∈ ns, n.Filtered α) (pendingOr : Bool)
    (passed : List Sibling) :
    truth? α (ofChains (chains [] pendingOr ns)) =
      Standing.meaning false (Node.standing (Node.filterTruth? α) passed ns) := by
  induction ns generalizing pendingOr passed with
  | nil => rfl
  | cons n ns ih =>
    have hs : ∀ m ∈ ns, m.Filtered α := fun m hm => h m (List.mem_cons_of_mem _ hm)
    have hn := h n List.mem_cons_self
    rw [chains_cons]
    by_cases hc : n.isConnective = true
    · rw [if_pos hc,
        Node.standing_cons_of_none (hn.meaning_eq_none (literal?_of_isConnective hc))]
      exact ih hs true _
    · rw [if_neg hc]
      cases hl : literal? n with
      | none =>
        rw [Node.standing_cons_of_none (hn.meaning_eq_none hl)]
        exact ih hs pendingOr _
      | some l =>
        -- the first literal opens the first chain, whatever the flag says
        have hf : Filled [[l]] := by simp [Filled]
        rw [Node.standing_cons_of_some (hn.meaning_eq_some hl), Standing.meaning_cons]
        refine (truth?_ofChains_of_started hs hf false [] rfl).trans ?_
        simp [running]

theorem truth?_any_literals (h : ∀ n ∈ ns, n.Filtered α) :
    truth? α (any (literals ns)) =
      Sibling.meaning true (Node.siblings (Node.filterTruth? α) ns) := by
  -- the literals are worth what the nodes are that do not vanish, in the same order
  have hl : (literals ns).map (Literal.holds α) =
      (Node.standing (Node.filterTruth? α) [] ns).map Standing.truth := by
    generalize ([] : List Sibling) = passed
    induction ns generalizing passed with
    | nil => rfl
    | cons n ns ih =>
      have hs : ∀ m ∈ ns, m.Filtered α := fun m hm => h m (List.mem_cons_of_mem _ hm)
      have hn := h n List.mem_cons_self
      rw [literals, List.map_append]
      cases hl : literal? n with
      | none =>
        rw [Node.standing_cons_of_none (hn.meaning_eq_none hl)]
        exact ih hs _
      | some l =>
        rw [Node.standing_cons_of_some (hn.meaning_eq_some hl), List.map_cons, ← ih hs]
        rfl
  have hany : (literals ns).any (Literal.holds α) =
      (Node.standing (Node.filterTruth? α) [] ns).any Standing.truth := by
    have := congrArg (List.any · id) hl
    simpa [Function.comp_def] using this
  have hempty : (literals ns).isEmpty =
      (Node.standing (Node.filterTruth? α) [] ns).isEmpty := by
    simpa using congrArg List.isEmpty hl
  rw [truth?_any, Sibling.meaning, Standing.meaning, ← Node.standing, hany, hempty, if_pos rfl]

end Filter

/-! ### Trees -/

namespace Node

theorem filtered_group {j : Junction} {key : String} {operand : Option Operand}
    {subs : List Node} (h : ∀ n ∈ subs, n.Filtered α) :
    Filtered α ⟨.group j, key, operand, subs⟩ := by
  have hf : Filter.truth? α (if j == .any then Filter.any (Filter.literals subs)
      else Filter.ofChains (Filter.chains [] false subs)) =
      Sibling.meaning (j == .any) (siblings (filterTruth? α) subs) := by
    cases j with
    | any => exact Filter.truth?_any_literals h
    | all => exact Filter.truth?_ofChains_chains h false []
  exact (Filter.map_holds_nested _).trans hf

mutual

/-- **The literal of a node has the truth value of the node.** -/
theorem filtered (α : Atom → Bool) (n : Node) : n.Filtered α := by
  obtain ⟨op, key, operand, subs⟩ := n
  cases op with
  | group j => exact filtered_group (filtered_of_mem α subs)
  | _ => rfl

theorem filtered_of_mem (α : Atom → Bool) (ns : List Node) : ∀ n ∈ ns, n.Filtered α := by
  cases ns with
  | nil => simp
  | cons n ns =>
    intro m hm
    rcases List.mem_cons.1 hm with hm | hm
    · exact hm ▸ filtered α n
    · exact filtered_of_mem α ns m hm

end

end Node

/-- **The filter of a level has the truth value of the level.** -/
theorem Filter.truth?_ofNodes (α : Atom → Bool) (ns : List Node) :
    truth? α (ofNodes ns) = Sibling.meaning false (Node.siblings (Node.filterTruth? α) ns) :=
  truth?_ofChains_chains (Node.filtered_of_mem α ns) false []

end QueryTree
