import QueryTree.Query.Elimination

/-!
# Texts of a query

All texts in a query that can refer to a source around it, at any depth, and those among them that
the elimination of joins does not collect.  It descends into the queries of predicates, but there
it passes over nested queries among the sources, over named queries in front, and over what stands
among the sources of the members of a union.

* `Query.texts`, `Node.texts` — all texts, at any depth.
* `Query.unseen`, `Node.unseen` — the texts that are passed over.
* `Node.mem_texts_iff` — the texts of conditions are those collected and those passed over.
-/

namespace QueryTree

/-! ### All texts -/

/-- The texts in the flat parts of a query. -/
def Outline.texts (o : Outline) : List String :=
  o.results ++ o.aggregates.map Aggregate.column ++ o.groupBy ++ o.sorts.map SortKey.field

mutual

/-- The texts of a query, at any depth. -/
def Query.texts : Query → List String
  | ⟨outline, sources, conditions, having, ctes, unions⟩ =>
    outline.texts ++ Node.texts conditions ++ Node.texts having ++ Source.texts sources ++
      Cte.texts ctes ++ UnionMember.texts unions

/-- The texts of condition trees, those of the queries in them included. -/
def Node.texts : List Node → List String
  | [] => []
  | ⟨_, key, operand, subs⟩ :: rest =>
    key :: operandTexts operand ++ Node.texts subs ++ Node.texts rest

/-- The texts of the query that a node may work on. -/
def operandTexts : Option Operand → List String
  | some (.query q) => q.texts
  | _ => []

/-- The texts of the constraints and the nested queries of some sources. -/
def Source.texts : List Source → List String
  | [] => []
  | ⟨_, _, _, constraint, nested⟩ :: rest =>
    constraintTexts constraint ++ nestedTexts nested ++ Source.texts rest

/-- The texts of a constraint. -/
def constraintTexts : Option Constraint → List String
  | some (.condition nodes) => Node.texts nodes
  | some (.columns names) => names
  | none => []

/-- The texts of a nested query. -/
def nestedTexts : Option Query → List String
  | some q => q.texts
  | none => []

/-- The texts of some named queries. -/
def Cte.texts : List Cte → List String
  | [] => []
  | ⟨_, _, q⟩ :: rest => q.texts ++ Cte.texts rest

/-- The texts of the members of a union. -/
def UnionMember.texts : List UnionMember → List String
  | [] => []
  | ⟨_, q⟩ :: rest => q.texts ++ UnionMember.texts rest

end

/-! ### Texts that are passed over -/

mutual

/-- The texts that are passed over in the query of a predicate. -/
def Query.unseen : Query → List String
  | ⟨_, sources, conditions, having, ctes, unions⟩ =>
    Node.unseen conditions ++ Node.unseen having ++ Source.unseen sources ++ Cte.texts ctes ++
      UnionMember.unseen unions

/-- The texts that are passed over in condition trees. -/
def Node.unseen : List Node → List String
  | [] => []
  | ⟨_, _, operand, subs⟩ :: rest =>
    operandUnseen operand ++ Node.unseen subs ++ Node.unseen rest

/-- The texts that are passed over in the query that a node may work on. -/
def operandUnseen : Option Operand → List String
  | some (.query q) => q.unseen
  | _ => []

/-- The texts that are passed over in the sources of the query of a predicate. -/
def Source.unseen : List Source → List String
  | [] => []
  | ⟨_, _, _, constraint, nested⟩ :: rest =>
    constraintUnseen constraint ++ nestedTexts nested ++ Source.unseen rest

/-- The texts that are passed over in a constraint. -/
def constraintUnseen : Option Constraint → List String
  | some (.condition nodes) => Node.unseen nodes
  | some (.columns names) => names
  | none => []

/-- The texts that are passed over in the members of a union. -/
def UnionMember.unseen : List UnionMember → List String
  | [] => []
  | ⟨_, q⟩ :: rest => q.unseenInUnion ++ UnionMember.unseen rest

/-- The texts that are passed over in a member of a union. -/
def Query.unseenInUnion : Query → List String
  | ⟨_, sources, conditions, having, ctes, unions⟩ =>
    Node.unseen conditions ++ Node.unseen having ++ Source.texts sources ++ Cte.texts ctes ++
      UnionMember.unseen unions

end

/-! ### Collected texts -/

/-- The pieces of text that are collected from the query that a node may work on. -/
def operandFragments : Option Operand → List String
  | some (.query q) => q.fragments ++ q.joinFragments
  | _ => []

/-- The pieces of text that are collected from a constraint. -/
def constraintFragments : Option Constraint → List String
  | some (.condition nodes) => Node.fragments nodes
  | _ => []

theorem Node.fragments_cons (op : Op) (key : String) (operand : Option Operand)
    (subs rest : List Node) :
    Node.fragments (⟨op, key, operand, subs⟩ :: rest) =
      (if key.isEmpty then [] else [key]) ++ operandFragments operand ++ Node.fragments subs ++
        Node.fragments rest := by
  cases operand with
  | none => rfl
  | some operand => cases operand <;> rfl

theorem Source.joinFragments_cons (name : String) (nickname : Option String) (join : Option Join)
    (constraint : Option Constraint) (nested : Option Query) (rest : List Source) :
    Source.joinFragments (⟨name, nickname, join, constraint, nested⟩ :: rest) =
      constraintFragments constraint ++ Source.joinFragments rest := by
  cases constraint with
  | none => rfl
  | some c => cases c <;> rfl

/-- A text that can refer to anything is neither empty nor a star. -/
def IsReference (t : String) : Prop := t ≠ "" ∧ t ≠ "*"

variable {t : String}

theorem Query.mem_fragments_iff (ht : IsReference t) (q : Query) :
    t ∈ q.fragments ↔ t ∈ q.outline.texts ∨ t ∈ Node.fragments q.conditions ∨
      t ∈ Node.fragments q.having ∨ t ∈ UnionMember.fragments q.unions := by
  obtain ⟨outline, sources, conditions, having, ctes, unions⟩ := q
  have ha : t ∈ (outline.aggregates.map Aggregate.column).filter
      (fun c => !(c.isEmpty || c == "*")) ↔ t ∈ outline.aggregates.map Aggregate.column := by
    simp [List.mem_filter, ht.1, ht.2]
  simp only [fragments, Outline.texts, List.mem_append, ha]
  exact iff_of_eq (by ac_rfl)

theorem mem_key_iff (ht : IsReference t) (key : String) :
    t ∈ (if key.isEmpty then [] else [key]) ↔ t = key := by
  split
  · next he =>
    rw [String.isEmpty_iff] at he
    simpa [he] using ht.1
  · exact List.mem_singleton

/-! ### Nothing else -/

mutual

/-- **The texts of the query of a predicate are those collected and those passed over.** -/
theorem Query.mem_texts_iff (ht : IsReference t) (q : Query) :
    t ∈ q.texts ↔ t ∈ q.fragments ∨ t ∈ q.joinFragments ∨ t ∈ q.unseen := by
  obtain ⟨outline, sources, conditions, having, ctes, unions⟩ := q
  rw [Query.mem_fragments_iff ht]
  simp only [Query.texts, Query.joinFragments, Query.unseen, List.mem_append,
    Node.mem_texts_iff ht conditions, Node.mem_texts_iff ht having, Source.mem_texts_iff ht sources,
    UnionMember.mem_texts_iff ht unions]
  exact iff_of_eq (by ac_rfl)

theorem Query.mem_texts_iff_of_union (ht : IsReference t) (q : Query) :
    t ∈ q.texts ↔ t ∈ q.fragments ∨ t ∈ q.unseenInUnion := by
  obtain ⟨outline, sources, conditions, having, ctes, unions⟩ := q
  rw [Query.mem_fragments_iff ht]
  simp only [Query.texts, Query.unseenInUnion, List.mem_append,
    Node.mem_texts_iff ht conditions, Node.mem_texts_iff ht having,
    UnionMember.mem_texts_iff ht unions]
  exact iff_of_eq (by ac_rfl)

theorem mem_operandTexts_iff (ht : IsReference t) (operand : Option Operand) :
    t ∈ operandTexts operand ↔ t ∈ operandFragments operand ∨ t ∈ operandUnseen operand := by
  cases operand with
  | none => simp [operandTexts, operandFragments, operandUnseen]
  | some operand =>
    cases operand with
    | query q =>
      have hq := Query.mem_texts_iff ht q
      rw [operandTexts, operandFragments, operandUnseen, List.mem_append, hq, or_assoc]
    | _ => simp [operandTexts, operandFragments, operandUnseen]

/-- **The texts of conditions are those collected and those passed over.** -/
theorem Node.mem_texts_iff (ht : IsReference t) (ns : List Node) :
    t ∈ Node.texts ns ↔ t ∈ Node.fragments ns ∨ t ∈ Node.unseen ns := by
  cases ns with
  | nil => simp [Node.texts, Node.fragments, Node.unseen]
  | cons n rest =>
    obtain ⟨op, key, operand, subs⟩ := n
    have ho := mem_operandTexts_iff ht operand
    have hs := Node.mem_texts_iff ht subs
    have hr := Node.mem_texts_iff ht rest
    rw [Node.texts, Node.fragments_cons, Node.unseen]
    simp only [List.mem_append, List.mem_cons, mem_key_iff ht, ho, hs, hr]
    -- both sides name the same places, in different orders
    exact iff_of_eq (by ac_rfl)

theorem mem_constraintTexts_iff (ht : IsReference t) (constraint : Option Constraint) :
    t ∈ constraintTexts constraint ↔
      t ∈ constraintFragments constraint ∨ t ∈ constraintUnseen constraint := by
  cases constraint with
  | none => simp [constraintTexts, constraintFragments, constraintUnseen]
  | some c =>
    cases c with
    | condition nodes => exact Node.mem_texts_iff ht nodes
    | columns names => simp [constraintTexts, constraintFragments, constraintUnseen]

theorem Source.mem_texts_iff (ht : IsReference t) (sources : List Source) :
    t ∈ Source.texts sources ↔ t ∈ Source.joinFragments sources ∨ t ∈ Source.unseen sources := by
  cases sources with
  | nil => simp [Source.texts, Source.joinFragments, Source.unseen]
  | cons s rest =>
    obtain ⟨name, nickname, join, constraint, nested⟩ := s
    have hc := mem_constraintTexts_iff ht constraint
    have hr := Source.mem_texts_iff ht rest
    rw [Source.texts, Source.joinFragments_cons, Source.unseen]
    simp only [List.mem_append, hc, hr]
    exact iff_of_eq (by ac_rfl)

theorem UnionMember.mem_texts_iff (ht : IsReference t) (unions : List UnionMember) :
    t ∈ UnionMember.texts unions ↔
      t ∈ UnionMember.fragments unions ∨ t ∈ UnionMember.unseen unions := by
  cases unions with
  | nil => simp [UnionMember.texts, UnionMember.fragments, UnionMember.unseen]
  | cons u rest =>
    obtain ⟨keepsDuplicates, q⟩ := u
    have hq := Query.mem_texts_iff_of_union ht q
    have hr := UnionMember.mem_texts_iff ht rest
    simp only [UnionMember.texts, UnionMember.fragments, UnionMember.unseen, List.mem_append, hq,
      hr]
    exact iff_of_eq (by ac_rfl)

end

end QueryTree
