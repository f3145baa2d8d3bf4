import QueryTree.Query.Basic

/-!
# Pruning of condition trees

Nodes with certain operators are taken out of the trees of a query: out of its conditions, those on
the groups and those of joins, inside groups, and in the queries nested anywhere.  A group in which
nothing but bare "or"s is left goes with them; the bare "or"s themselves stay.

* `Query.Pruned` — a query from which any such nodes have been taken out.
* `Query.prune` — the query without any of them.
* `Query.pruned_prune` — the second is a case of the first.
-/

namespace QueryTree

/-! ### Some nodes -/

mutual

/-- The second level of a tree is the first one after some nodes have been taken out. -/
inductive Node.Pruned (p : Op → Bool) : List Node → List Node → Prop
  | nil : Node.Pruned p [] []
  /-- A node is taken out. -/
  | erased {n : Node} {ns ns' : List Node} (hn : p n.op = true) (h : Node.Pruned p ns ns') :
    Node.Pruned p (n :: ns) ns'
  /-- A group is taken out, because nothing but bare "or"s is left in it. -/
  | emptied {j : Junction} {key : String} {operand : Option Operand}
    {subs subs' ns ns' : List Node} (hs : Node.Pruned p subs subs')
    (hc : Node.hasContent subs' = false) (h : Node.Pruned p ns ns') :
    Node.Pruned p (⟨.group j, key, operand, subs⟩ :: ns) ns'
  /-- A group stays, with what is left in it. -/
  | group {j : Junction} {key : String} {operand : Option Operand}
    {subs subs' ns ns' : List Node} (hs : Node.Pruned p subs subs') (h : Node.Pruned p ns ns') :
    Node.Pruned p (⟨.group j, key, operand, subs⟩ :: ns) (⟨.group j, key, operand, subs'⟩ :: ns')
  /-- A node stays, with what is left of the query that it holds. -/
  | kept {op : Op} {key : String} {operand operand' : Option Operand} {subs ns ns' : List Node}
    (ho : Operand.Pruned p operand operand') (h : Node.Pruned p ns ns') :
    Node.Pruned p (⟨op, key, operand, subs⟩ :: ns) (⟨op, key, operand', subs⟩ :: ns')

/-- The second operand is the first one after some nodes have been taken out of the query that it
is. -/
inductive Operand.Pruned (p : Op → Bool) : Option Operand → Option Operand → Prop
  | same {operand : Option Operand} : Operand.Pruned p operand operand
  | query {q q' : Query} (h : Query.Pruned p q q') :
    Operand.Pruned p (some (.query q)) (some (.query q'))

/-- The second constraint is the first one after some nodes have been taken out of the condition
that it is. -/
inductive Constraint.Pruned (p : Op → Bool) : Option Constraint → Option Constraint → Prop
  | same {constraint : Option Constraint} : Constraint.Pruned p constraint constraint
  | condition {nodes nodes' : List Node} (h : Node.Pruned p nodes nodes') :
    Constraint.Pruned p (some (.condition nodes)) (some (.condition nodes'))

/-- The second sources are the first ones after some nodes have been taken out of their constraints
and of the queries among them. -/
inductive Source.Pruned (p : Op → Bool) : List Source → List Source → Prop
  | nil : Source.Pruned p [] []
  | table {name : String} {nickname : Option String} {join : Option Join}
    {constraint constraint' : Option Constraint} {rest rest' : List Source}
    (hc : Constraint.Pruned p constraint constraint') (h : Source.Pruned p rest rest') :
    Source.Pruned p (⟨name, nickname, join, constraint, none⟩ :: rest)
      (⟨name, nickname, join, constraint', none⟩ :: rest')
  | nested {name : String} {nickname : Option String} {join : Option Join}
    {constraint constraint' : Option Constraint} {q q' : Query} {rest rest' : List Source}
    (hc : Constraint.Pruned p constraint constraint') (hq : Query.Pruned p q q')
    (h : Source.Pruned p rest rest') :
    Source.Pruned p (⟨name, nickname, join, constraint, some q⟩ :: rest)
      (⟨name, nickname, join, constraint', some q'⟩ :: rest')

/-- The second named queries are the first ones after some nodes have been taken out. -/
inductive Cte.Pruned (p : Op → Bool) : List Cte → List Cte → Prop
  | nil : Cte.Pruned p [] []
  | cons {name : String} {recursive : Bool} {q q' : Query} {rest rest' : List Cte}
    (hq : Query.Pruned p q q') (h : Cte.Pruned p rest rest') :
    Cte.Pruned p (⟨name, recursive, q⟩ :: rest) (⟨name, recursive, q'⟩ :: rest')

/-- The second members of a union are the first ones after some nodes have been taken out. -/
inductive UnionMember.Pruned (p : Op → Bool) : List UnionMember → List UnionMember → Prop
  | nil : UnionMember.Pruned p [] []
  | cons {keepsDuplicates : Bool} {q q' : Query} {rest rest' : List UnionMember}
    (hq : Query.Pruned p q q') (h : UnionMember.Pruned p rest rest') :
    UnionMember.Pruned p (⟨keepsDuplicates, q⟩ :: rest) (⟨keepsDuplicates, q'⟩ :: rest')

/-- The second query is the first one after some nodes have been taken out. -/
inductive Query.Pruned (p : Op → Bool) : Query → Query → Prop
  | mk {outline : Outline} {sources sources' : List Source}
    {conditions conditions' having having' : List Node} {ctes ctes' : List Cte}
    {unions unions' : List UnionMember} (hs : Source.Pruned p sources sources')
    (hw : Node.Pruned p conditions conditions') (hh : Node.Pruned p having having')
    (hc : Cte.Pruned p ctes ctes') (hu : UnionMember.Pruned p unions unions') :
    Query.Pruned p ⟨outline, sources, conditions, having, ctes, unions⟩
      ⟨outline, sources', conditions', having', ctes', unions'⟩

end

/-! ### All nodes -/

mutual

/-- The level of a tree without any node with such an operator. -/
def Node.prune (p : Op → Bool) : List Node → List Node
  | [] => []
  | ⟨op, key, operand, subs⟩ :: ns =>
    if p op then Node.prune p ns
    else
      match op with
      | .group j =>
        if Node.hasContent (Node.prune p subs) then
          ⟨.group j, key, operand, Node.prune p subs⟩ :: Node.prune p ns
        else Node.prune p ns
      | op => ⟨op, key, Operand.prune p operand, subs⟩ :: Node.prune p ns

/-- The operand without any such node in the query that it is. -/
def Operand.prune (p : Op → Bool) : Option Operand → Option Operand
  | some (.query q) => some (.query (q.prune p))
  | operand => operand

/-- The constraint without any such node in the condition that it is. -/
def Constraint.prune (p : Op → Bool) : Option Constraint → Option Constraint
  | some (.condition nodes) => some (.condition (Node.prune p nodes))
  | constraint => constraint

/-- The query of a source without any such node. -/
def Query.pruneNested (p : Op → Bool) : Option Query → Option Query
  | some q => some (q.prune p)
  | none => none

/-- The sources without any such node in their constraints and in the queries among them. -/
def Source.prune (p : Op → Bool) : List Source → List Source
  | [] => []
  | ⟨name, nickname, join, constraint, nested⟩ :: rest =>
    ⟨name, nickname, join, Constraint.prune p constraint, Query.pruneNested p nested⟩ ::
      Source.prune p rest

/-- The named queries without any such node. -/
def Cte.prune (p : Op → Bool) : List Cte → List Cte
  | [] => []
  | ⟨name, recursive, q⟩ :: rest => ⟨name, recursive, q.prune p⟩ :: Cte.prune p rest

/-- The members of a union without any such node. -/
def UnionMember.prune (p : Op → Bool) : List UnionMember → List UnionMember
  | [] => []
  | ⟨keepsDuplicates, q⟩ :: rest => ⟨keepsDuplicates, q.prune p⟩ :: UnionMember.prune p rest

/-- The query without any node with such an operator. -/
def Query.prune (p : Op → Bool) : Query → Query
  | ⟨outline, sources, conditions, having, ctes, unions⟩ =>
    ⟨outline, Source.prune p sources, Node.prune p conditions, Node.prune p having,
      Cte.prune p ctes, UnionMember.prune p unions⟩

end

section

variable {p : Op → Bool}

theorem Node.prune_cons_group {j : Junction} {key : String} {operand : Option Operand}
    {subs ns : List Node} :
    prune p (⟨.group j, key, operand, subs⟩ :: ns) =
      if p (.group j) then prune p ns
      else if hasContent (prune p subs) then ⟨.group j, key, operand, prune p subs⟩ :: prune p ns
      else prune p ns := rfl

theorem Node.prune_cons_of_leaf {n : Node} {ns : List Node} (h : n.op.isGroup = false) :
    prune p (n :: ns) =
      if p n.op then prune p ns
      else { n with operand := Operand.prune p n.operand } :: prune p ns := by
  obtain ⟨op, key, operand, subs⟩ := n
  cases op with
  | group j => cases h
  | _ => rfl

mutual

theorem Node.pruned_prune (ns : List Node) : Node.Pruned p ns (Node.prune p ns) := by
  cases ns with
  | nil => exact .nil
  | cons n ns =>
    obtain ⟨op, key, operand, subs⟩ := n
    cases op with
    | group j =>
      rw [Node.prune_cons_group]
      split
      · -- a group that is not erased itself is pruned inside, and goes if nothing is left in it
        next hp => exact .erased hp (Node.pruned_prune ns)
      · split
        · exact .group (Node.pruned_prune subs) (Node.pruned_prune ns)
        · next hc =>
          exact .emptied (Node.pruned_prune subs) (eq_false_of_ne_true hc) (Node.pruned_prune ns)
    | _ =>
      rw [Node.prune_cons_of_leaf rfl]
      split
      · next hp => exact .erased hp (Node.pruned_prune ns)
      · exact .kept (Operand.pruned_prune operand) (Node.pruned_prune ns)

theorem Operand.pruned_prune (operand : Option Operand) :
    Operand.Pruned p operand (Operand.prune p operand) := by
  cases operand with
  | none => exact .same
  | some operand =>
    cases operand with
    | query q => exact .query (Query.pruned_prune q)
    | _ => exact .same

theorem Constraint.pruned_prune (constraint : Option Constraint) :
    Constraint.Pruned p constraint (Constraint.prune p constraint) := by
  cases constraint with
  | none => exact .same
  | some constraint =>
    cases constraint with
    | condition nodes => exact .condition (Node.pruned_prune nodes)
    | columns names => exact .same

theorem Source.pruned_prune (sources : List Source) :
    Source.Pruned p sources (Source.prune p sources) := by
  cases sources with
  | nil => exact .nil
  | cons s rest =>
    obtain ⟨name, nickname, join, constraint, nested⟩ := s
    cases nested with
    | none => exact .table (Constraint.pruned_prune constraint) (Source.pruned_prune rest)
    | some q =>
      exact .nested (Constraint.pruned_prune constraint) (Query.pruned_prune q)
        (Source.pruned_prune rest)

theorem Cte.pruned_prune (ctes : List Cte) : Cte.Pruned p ctes (Cte.prune p ctes) := by
  cases ctes with
  | nil => exact .nil
  | cons c rest =>
    obtain ⟨name, recursive, q⟩ := c
    exact .cons (Query.pruned_prune q) (Cte.pruned_prune rest)

theorem UnionMember.pruned_prune (unions : List UnionMember) :
    UnionMember.Pruned p unions (UnionMember.prune p unions) := by
  cases unions with
  | nil => exact .nil
  | cons u rest =>
    obtain ⟨keepsDuplicates, q⟩ := u
    exact .cons (Query.pruned_prune q) (UnionMember.pruned_prune rest)

theorem Query.pruned_prune (q : Query) : Query.Pruned p q (q.prune p) := by
  obtain ⟨outline, sources, conditions, having, ctes, unions⟩ := q
  exact .mk (Source.pruned_prune sources) (Node.pruned_prune conditions)
    (Node.pruned_prune having) (Cte.pruned_prune ctes) (UnionMember.pruned_prune unions)

end

end

end QueryTree
