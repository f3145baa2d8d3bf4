import QueryTree.Proofs.Condition.Rendering

/-!
# The style of marks

The clauses of a query are the same whatever way arguments are marked: the style of marks comes in
only when a whole statement is rendered.

* `Dialect.marking` — the dialect with another style of marking arguments.
* `Query.statement_marking` — the clauses do not depend on the style.
-/

namespace QueryTree

variable {d : Dialect} {p : Placeholder}

/-- The dialect with another style of marking arguments. -/
def Dialect.marking (d : Dialect) (p : Placeholder) : Dialect := { d with placeholder := p }

/-! ### Clauses -/

mutual

/-- **The clauses of a query do not depend on how arguments are marked.** -/
theorem Query.statement_marking (q : Query) : q.statement (d.marking p) = q.statement d := by
  obtain ⟨outline, sources, conditions, having, ctes, unions⟩ := q
  rw [Query.statement, Query.statement, ctePieces_marking ctes, sourcePieces_marking true sources,
    nodeLexemes_marking false false false conditions, nodeLexemes_marking false false false having,
    unionPieces_marking unions]

theorem ctePieces_marking (ctes : List Cte) : ctePieces (d.marking p) ctes = ctePieces d ctes := by
  cases ctes with
  | nil => rfl
  | cons c rest =>
    obtain ⟨name, recursive, q⟩ := c
    rw [ctePieces, ctePieces, Query.statement_marking q, ctePieces_marking rest]
    rfl

theorem referencePieces_marking (name : String) (nickname : Option String)
    (nested : Option Query) :
    referencePieces (d.marking p) name nickname nested =
      referencePieces d name nickname nested := by
  cases nested with
  | none => rfl
  | some q =>
    rw [referencePieces, referencePieces, Query.statement_marking q]
    rfl

theorem constraintPieces_marking (constraint : Option Constraint) :
    constraintPieces (d.marking p) constraint = constraintPieces d constraint := by
  cases constraint with
  | none => rfl
  | some c =>
    cases c with
    | condition nodes =>
      rw [constraintPieces, constraintPieces, nodeLexemes_marking false false false nodes]
    | columns names => rfl

theorem sourcePieces_marking (first : Bool) (sources : List Source) :
    sourcePieces (d.marking p) first sources = sourcePieces d first sources := by
  cases sources with
  | nil => rfl
  | cons s rest =>
    obtain ⟨name, nickname, join, constraint, nested⟩ := s
    rw [sourcePieces, sourcePieces, referencePieces_marking name nickname nested,
      constraintPieces_marking constraint, sourcePieces_marking false rest]

theorem unionPieces_marking (unions : List UnionMember) :
    unionPieces (d.marking p) unions = unionPieces d unions := by
  cases unions with
  | nil => rfl
  | cons u rest =>
    obtain ⟨keepsDuplicates, q⟩ := u
    rw [unionPieces, unionPieces, Query.statement_marking q, unionPieces_marking rest]
    rfl

theorem leafText_marking (op : Op) (key : String) (operand : Option Operand) :
    leafText (d.marking p) op key operand = leafText d op key operand := by
  by_cases ho : op = .subquery
  · subst ho
    cases operand with
    | none => rfl
    | some operand =>
      cases operand with
      | query q =>
        rw [leafText, leafText, Query.statement_marking q]
        rfl
      | _ => rfl
  · rw [leafText_of_ne_subquery ho, leafText_of_ne_subquery ho]
    rfl

theorem Node.lexemes_marking (n : Node) : n.lexemes (d.marking p) = n.lexemes d := by
  obtain ⟨op, key, operand, subs⟩ := n
  by_cases hg : op.isGroup = true
  · cases op with
    | group j =>
      rw [Node.lexemes_group, Node.lexemes_group,
        nodeLexemes_marking (j == .any) false false subs]
    | _ => cases hg
  · have hleaf := eq_false_of_ne_true hg
    rw [Node.lexemes_of_leaf hleaf, Node.lexemes_of_leaf hleaf, Node.text, Node.text,
      leafText_marking op key operand]

theorem nodeLexemes_marking (alternatives started pendingOr : Bool) (ns : List Node) :
    nodeLexemes (d.marking p) alternatives started pendingOr ns =
      nodeLexemes d alternatives started pendingOr ns := by
  cases ns with
  | nil => rfl
  | cons n ns =>
    rw [nodeLexemes, nodeLexemes, Node.lexemes_marking n,
      nodeLexemes_marking alternatives started true ns,
      nodeLexemes_marking alternatives started pendingOr ns,
      nodeLexemes_marking alternatives true false ns]

end

end QueryTree
