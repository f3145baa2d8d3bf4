import QueryTree.Proofs.Arguments.Layout

/-!
# Slots of statements

Where the arguments of a statement belong, said without its text: each predicate, assignment, mark
of a raw piece of text, vector and threshold has a slot, and the slots come in the order in which
the clauses of a statement do.  Beside them stands what is asked of the texts in a query: marks only
in raw pieces of text, one for each of their arguments.

* `leafSlots`, `nodeSlots`, `Query.slots` — the slots of conditions and of queries.
* `Insert.slots`, `Update.slots`, `Delete.slots` — the slots of writes.
* `Query.isPlain`, `Insert.isPlain`, `Update.isPlain`, `Delete.isPlain` — what is asked of texts.
-/

namespace QueryTree

/-! ### Slots of conditions -/

/-- The slots of a raw piece of text: each of its marks is the place of one argument. -/
def rawSlots (text : String) (vs : List Value) : List Slot :=
  List.zipWith (fun lead v => ⟨String.ofList lead, v⟩) (Marks.leads [] text.toList) vs

/-- The slot behind a left-hand side and an operator. -/
def operandSlot (key symbol : String) (v : Value) : Slot := ⟨key ++ " " ++ symbol ++ " ", v⟩

/-- The slots of a node that is no group and holds no query. -/
def leafSlots (op : Op) (key : String) (operand : Option Operand) : List Slot :=
  match op, operand with
  | .compare c, some (.value v) => [operandSlot key c.symbol v]
  | .pattern p, some (.value v) => [operandSlot key (Op.pattern p).symbol v]
  | .raw, some (.args vs) => rawSlots key vs
  | .distance, some (.distance bound) =>
    [operandSlot key bound.metric.operator (.vector bound.vector),
      ⟨" < ", .ofSingle bound.threshold⟩]
  | _, _ => []

/-- The slot of the bound of the paging. -/
def boundSlots (o : Outline) : List Slot :=
  o.bound?.toList.map fun b => operandSlot b.field b.comparison.symbol b.value

mutual

/-- The slots of a query. -/
def Query.slots : Query → List Slot
  | ⟨outline, sources, conditions, having, ctes, unions⟩ =>
    cteSlots ctes ++ sourceSlots sources ++ boundSlots outline ++ nodeSlots conditions ++
      nodeSlots having ++ unionSlots unions

/-- The slots of the named queries in front. -/
def cteSlots : List Cte → List Slot
  | [] => []
  | ⟨_, _, q⟩ :: rest => q.slots ++ cteSlots rest

/-- The slots of a nested query. -/
def nestedSlots : Option Query → List Slot
  | some q => q.slots
  | none => []

/-- The slots of the constraint of a join. -/
def constraintSlots : Option Constraint → List Slot
  | some (.condition nodes) => nodeSlots nodes
  | _ => []

/-- The slots of the sources; only a join that is no list has a constraint. -/
def sourceSlots : List Source → List Slot
  | [] => []
  | ⟨_, _, join, constraint, nested⟩ :: rest =>
    nestedSlots nested ++ (if join.all (· == .comma) then [] else constraintSlots constraint) ++
      sourceSlots rest

/-- The slots of the further members of a union. -/
def unionSlots : List UnionMember → List Slot
  | [] => []
  | ⟨_, q⟩ :: rest => q.slots ++ unionSlots rest

/-- The slots of a node. -/
def Node.slots : Node → List Slot
  | ⟨op, key, operand, subs⟩ =>
    match op, operand with
    | .group _, _ => nodeSlots subs
    | .subquery, some (.query q) => q.slots
    | op, operand => leafSlots op key operand

/-- The slots of one level of a condition tree. -/
def nodeSlots : List Node → List Slot
  | [] => []
  | n :: ns => n.slots ++ nodeSlots ns

end

namespace Query

/-- The slots of the statement that gives the number of rows, where the bound is left out. -/
def countSlots (q : Query) : List Slot :=
  cteSlots q.ctes ++ sourceSlots q.sources ++ nodeSlots q.conditions ++ nodeSlots q.having ++
    unionSlots q.unions

/-- The slots of the statement that gives the rows nearest to the vector of a search; the vector
stands in the select list. -/
def searchSlots (q : Query) (field : String) (search : Search) : List Slot :=
  cteSlots q.ctes ++ [operandSlot field search.metric.operator (.vector search.vector)] ++
    sourceSlots q.sources ++ boundSlots q.outline ++ nodeSlots q.conditions ++
    nodeSlots q.having ++ unionSlots q.unions

end Query

/-! ### Slots of writes -/

/-- The slots of a list of values, in front of which `before` stands. -/
def valueSlots (before : String) : List Assignment → List Slot
  | [] => []
  | ⟨_, .value v⟩ :: rest => ⟨before, v⟩ :: valueSlots ", " rest
  | ⟨_, .null⟩ :: rest => valueSlots (before ++ "NULL" ++ ", ") rest
  | ⟨_, .expression text⟩ :: rest => valueSlots (before ++ text ++ ", ") rest

/-- The slot of an assignment in an update. -/
def Assignment.slots : Assignment → List Slot
  | ⟨column, .value v⟩ => [⟨column ++ " = ", v⟩]
  | _ => []

/-- The slots of an insertion. -/
def Insert.slots (i : Insert) : List Slot := valueSlots " VALUES (" i.assignments

/-- The slots of an update. -/
def Update.slots (u : Update) : List Slot :=
  u.assignments.flatMap Assignment.slots ++ nodeSlots u.conditions

/-- The slots of a deletion. -/
def Delete.slots (x : Delete) : List Slot := nodeSlots x.conditions

/-! ### What is asked of texts -/

/-- A raw piece of text has no dollar sign and one question mark for each argument; if `spaced`
holds, no digit stands directly behind a question mark. -/
def isPlainRaw (spaced : Bool) (text : String) (vs : List Value) : Bool :=
  !text.toList.contains '$' && text.toList.count '?' == vs.length &&
    (!spaced || Marks.apart text.toList)

/-- The texts in the flat parts of a query are plain. -/
def Outline.isPlain (o : Outline) : Bool :=
  o.results.all Text.isPlain &&
    o.aggregates.all (fun a => Text.isPlain a.column && a.label.all Text.isPlain) &&
    o.groupBy.all Text.isPlain && o.sorts.all fun s => Text.isPlain s.field

mutual

/-- All texts in a query are plain, raw pieces of text aside. -/
def Query.isPlain (spaced : Bool) : Query → Bool
  | ⟨outline, sources, conditions, having, ctes, unions⟩ =>
    outline.isPlain && arePlainSources spaced sources && arePlainNodes spaced conditions &&
      arePlainNodes spaced having && arePlainCtes spaced ctes && arePlainUnions spaced unions

/-- All texts in some named queries are plain. -/
def arePlainCtes (spaced : Bool) : List Cte → Bool
  | [] => true
  | ⟨name, _, q⟩ :: rest => Text.isPlain name && q.isPlain spaced && arePlainCtes spaced rest

/-- All texts in a nested query are plain. -/
def isPlainNested (spaced : Bool) : Option Query → Bool
  | some q => q.isPlain spaced
  | none => true

/-- All texts in the constraint of a join are plain. -/
def isPlainConstraint (spaced : Bool) : Option Constraint → Bool
  | some (.condition nodes) => arePlainNodes spaced nodes
  | some (.columns names) => names.all Text.isPlain
  | none => true

/-- All texts in some sources are plain. -/
def arePlainSources (spaced : Bool) : List Source → Bool
  | [] => true
  | ⟨name, nickname, _, constraint, nested⟩ :: rest =>
    Text.isPlain name && nickname.all Text.isPlain && isPlainConstraint spaced constraint &&
      isPlainNested spaced nested && arePlainSources spaced rest

/-- All texts in the further members of a union are plain. -/
def arePlainUnions (spaced : Bool) : List UnionMember → Bool
  | [] => true
  | ⟨_, q⟩ :: rest => q.isPlain spaced && arePlainUnions spaced rest

/-- All texts in a node are plain, raw pieces of text aside. -/
def Node.isPlain (spaced : Bool) : Node → Bool
  | ⟨op, key, operand, subs⟩ =>
    (match op, operand with
      | .raw, some (.args vs) => isPlainRaw spaced key vs
      | .member _, some (.value v) => Text.isPlain key && v.isPlain
      | .subquery, some (.query q) => Text.isPlain key && q.isPlain spaced
      | _, _ => Text.isPlain key) && arePlainNodes spaced subs

/-- All texts in one level of a condition tree are plain, raw pieces of text aside. -/
def arePlainNodes (spaced : Bool) : List Node → Bool
  | [] => true
  | n :: ns => n.isPlain spaced && arePlainNodes spaced ns

end

/-- The texts in some assignments are plain. -/
def arePlainAssignments (assignments : List Assignment) : Bool :=
  assignments.all fun a =>
    Text.isPlain a.column &&
      match a.assigned with
      | .expression text => Text.isPlain text
      | _ => true

/-- All texts in an insertion are plain. -/
def Insert.isPlain (i : Insert) : Bool := Text.isPlain i.table && arePlainAssignments i.assignments

/-- All texts in an update are plain, raw pieces of text aside. -/
def Update.isPlain (spaced : Bool) (u : Update) : Bool :=
  Text.isPlain u.table && arePlainAssignments u.assignments && arePlainNodes spaced u.conditions

/-- All texts in a deletion are plain, raw pieces of text aside. -/
def Delete.isPlain (spaced : Bool) (x : Delete) : Bool :=
  Text.isPlain x.table && arePlainNodes spaced x.conditions

/-- The escape character of patterns is neither a question mark nor a dollar sign. -/
def Dialect.isPlain (d : Dialect) : Bool := d.likeEscape.all isPlainChar

end QueryTree
