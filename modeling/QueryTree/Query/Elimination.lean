import QueryTree.Query.Basic
import QueryTree.Text.Keyword

/-!
# Elimination of joins

A joined source is dropped when nothing in the query can refer to it.  The test is on the text
alone: a piece of text mentions a source if it contains one of the source's names followed by a
point.  Every doubt keeps the source.

* `Query.fragments` — the pieces of text that can refer to a source.
* `Query.neededSources` — the sources that stay, in order.
-/

namespace QueryTree

/-! ### Pieces of text -/

mutual

/-- The pieces of text of a query outside its list of sources. -/
def Query.fragments : Query → List String
  | ⟨outline, _, conditions, having, _, unions⟩ =>
    outline.results ++
      ((outline.aggregates.map Aggregate.column).filter fun c => !(c.isEmpty || c == "*")) ++
      outline.groupBy ++ outline.sorts.map SortKey.field ++
      Node.fragments conditions ++ Node.fragments having ++ UnionMember.fragments unions

/-- The pieces of text in the conditions of joins. -/
def Query.joinFragments : Query → List String
  | ⟨_, sources, _, _, _, _⟩ => Source.joinFragments sources

/-- The pieces of text in condition trees. -/
def Node.fragments : List Node → List String
  | [] => []
  | ⟨_, key, operand, subs⟩ :: rest =>
    (if key.isEmpty then [] else [key]) ++
      (match operand with
        | some (.query q) => q.fragments ++ q.joinFragments
        | _ => []) ++
      Node.fragments subs ++ Node.fragments rest

/-- The pieces of text in the conditions of the joins of some sources. -/
def Source.joinFragments : List Source → List String
  | [] => []
  | ⟨_, _, _, constraint, _⟩ :: rest =>
    (match constraint with
      | some (.condition nodes) => Node.fragments nodes
      | _ => []) ++
      Source.joinFragments rest

/-- The pieces of text of the members of a union. -/
def UnionMember.fragments : List UnionMember → List String
  | [] => []
  | ⟨_, q⟩ :: rest => q.fragments ++ UnionMember.fragments rest

end

/-! ### References -/

/-- A text without the marks that quote identifiers. -/
def unquote (s : String) : List Char :=
  s.toList.filter fun c => !(c == '"' || c == '\x60' || c == '[' || c == ']')

namespace Source

/-- The names of a source, unquoted; an empty name is none. -/
def names (s : Source) : List (List Char) :=
  (unquote s.name :: s.nickname.toList.map unquote).filter fun n => !n.isEmpty

/-- A piece of text mentions a source: one of its names occurs in it, followed by a point. -/
def isMentionedIn (s : Source) (fragment : String) : Bool :=
  s.names.any fun n => Text.occurs (n ++ ['.']) (unquote fragment)

/-- Only tables joined by inner and cross joins can be dropped. -/
def isCandidate (s : Source) : Bool :=
  match s.join with
  | some join => !join.isOuter && s.nested.isNone
  | none => false

/-- The pieces of text in a source that can refer to a source before it. -/
def backwardFragments (s : Source) : List String :=
  (match s.constraint with
    | some (.condition nodes) => Node.fragments nodes
    | _ => []) ++
    (match s.nested with
      | some q => q.fragments
      | none => [])

/-- The source is joined by columns, which belong to any source before it. -/
def joinsByColumns (s : Source) : Bool :=
  match s.constraint with
  | some (.columns _) => true
  | _ => false

/-- Something refers to the source, or may: a piece of text of the query or a later source. -/
def isReferenced (fragments : List String) (later : List Source) (s : Source) : Bool :=
  later.any (fun l => l.joinsByColumns || l.backwardFragments.any s.isMentionedIn) ||
    fragments.any s.isMentionedIn

/-- The sources that stay, judged from the last to the first: the sources behind one are those that
stay. -/
def needed (fragments : List String) : List Source → List Source
  | [] => []
  | s :: rest =>
    let later := needed fragments rest
    if s.isCandidate && !s.isReferenced fragments later then later else s :: later

end Source

/-! ### Elimination -/

/-- A piece of text without a point could refer to any source. -/
def isUnqualified (fragment : String) : Bool := !fragment.toList.contains '.'

/-- The sources that stay.  The first one always does, and all do if a piece of text could refer to
any of them. -/
def Query.neededSources (q : Query) : List Source :=
  match q.sources with
  | first :: second :: rest =>
    if q.fragments.any isUnqualified then q.sources
    else first :: Source.needed q.fragments (second :: rest)
  | sources => sources

end QueryTree
