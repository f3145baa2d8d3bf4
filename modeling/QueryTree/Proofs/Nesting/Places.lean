import QueryTree.Proofs.Join.Constraint
import QueryTree.Sql.Mutation

/-!
# Places of nested queries

A query can stand in another one at many places, and at any depth.  Whatever query it is, what is
written around it stays the same.

* `Node.Place`, `Query.Place` — a place directly in a condition tree, and in a query.
* `Surrounds` — a part that varies, and a whole that only varies with it.
* `Node.Place.surrounds`, `Query.Place.surrounds` — one step: a level of conditions, and a
  statement, around the query in a place.
* `Query.Place.statement_fill` — the one place where a query is not written at all: the condition
  of a join that is written without one.
* `Query.surrounds_fillAll` — places in places.
-/

namespace QueryTree

/-! ### Places -/

/-- A place for a query on a level of a condition tree: behind the left-hand side of a node, or
deeper, on the level inside a group. -/
inductive Node.Place where
  | operand (before : List Node) (key : String) (subs behind : List Node)
  | member (before : List Node) (j : Junction) (key : String) (o : Option Operand)
    (inner : Node.Place) (behind : List Node)

/-- The level with a query in the place. -/
def Node.Place.fill (q : Query) : Node.Place → List Node
  | operand before key subs behind => before ++ ⟨.subquery, key, some (.query q), subs⟩ :: behind
  | member before j key o inner behind => before ++ ⟨.group j, key, o, inner.fill q⟩ :: behind

/-- A place for a query directly in another one, its host. -/
inductive Query.Place where
  /-- As a named query. -/
  | cte (host : Query) (before : List Cte) (c : Cte) (behind : List Cte)
  /-- As a source. -/
  | source (host : Query) (before : List Source) (s : Source) (behind : List Source)
  /-- In the condition of a join. -/
  | on (host : Query) (before : List Source) (s : Source) (place : Node.Place)
    (behind : List Source)
  /-- In the conditions on the rows. -/
  | condition (host : Query) (place : Node.Place)
  /-- In the conditions on the groups. -/
  | having (host : Query) (place : Node.Place)
  /-- As a member of the union. -/
  | union (host : Query) (before : List UnionMember) (u : UnionMember)
    (behind : List UnionMember)

namespace Query

/-- The host with a query in the place. -/
def Place.fill (q : Query) : Place → Query
  | cte host before c behind => { host with ctes := before ++ { c with query := q } :: behind }
  | source host before s behind =>
    { host with sources := before ++ { s with nested := some q } :: behind }
  | on host before s place behind =>
    { host with
      sources := before ++ { s with constraint := some (.condition (place.fill q)) } :: behind }
  | condition host place => { host with conditions := place.fill q }
  | having host place => { host with having := place.fill q }
  | union host before u behind =>
    { host with unions := before ++ { u with query := q } :: behind }

/-- Whether what stands in the place is written.  A source without join and one behind a comma are
written without a condition. -/
def Place.isWritten : Place → Bool
  | on _ _ s _ _ => s.join.any fun j => j != .comma
  | _ => true

/-- A query in a place in a place, and so on, the outermost first. -/
def fillAll (places : List Place) (q : Query) : Query := places.foldr (fun p q => p.fill q) q

/-- The query as it is written, wherever it stands. -/
def pieces (d : Dialect) (q : Query) : Fragment := (q.statement d).plain d.pagination

end Query

/-! ### Surroundings -/

/-- Around the part of a list that varies, the rest stays as it is. -/
def Surrounds {ι α : Type} (core whole : ι → List α) : Prop :=
  ∃ before behind, ∀ i, whole i = before ++ core i ++ behind

namespace Surrounds

variable {ι α β : Type} {core middle whole : ι → List α}

theorem refl (core : ι → List α) : Surrounds core core := ⟨[], [], fun i => by simp⟩

theorem trans (h : Surrounds core middle) (h' : Surrounds middle whole) : Surrounds core whole := by
  obtain ⟨before, behind, h⟩ := h
  obtain ⟨before', behind', h'⟩ := h'
  refine ⟨before' ++ before, behind ++ behind', fun i => ?_⟩
  rw [h', h]
  simp only [List.append_assoc]

theorem comp {κ : Type} (h : Surrounds core whole) (g : κ → ι) :
    Surrounds (fun k => core (g k)) fun k => whole (g k) := by
  obtain ⟨before, behind, h⟩ := h
  exact ⟨before, behind, fun k => h (g k)⟩

theorem congr (h : Surrounds core whole) {i j : ι} (hc : core i = core j) : whole i = whole j := by
  obtain ⟨before, behind, h⟩ := h
  rw [h, h, hc]

theorem append_left (before : List α) (h : Surrounds core whole) :
    Surrounds core fun i => before ++ whole i :=
  h.trans ⟨before, [], fun _ => (List.append_nil _).symm⟩

theorem append_right (behind : List α) (h : Surrounds core whole) :
    Surrounds core fun i => whole i ++ behind :=
  h.trans ⟨[], behind, fun _ => rfl⟩

theorem cons (a : α) (h : Surrounds core whole) : Surrounds core fun i => a :: whole i :=
  h.append_left [a]

theorem flatMap (g : α → List β) (h : Surrounds core whole) :
    Surrounds (fun i => (core i).flatMap g) fun i => (whole i).flatMap g := by
  obtain ⟨before, behind, h⟩ := h
  refine ⟨before.flatMap g, behind.flatMap g, fun i => ?_⟩
  show (whole i).flatMap g = _
  rw [h, List.flatMap_append, List.flatMap_append]

theorem separated {part : ι → Fragment} (separator : String) (before behind : List Fragment) :
    Surrounds part fun i => Fragment.separated separator (before ++ part i :: behind) := by
  induction before with
  | nil =>
    cases behind with
    | nil => exact refl part
    | cons f behind => exact (refl part).append_right _
  | cons f before ih =>
    cases before with
    | nil => exact (ih.cons _).append_left f
    | cons g before => exact (ih.cons _).append_left f

theorem parenthesized {f g : ι → Fragment} (h : Surrounds f g) :
    Surrounds f fun i => (g i).parenthesized :=
  (h.cons (Piece.text "(")).append_right [Piece.text ")"]

theorem clause {f : ι → Fragment} {condition : ι → List Lexeme} (word : String)
    (hne : ∀ i, condition i ≠ []) (h : Surrounds f fun i => (condition i).flatMap Lexeme.pieces) :
    Surrounds f fun i => QueryTree.clause word (condition i) := by
  have hc : (fun i => QueryTree.clause word (condition i)) =
      fun i => .text word :: (condition i).flatMap Lexeme.pieces := by
    funext i
    exact if_neg (by simpa using hne i)
  rw [hc]
  exact h.cons _

end Surrounds

/-! ### Levels of conditions -/

section

variable (d : Dialect)

/-- A node that is written, among its siblings. -/
theorem surrounds_nodeLexemes {ι : Type} {n : ι → Node} (op : Op) (hop : ∀ i, (n i).op = op)
    (hc : ∀ i, (n i).isConnective = false) (hne : ∀ i, (n i).lexemes d ≠ [])
    (before behind : List Node) (alternatives started pendingOr : Bool) :
    Surrounds (fun i => (n i).lexemes d) fun i =>
      nodeLexemes d alternatives started pendingOr (before ++ n i :: behind) := by
  induction before generalizing started pendingOr with
  | nil =>
    have h : (fun i => nodeLexemes d alternatives started pendingOr (n i :: behind)) = fun i =>
        (if started then [joining alternatives pendingOr op] else []) ++ (n i).lexemes d ++
          nodeLexemes d alternatives true false behind := by
      funext i
      rw [nodeLexemes, hc, if_neg Bool.false_ne_true, if_neg (by simpa using hne i), hop]
    exact h ▸ ((Surrounds.refl _).append_left _).append_right _
  | cons m before ih =>
    simp only [List.cons_append, nodeLexemes]
    -- what happens to a node in front does not depend on `i`
    by_cases hm : m.isConnective = true
    · simp only [if_pos hm]
      exact ih started true
    · simp only [if_neg hm]
      by_cases ho : (m.lexemes d).isEmpty = true
      · simp only [if_pos ho]
        exact ih started pendingOr
      · simp only [if_neg ho]
        exact (ih true false).append_left _

theorem nodeLexemes_ne_nil {n : Node} (hc : n.isConnective = false) (hne : n.lexemes d ≠ [])
    (before behind : List Node) (alternatives started pendingOr : Bool) :
    nodeLexemes d alternatives started pendingOr (before ++ n :: behind) ≠ [] := by
  obtain ⟨pre, post, h⟩ := surrounds_nodeLexemes d (n := fun _ : Unit => n) n.op (fun _ => rfl)
    (fun _ => hc) (fun _ => hne) before behind alternatives started pendingOr
  have h := h ()
  intro hnil
  rw [hnil, List.append_assoc] at h
  simp [hne] at h

theorem lexemes_subquery (key : String) (q : Query) (subs : List Node) :
    Node.lexemes d ⟨.subquery, key, some (.query q), subs⟩ =
      [.leaf ⟨.subquery, key, some (.query q), subs⟩
        (.text (key ++ " ") :: Fragment.parenthesized (q.pieces d))] := by
  rw [Node.lexemes_of_leaf rfl, if_neg (by simp [Node.text, leafText])]
  rfl

namespace Node.Place

/-- **What is written around a query in a condition tree does not depend on the query;** and
something is written there. -/
theorem surrounds (p : Node.Place) (alternatives started pendingOr : Bool) :
    (∀ q, nodeLexemes d alternatives started pendingOr (p.fill q) ≠ []) ∧
    Surrounds (Query.pieces d) fun q =>
      (nodeLexemes d alternatives started pendingOr (p.fill q)).flatMap Lexeme.pieces := by
  induction p generalizing alternatives started pendingOr with
  | operand before key subs behind =>
    have hne (q : Query) : Node.lexemes d ⟨.subquery, key, some (.query q), subs⟩ ≠ [] := by
      rw [lexemes_subquery]
      exact List.cons_ne_nil _ _
    refine ⟨fun q => nodeLexemes_ne_nil d rfl (hne q) before behind _ _ _, ?_⟩
    have h := (surrounds_nodeLexemes d .subquery (fun _ => rfl) (fun _ => rfl) hne before
      behind alternatives started pendingOr).flatMap Lexeme.pieces
    refine Surrounds.trans ?_ h
    simp only [lexemes_subquery, List.flatMap_singleton, Lexeme.pieces]
    exact (Surrounds.parenthesized (.refl _)).cons _
  | member before j key o inner behind ih =>
    obtain ⟨hinner, ih⟩ := ih (j == .any) false false
    -- the group is never left out, since the induction gives it a lexeme
    have hlex (q : Query) : Node.lexemes d ⟨.group j, key, o, inner.fill q⟩ =
        .opening :: nodeLexemes d (j == .any) false false (inner.fill q) ++ [.closing] := by
      rw [Node.lexemes_group, if_neg (by simpa using hinner q)]
    have hne (q : Query) : Node.lexemes d ⟨.group j, key, o, inner.fill q⟩ ≠ [] := by
      rw [hlex]
      exact List.cons_ne_nil _ _
    refine ⟨fun q => nodeLexemes_ne_nil d rfl (hne q) before behind _ _ _, ?_⟩
    have h := (surrounds_nodeLexemes d (.group j) (fun _ => rfl) (fun _ => rfl) hne before
      behind alternatives started pendingOr).flatMap Lexeme.pieces
    refine Surrounds.trans ?_ h
    simp only [hlex, List.cons_append, List.flatMap_cons, List.flatMap_append]
    exact (ih.append_right _).append_left _

theorem any_isConnective_fill (p : Node.Place) (q q' : Query) :
    (p.fill q).any Node.isConnective = (p.fill q').any Node.isConnective := by
  have hgroup (j : Junction) : (Op.group j == Op.orMark) = false := rfl
  cases p <;> simp [fill, Node.isConnective, hgroup]

/-- The first similarity search does not depend on the query: searches in it are its own. -/
theorem findIn?_fill (p : Node.Place) (q q' : Query) :
    Node.findIn? (fun n => n.op == .search) (p.fill q) =
      Node.findIn? (fun n => n.op == .search) (p.fill q') := by
  induction p with
  | operand before key subs behind => simp [fill, Node.findIn?_append, Node.findIn?, Node.find?]
  | member before j key o inner behind ih =>
    simp [fill, Node.findIn?_append, Node.findIn?, Node.find?, ih]

end Node.Place

/-! ### Clauses -/

theorem ctePieces_eq_map (ctes : List Cte) :
    ctePieces d ctes =
      ctes.map fun c => .text (c.name ++ " AS ") :: Fragment.parenthesized (c.query.pieces d) := by
  induction ctes with
  | nil => rfl
  | cons c ctes ih =>
    obtain ⟨name, recursive, q⟩ := c
    rw [ctePieces, ih]
    rfl

theorem unionPieces_eq_flatMap (unions : List UnionMember) :
    unionPieces d unions = unions.flatMap fun u =>
      .text (if u.keepsDuplicates then " UNION ALL " else " UNION ") :: u.query.pieces d := by
  induction unions with
  | nil => rfl
  | cons u unions ih =>
    obtain ⟨keepsDuplicates, q⟩ := u
    rw [unionPieces, ih]
    rfl

theorem surrounds_ctePieces (before : List Cte) (c : Cte) (behind : List Cte) :
    Surrounds (Query.pieces d) fun q =>
      Fragment.separated ", " (ctePieces d (before ++ { c with query := q } :: behind)) := by
  simp only [ctePieces_eq_map, List.map_append, List.map_cons]
  refine Surrounds.trans ?_ (Surrounds.separated ", " _ _)
  exact (Surrounds.parenthesized (.refl _)).cons _

theorem surrounds_unionPieces (before : List UnionMember) (u : UnionMember)
    (behind : List UnionMember) :
    Surrounds (Query.pieces d) fun q =>
      unionPieces d (before ++ { u with query := q } :: behind) := by
  have h : Surrounds (Query.pieces d) fun q =>
      .text (if u.keepsDuplicates then " UNION ALL " else " UNION ") :: q.pieces d :=
    .cons _ (.refl _)
  simp only [unionPieces_eq_flatMap, List.flatMap_append, List.flatMap_cons]
  exact (h.append_right _).append_left _

theorem surrounds_nested (before : List Source) (s : Source) (behind : List Source) :
    Surrounds (Query.pieces d) fun q =>
      sourcePieces d true (before ++ { s with nested := some q } :: behind) := by
  have h : Surrounds (Query.pieces d) fun q => Fragment.parenthesized (q.pieces d) :=
    .parenthesized (.refl _)
  have hs : Surrounds (Query.pieces d) fun q => Source.pieces d (true && before.isEmpty)
      { s with nested := some q } :=
    ((h.append_right (s.nickname.toList.map fun n => Piece.text (" " ++ n))).append_left
      (s.lead (true && before.isEmpty))).append_right (s.tail d)
  simp only [sourcePieces_append]
  exact (hs.append_left _).append_right _

theorem surrounds_on {s : Source} (hs : (s.join.any fun j => j != .comma) = true)
    (before : List Source) (place : Node.Place) (behind : List Source) :
    Surrounds (Query.pieces d) fun q => sourcePieces d true
      (before ++ { s with constraint := some (.condition (place.fill q)) } :: behind) := by
  obtain ⟨name, nickname, join, constraint, nested⟩ := s
  obtain ⟨hne, h⟩ := place.surrounds d false false false
  -- on this place the join is a word, so its condition is written
  have htail (q : Query) :
      Source.tail d ⟨name, nickname, join, some (.condition (place.fill q)), nested⟩ =
        clause " ON " (nodeLexemes d false false false (place.fill q)) := by
    cases join with
    | none => cases hs
    | some join => cases join <;> first | rfl | cases hs
  have hs : Surrounds (Query.pieces d) fun q => Source.pieces d (true && before.isEmpty)
      ⟨name, nickname, join, some (.condition (place.fill q)), nested⟩ := by
    simp only [Source.pieces, htail]
    exact (h.clause " ON " hne).append_left (Source.lead (true && before.isEmpty)
      ⟨name, nickname, join, constraint, nested⟩ ++ referencePieces d name nickname nested)
  simp only [sourcePieces_append]
  exact (hs.append_left _).append_right _

end

/-! ### Statements -/

namespace Statement

/-- The conditions, with or without the bound of the paging. -/
def condition (bounded : Bool) (s : Statement) : List Lexeme :=
  if bounded then s.boundConditions else s.conditions

/-- What the clauses of a query make up: its named queries in front, something, the clauses from
the sources to the unions, and something behind. -/
def framed (head tail : Fragment) (bounded : Bool) (s : Statement) : Fragment :=
  s.ctes ++ head ++ s.body (s.condition bounded) ++ tail

section

variable {ι : Type} {core part : ι → Fragment} (s : Statement) (head tail : Fragment)
  (bounded : Bool)

theorem surrounds_ctes (h : Surrounds core part) :
    Surrounds core fun i => framed head tail bounded { s with ctes := part i } :=
  ((h.append_right head).append_right (s.body (s.condition bounded))).append_right tail

theorem surrounds_sources (h : Surrounds core part) :
    Surrounds core fun i => framed head tail bounded { s with sources := part i } :=
  (((((h.append_right (clause " WHERE " (s.condition bounded))).append_right
    s.groups).append_right (clause " HAVING " s.having)).append_right s.unions).append_left
    (s.ctes ++ head)).append_right tail

theorem surrounds_unions (h : Surrounds core part) :
    Surrounds core fun i => framed head tail bounded { s with unions := part i } :=
  ((h.append_left (s.sources ++ clause " WHERE " (s.condition bounded) ++ s.groups ++
    clause " HAVING " s.having)).append_left (s.ctes ++ head)).append_right tail

theorem surrounds_having {condition : ι → List Lexeme} (hne : ∀ i, condition i ≠ [])
    (h : Surrounds core fun i => (condition i).flatMap Lexeme.pieces) :
    Surrounds core fun i => framed head tail bounded { s with having := condition i } :=
  ((((h.clause " HAVING " hne).append_left (s.sources ++
    clause " WHERE " (s.condition bounded) ++ s.groups)).append_right s.unions).append_left
    (s.ctes ++ head)).append_right tail

/-- The bound stands before the conditions. -/
theorem surrounds_boundConditions {condition : ι → List Lexeme} (hne : ∀ i, condition i ≠ [])
    (h : Surrounds core fun i => (condition i).flatMap Lexeme.pieces) :
    (∀ i, boundConditions { s with conditions := condition i } ≠ []) ∧
      Surrounds core fun i =>
        (boundConditions { s with conditions := condition i }).flatMap Lexeme.pieces := by
  -- the conditions are never empty, so only the bound decides how they are joined
  have he (i : ι) : boundConditions { s with conditions := condition i } =
      if s.bound.isEmpty then condition i
      else if s.hasConnective then s.bound ++ .and :: .opening :: condition i ++ [.closing]
      else s.bound ++ .and :: condition i := by
    have hi : ¬(condition i).isEmpty = true := by simpa using hne i
    rw [boundConditions, if_neg hi]
  simp only [he]
  by_cases hbound : s.bound.isEmpty = true
  · simp only [if_pos hbound]
    exact ⟨hne, h⟩
  · simp only [if_neg hbound]
    cases s.hasConnective with
    | true =>
      simp only [if_true, List.flatMap_append, List.flatMap_cons]
      refine ⟨fun i => by simp, ?_⟩
      exact (((h.append_left _).append_left _).append_left _).append_right _
    | false =>
      simp only [Bool.false_eq_true, if_false, List.flatMap_append, List.flatMap_cons]
      refine ⟨fun i => by simp, ?_⟩
      exact (h.append_left _).append_left _

theorem surrounds_conditions {condition : ι → List Lexeme} (hne : ∀ i, condition i ≠ [])
    (h : Surrounds core fun i => (condition i).flatMap Lexeme.pieces) :
    Surrounds core fun i => framed head tail bounded { s with conditions := condition i } := by
  have hc : Surrounds core fun i =>
      clause " WHERE " (Statement.condition bounded { s with conditions := condition i }) := by
    cases bounded with
    | true =>
      obtain ⟨hne, h⟩ := s.surrounds_boundConditions hne h
      exact h.clause " WHERE " hne
    | false => exact h.clause " WHERE " hne
  exact (((((hc.append_left s.sources).append_right s.groups).append_right
    (clause " HAVING " s.having)).append_right s.unions).append_left (s.ctes ++ head)).append_right
    tail

end

end Statement

namespace Query.Place

variable (d : Dialect)

/-- The query that the place is in. -/
def host : Place → Query
  | cte host _ _ _ => host
  | source host _ _ _ => host
  | on host _ _ _ _ => host
  | condition host _ => host
  | having host _ => host
  | union host _ _ _ => host

theorem outline_fill (p : Place) (q : Query) : (p.fill q).outline = p.host.outline := by
  cases p <;> rfl

/-- **What is written around a query in a place does not depend on the query.** -/
theorem surrounds {p : Place} (h : p.isWritten = true) (head tail : Fragment) (bounded : Bool) :
    Surrounds (Query.pieces d) fun q => ((p.fill q).statement d).framed head tail bounded := by
  cases p with
  | cte host before c behind =>
    have hs (q : Query) : ((cte host before c behind).fill q).statement d =
        { host.statement d with
          ctes := .text (if (before ++ c :: behind).any Cte.recursive then "WITH RECURSIVE "
              else "WITH ") ::
            Fragment.separated ", " (ctePieces d (before ++ { c with query := q } :: behind)) ++
            [.text " "] } := by
      obtain ⟨outline, sources, conditions, having, ctes, unions⟩ := host
      simp [fill, Query.statement]
    simp only [hs]
    exact Statement.surrounds_ctes _ head tail bounded
      (((surrounds_ctePieces d before c behind).cons _).append_right _)
  | source host before s behind =>
    have hs (q : Query) : ((source host before s behind).fill q).statement d =
        { host.statement d with
          sources := .text " FROM " ::
            sourcePieces d true (before ++ { s with nested := some q } :: behind) } := by
      obtain ⟨outline, sources, conditions, having, ctes, unions⟩ := host
      simp [fill, Query.statement]
    simp only [hs]
    exact Statement.surrounds_sources _ head tail bounded
      ((surrounds_nested d before s behind).cons _)
  | on host before s place behind =>
    have hs (q : Query) : ((on host before s place behind).fill q).statement d =
        { host.statement d with
          sources := .text " FROM " :: sourcePieces d true
            (before ++ { s with constraint := some (.condition (place.fill q)) } :: behind) } := by
      obtain ⟨outline, sources, conditions, having, ctes, unions⟩ := host
      simp [fill, Query.statement]
    simp only [hs]
    exact Statement.surrounds_sources _ head tail bounded
      ((surrounds_on d h before place behind).cons _)
  | condition host place =>
    obtain ⟨hne, hc⟩ := place.surrounds d false false false
    have hs (q : Query) : ((condition host place).fill q).statement d =
        { host.statement d with
          conditions := nodeLexemes d false false false (place.fill q)
          hasConnective := (place.fill host).any Node.isConnective } := by
      obtain ⟨outline, sources, conditions, having, ctes, unions⟩ := host
      simpa [fill, Query.statement] using place.any_isConnective_fill q _
    simp only [hs]
    exact Statement.surrounds_conditions { host.statement d with
      hasConnective := (place.fill host).any Node.isConnective } head tail bounded hne hc
  | having host place =>
    obtain ⟨hne, hc⟩ := place.surrounds d false false false
    have hs (q : Query) : ((having host place).fill q).statement d =
        { host.statement d with having := nodeLexemes d false false false (place.fill q) } := by
      obtain ⟨outline, sources, conditions, having, ctes, unions⟩ := host
      simp [fill, Query.statement]
    simp only [hs]
    exact Statement.surrounds_having _ head tail bounded hne hc
  | union host before u behind =>
    have hs (q : Query) : ((union host before u behind).fill q).statement d =
        { host.statement d with
          unions := unionPieces d (before ++ { u with query := q } :: behind) } := by
      obtain ⟨outline, sources, conditions, having, ctes, unions⟩ := host
      simp [fill, Query.statement]
    simp only [hs]
    exact Statement.surrounds_unions _ head tail bounded (surrounds_unionPieces d before u behind)

/-- A place that is not written leaves no trace of what stands in it. -/
theorem statement_fill {p : Place} (h : p.isWritten = false) (q q' : Query) :
    (p.fill q).statement d = (p.fill q').statement d := by
  cases p with
  | on host before s place behind =>
    obtain ⟨name, nickname, join, constraint, nested⟩ := s
    have hs (first : Bool) (q : Query) : Source.pieces d first
        ⟨name, nickname, join, some (.condition (place.fill q)), nested⟩ =
        Source.lead first ⟨name, nickname, join, none, nested⟩ ++
          referencePieces d name nickname nested := by
      cases join with
      | none => exact List.append_nil _
      | some join =>
        cases join with
        | comma => exact List.append_nil _
        | _ => cases h
    obtain ⟨outline, sources, conditions, having, ctes, unions⟩ := host
    simp [fill, Query.statement, sourcePieces_append, hs]
  | _ => cases h

theorem countsSources_fill (p : Place) (q q' : Query) :
    (p.fill q).countsSources = (p.fill q').countsSources := by
  cases p with
  | union host before u behind =>
    cases before <;> rfl
  | _ => rfl

theorem vectorSearch?_fill (p : Place) (q q' : Query) :
    (p.fill q).vectorSearch? = (p.fill q').vectorSearch? := by
  cases p with
  | condition host place => simp only [vectorSearch?, fill, place.findIn?_fill q q']
  | _ => rfl

end Query.Place

namespace Query

section

variable {d : Dialect} (q : Query)

theorem conditions_statement :
    (q.statement d).conditions = nodeLexemes d false false false q.conditions := by
  obtain ⟨outline, sources, conditions, having, ctes, unions⟩ := q
  rw [statement]

theorem having_statement :
    (q.statement d).having = nodeLexemes d false false false q.having := by
  obtain ⟨outline, sources, conditions, having, ctes, unions⟩ := q
  rw [statement]

theorem groups_statement : (q.statement d).groups = groupText q.outline.groupBy := by
  obtain ⟨outline, sources, conditions, having, ctes, unions⟩ := q
  rw [statement]

theorem unions_statement : (q.statement d).unions = unionPieces d q.unions := by
  obtain ⟨outline, sources, conditions, having, ctes, unions⟩ := q
  rw [statement]

end

variable (d : Dialect)

theorem items_statement (q : Query) : (q.statement d).items = selectItems q.outline := by
  obtain ⟨outline, sources, conditions, having, ctes, unions⟩ := q
  rw [statement]

theorem order_statement (q : Query) :
    (q.statement d).order = q.outline.sorts.map SortKey.text := by
  obtain ⟨outline, sources, conditions, having, ctes, unions⟩ := q
  rw [statement]

theorem window_statement (q : Query) : (q.statement d).window = q.outline.window := by
  obtain ⟨outline, sources, conditions, having, ctes, unions⟩ := q
  rw [statement]

theorem pieces_eq_framed (q : Query) :
    q.pieces d = (q.statement d).framed (.text "SELECT " :: selectItems q.outline)
      (orderText (q.outline.sorts.map SortKey.text) ++ [.text (d.pagination.text q.outline.window)])
      true := by
  rw [pieces, Statement.plain, items_statement, order_statement, window_statement]
  simp [Statement.framed, Statement.condition]

/-- **What is written around a query at any depth does not depend on the query.** -/
theorem surrounds_fillAll {places : List Place} (h : places.all Place.isWritten = true) :
    Surrounds (pieces d) fun q => (fillAll places q).pieces d := by
  induction places with
  | nil => exact .refl _
  | cons p places ih =>
    rw [List.all_cons, Bool.and_eq_true] at h
    have hp := p.surrounds d h.1 (.text "SELECT " :: selectItems p.host.outline)
      (orderText (p.host.outline.sorts.map SortKey.text) ++
        [.text (d.pagination.text p.host.outline.window)]) true
    simp only [fillAll, List.foldr_cons]
    -- the places inside surround the query, and the outermost one surrounds what they make up
    refine (ih h.2).trans ?_
    simp only [pieces_eq_framed d (p.fill _), Place.outline_fill]
    exact hp.comp (fillAll places)

/-- Behind a place that is not written, at any depth, there is no trace of the query. -/
theorem pieces_fillAll {places : List Place} (h : places.all Place.isWritten = false)
    (q q' : Query) : (fillAll places q).pieces d = (fillAll places q').pieces d := by
  induction places with
  | nil => cases h
  | cons p places ih =>
    simp only [fillAll, List.foldr_cons]
    rw [pieces_eq_framed d (p.fill _), pieces_eq_framed d (p.fill _), Place.outline_fill,
      Place.outline_fill]
    -- a place that is not written hides what is in it; around the others nothing varies
    cases hp : p.isWritten with
    | true =>
      rw [List.all_cons, hp, Bool.true_and] at h
      exact (p.surrounds d hp _ _ _).congr (ih h)
    | false => rw [Place.statement_fill d hp]

end Query

end QueryTree
