import QueryTree.Proofs.Arguments.Clauses

/-!
# Statements lay out their slots

The clauses of a query are mutually recursive with the conditions, sources and queries inside them,
and so is the proof that they lay out its slots: one case for each of the recursions that write a
query.  The statements of a query differ only in which clauses they put behind one another.

* `Statement.Laid` — the clauses of a statement lay out slots.
* `Statement.Laid.lays_plain`, `lays_unordered`, `lays_count`, `lays_nearest` — then so do the
  statements made of them.
* `Query.laid` — the clauses of a query lay out its slots.
-/

namespace QueryTree

open Fragment

variable {d : Dialect} {spaced : Bool} {lead : List Char} {behind : Bool}

/-! ### Statements from clauses -/

/-- A condition lays out some slots. -/
def LaysCondition (spaced : Bool) (condition : List Lexeme) (slots : List Slot) : Prop :=
  Lays spaced [] false (condition.flatMap Lexeme.pieces) slots

theorem lays_clause {word : String} {condition : List Lexeme} {slots : List Slot}
    (hw : Text.isWord word = true) (h : LaysCondition spaced condition slots) :
    Lays spaced lead behind (clause word condition) slots := by
  cases condition with
  | nil =>
    rw [h.eq_nil_of_nil]
    exact .nil
  | cons t ts => exact .cons_word hw h

/-- The clauses of a statement lay out slots: those of the named queries, the sources, the bound,
the conditions on the rows and on the groups, and the unions. -/
structure Statement.Laid (spaced : Bool) (s : Statement)
    (ctes sources bound conditions having unions : List Slot) : Prop where
  ctes : Lays spaced [] true s.ctes ctes
  items : Lays spaced [] false s.items []
  sources : Lays spaced [] true s.sources sources
  bound : LaysCondition spaced s.bound bound
  conditions : LaysCondition spaced s.conditions conditions
  groups : Lays spaced [] true s.groups []
  having : LaysCondition spaced s.having having
  unions : Lays spaced [] true s.unions unions
  order : s.order.all Text.isPlain = true

namespace Statement.Laid

variable {s : Statement} {ctes sources bound conditions having unions slots : List Slot}
  {condition : List Lexeme}

theorem lays_boundConditions (h : s.Laid spaced ctes sources bound conditions having unions) :
    LaysCondition spaced s.boundConditions (bound ++ conditions) := by
  have hb := h.bound
  have hc := h.conditions
  unfold boundConditions
  split
  · -- the bound alone or the conditions alone need no word between them
    next he =>
    rw [List.isEmpty_iff.1 he] at hb
    rw [hb.eq_nil_of_nil]
    exact hc
  · split
    · next he =>
      rw [List.isEmpty_iff.1 he] at hc
      rw [hc.eq_nil_of_nil, List.append_nil]
      exact hb
    · split
      · have opened : Lays spaced [] true
            (.text " AND " :: .text "(" :: (s.conditions.flatMap Lexeme.pieces ++ [.text ")"]))
            conditions :=
          .cons_word (by decide) (.cons_word (by decide) (hc.append_word (by decide)))
        have := hb.append opened
        simpa [LaysCondition, Lexeme.pieces] using this
      · have joined : Lays spaced [] true (.text " AND " :: s.conditions.flatMap Lexeme.pieces)
            conditions := .cons_word (by decide) hc
        have := hb.append joined
        simpa [LaysCondition, Lexeme.pieces] using this

theorem lays_body (h : s.Laid spaced ctes sources bound conditions having unions)
    (hc : LaysCondition spaced condition slots) :
    Lays spaced [] true (s.body condition) (sources ++ slots ++ having ++ unions) := by
  have hw : Lays spaced [] true (clause " WHERE " condition) slots :=
    lays_clause (by decide) hc
  have hh : Lays spaced [] true (clause " HAVING " s.having) having :=
    lays_clause (by decide) h.having
  exact (((h.sources.append hw).append_of_nil h.groups).append hh).append h.unions

theorem lays_select (h : s.Laid spaced ctes sources bound conditions having unions) :
    Lays spaced [] true (s.ctes ++ .text "SELECT " :: s.items) ctes :=
  h.ctes.append_of_nil (.cons_word (by decide) h.items)

theorem lays_plain (h : s.Laid spaced ctes sources bound conditions having unions)
    (p : Pagination) :
    Lays spaced [] true (s.plain p)
      (ctes ++ sources ++ bound ++ conditions ++ having ++ unions) := by
  have := ((h.lays_select.append (h.lays_body h.lays_boundConditions)).append_of_nil
    (lays_orderText h.order)).append_of_nil (lays_windowText p s.window)
  simpa only [plain, List.append_assoc] using this

theorem lays_unordered (h : s.Laid spaced ctes sources bound conditions having unions) :
    Lays spaced [] true s.unordered (ctes ++ sources ++ conditions ++ having ++ unions) := by
  have := h.lays_select.append (h.lays_body h.conditions)
  simpa only [unordered, List.append_assoc] using this

theorem lays_count (h : s.Laid spaced ctes sources bound conditions having unions) :
    Lays spaced [] true s.count (ctes ++ sources ++ conditions ++ having ++ unions) := by
  have hs : Lays spaced [] true (.text "SELECT COUNT(*)" :: s.body s.conditions)
      (sources ++ conditions ++ having ++ unions) :=
    .cons_word (by decide) (h.lays_body h.conditions).anywhere
  have := h.ctes.append hs
  simpa only [count, List.append_assoc] using this

theorem lays_nearest (h : s.Laid spaced ctes sources bound conditions having unions)
    (p : Pagination) {field : String} (hf : Text.isPlain field = true) (search : Search) :
    Lays spaced [] true (s.nearest p field search)
      (ctes ++ [operandSlot field search.metric.operator (.vector search.vector)] ++ sources ++
        bound ++ conditions ++ having ++ unions) := by
  have hitem : Lays spaced [] true (distanceItem field search)
      [operandSlot field search.metric.operator (.vector search.vector)] :=
    .cons_word (by decide) (.infixed hf search.metric.isPlain_operator (.of_word (by decide)))
  have horder : ("distance" :: s.order).all Text.isPlain = true := by
    rw [List.all_cons, h.order]
    rfl
  have := (((h.lays_select.append hitem).append (h.lays_body h.lays_boundConditions)).append_of_nil
    (lays_orderText horder)).append_of_nil
    (lays_windowText p { s.window with limit := some search.fetchLimit })
  simpa only [nearest, List.append_assoc] using this

end Statement.Laid

/-! ### Clauses of queries -/

/-- A leaf with its text, or nothing if the text is empty. -/
theorem laysCondition_of_text {n : Node} {slots : List Slot} (hg : n.op.isGroup = false)
    (h : Lays spaced [] false (n.text d) slots) : LaysCondition spaced (n.lexemes d) slots := by
  rw [Node.lexemes_of_leaf hg]
  by_cases hv : (n.text d).isVoid = true
  · rw [if_pos hv, h.eq_nil_of_isVoid hv]
    exact .nil
  · rw [if_neg hv, LaysCondition, List.flatMap_singleton]
    exact h

theorem laysCondition_group {j : Junction} {key : String} {operand : Option Operand}
    {subs : List Node}
    (h : LaysCondition spaced (nodeLexemes d (j == .any) false false subs) (nodeSlots subs)) :
    LaysCondition spaced (Node.lexemes d ⟨.group j, key, operand, subs⟩) (nodeSlots subs) := by
  rw [Node.lexemes_group]
  -- a group without lexemes is left out, together with its parentheses
  by_cases he : nodeLexemes d (j == .any) false false subs = []
  · rw [he] at h
    rw [he, h.eq_nil_of_nil]
    exact .nil
  · rw [if_neg (by simpa using he)]
    have opened : Lays spaced [] false (.text "(" ::
        ((nodeLexemes d (j == .any) false false subs).flatMap Lexeme.pieces ++ [.text ")"]))
        (nodeSlots subs) := .cons_word (by decide) (h.append_word (by decide))
    simpa [LaysCondition, Lexeme.pieces] using opened

theorem lays_joining {alternatives pendingOr : Bool} {op : Op} {f : Fragment} {slots : List Slot}
    (h : Lays spaced [] false f slots) :
    Lays spaced lead behind ((joining alternatives pendingOr op).pieces ++ f) slots := by
  unfold joining
  split <;> exact .cons_word (by decide) h

theorem Outline.isPlain_field {o : Outline} (h : o.isPlain = true) {b : Bound}
    (hb : o.bound? = some b) : Text.isPlain b.field = true := by
  unfold bound? at hb
  split at hb
  · next key rest _ hs =>
    cases hb
    simp only [isPlain, Bool.and_eq_true, List.all_eq_true] at h
    exact h.2 key (hs ▸ List.mem_cons_self)
  · cases hb

theorem lays_bound {o : Outline} (h : o.isPlain = true) :
    LaysCondition spaced (o.bound?.elim [] boundLexemes) (boundSlots o) := by
  rw [boundSlots]
  cases hb : o.bound? with
  | none => exact .nil
  | some b =>
    rw [LaysCondition, Option.elim_some, boundLexemes, List.flatMap_singleton, Lexeme.pieces,
      ← List.append_nil (infixed _ _ _)]
    exact .infixed (o.isPlain_field h hb) b.comparison.isPlain_symbol .nil

theorem lays_ctes {ctes : List Cte}
    (h : List.Forall₂ (fun f slots => Lays spaced [] false f slots) (ctePieces d ctes)
      (ctes.map fun c => c.query.slots)) :
    Lays spaced [] true
      (if ctes.isEmpty then []
        else
          .text (if ctes.any Cte.recursive then "WITH RECURSIVE " else "WITH ") ::
            Fragment.separated ", " (ctePieces d ctes) ++ [.text " "]) (cteSlots ctes) := by
  -- the slots of the named queries are collected one query after the other
  have hs : cteSlots ctes = (ctes.map fun c => c.query.slots).flatten := by
    clear h
    induction ctes with
    | nil => rfl
    | cons c rest ih =>
      obtain ⟨name, recursive, q⟩ := c
      rw [cteSlots, ih, List.map_cons, List.flatten_cons]
  split
  · next he =>
    rw [List.isEmpty_iff.1 he]
    exact .nil
  · have list : Lays spaced [] false (Fragment.separated ", " (ctePieces d ctes))
        (cteSlots ctes) := hs ▸ .separated (by decide) h
    split <;> exact .cons_word (by decide) (list.append_word (by decide))

theorem lays_sources {sources : List Source}
    (h : Lays spaced [] false (sourcePieces d true sources) (sourceSlots sources)) :
    Lays spaced [] true
      (if sources.isEmpty then [] else .text " FROM " :: sourcePieces d true sources)
      (sourceSlots sources) := by
  split
  · next he =>
    rw [List.isEmpty_iff.1 he]
    exact .nil
  · exact .cons_word (by decide) h

/-- The clauses of a query lay out its slots. -/
def Query.Laid (d : Dialect) (spaced : Bool) (q : Query) : Prop :=
  (q.statement d).Laid spaced (cteSlots q.ctes) (sourceSlots q.sources) (boundSlots q.outline)
    (nodeSlots q.conditions) (nodeSlots q.having) (unionSlots q.unions)

theorem Query.Laid.lays_statement {q : Query} (h : q.Laid d spaced) :
    Lays spaced [] true ((q.statement d).plain d.pagination) q.slots := by
  have := h.lays_plain d.pagination
  obtain ⟨outline, sources, conditions, having, ctes, unions⟩ := q
  exact this

mutual

/-- **The clauses of a query lay out its slots.** -/
theorem Query.laid (hd : d.isPlain = true) (q : Query) (h : q.isPlain spaced = true) :
    q.Laid d spaced := by
  obtain ⟨outline, sources, conditions, having, ctes, unions⟩ := q
  simp only [Query.isPlain, Bool.and_eq_true] at h
  obtain ⟨⟨⟨⟨⟨ho, hs⟩, hc⟩, hh⟩, hctes⟩, hu⟩ := h
  have hflat := ho
  simp only [Outline.isPlain, Bool.and_eq_true] at hflat
  rw [Query.Laid, Query.statement]
  exact {
    ctes := lays_ctes (lays_ctePieces hd ctes hctes)
    items := lays_selectItems ho
    sources := lays_sources (lays_sourcePieces hd true sources hs)
    bound := lays_bound ho
    conditions := lays_nodeLexemes hd false false false conditions hc
    groups := lays_groupText hflat.1.2
    having := lays_nodeLexemes hd false false false having hh
    unions := lays_unionPieces hd unions hu
    order := by
      simpa using fun s hs => SortKey.isPlain_text (List.all_eq_true.1 hflat.2 s hs) }

theorem lays_ctePieces (hd : d.isPlain = true) (ctes : List Cte)
    (h : arePlainCtes spaced ctes = true) :
    List.Forall₂ (fun f slots => Lays spaced [] false f slots) (ctePieces d ctes)
      (ctes.map fun c => c.query.slots) := by
  cases ctes with
  | nil => exact .nil
  | cons c rest =>
    obtain ⟨name, recursive, q⟩ := c
    simp only [arePlainCtes, Bool.and_eq_true] at h
    obtain ⟨⟨hn, hq⟩, hr⟩ := h
    refine .cons ?_ (lays_ctePieces hd rest hr)
    refine .cons_plain ?_ (.parenthesized (Query.laid hd q hq).lays_statement)
    rw [Text.isPlain_append, hn]
    rfl

theorem lays_nested (hd : d.isPlain = true) (name : String) (nickname : Option String)
    (nested : Option Query) (hn : Text.isPlain name = true) (hk : nickname.all Text.isPlain = true)
    (h : isPlainNested spaced nested = true) :
    Lays spaced [] false (referencePieces d name nickname nested) (nestedSlots nested) := by
  cases nested with
  | none =>
    refine .of_plain ?_
    cases nickname with
    | none => exact hn
    | some n =>
      simp only [tableText, Text.isPlain_append, hn, show Text.isPlain n = true from hk]
      rfl
  | some q =>
    have hq : Lays spaced [] false (Fragment.parenthesized ((q.statement d).plain d.pagination))
        q.slots := .parenthesized (Query.laid hd q h).lays_statement
    have ha : Lays spaced [] true (nickname.toList.map fun n => Piece.text (" " ++ n)) [] := by
      cases nickname with
      | none => exact .nil
      | some n => exact .of_word (Text.isWord_append (by decide) hk)
    exact hq.append_of_nil ha

theorem lays_constraint (hd : d.isPlain = true) (constraint : Option Constraint)
    (h : isPlainConstraint spaced constraint = true) :
    Lays spaced [] true (constraintPieces d constraint) (constraintSlots constraint) := by
  cases constraint with
  | none => exact .nil
  | some c =>
    cases c with
    | condition nodes =>
      exact lays_clause (by decide) (lays_nodeLexemes hd false false false nodes h)
    | columns names =>
      simp only [constraintPieces, String.append_assoc]
      refine .of_word (Text.isWord_append (by decide) ?_)
      rw [Text.isPlain_append, Text.isPlain_intercalate rfl h]
      rfl

theorem lays_sourcePieces (hd : d.isPlain = true) (first : Bool) (sources : List Source)
    (h : arePlainSources spaced sources = true) :
    Lays spaced [] (!first) (sourcePieces d first sources) (sourceSlots sources) := by
  cases sources with
  | nil => exact .nil
  | cons s rest =>
    obtain ⟨name, nickname, join, constraint, nested⟩ := s
    simp only [arePlainSources, Bool.and_eq_true] at h
    obtain ⟨⟨⟨⟨hn, hk⟩, hc⟩, hq⟩, hr⟩ := h
    have href := lays_nested hd name nickname nested hn hk hq
    have hcon := lays_constraint hd constraint hc
    rw [sourcePieces, sourceSlots]
    refine Lays.append ?_ (lays_sourcePieces hd false rest hr)
    cases join with
    | none =>
      rw [Option.all_none, if_pos rfl, List.append_nil]
      cases first with
      | true => exact href
      | false => exact .cons_word (by decide) href
    | some j =>
      cases j with
      | comma =>
        rw [Option.all_some, if_pos (beq_self_eq_true _), List.append_nil]
        exact .cons_word (by decide) href
      | _ => exact .cons_word (by decide) (href.append hcon)

theorem lays_unionPieces (hd : d.isPlain = true) (unions : List UnionMember)
    (h : arePlainUnions spaced unions = true) :
    Lays spaced [] true (unionPieces d unions) (unionSlots unions) := by
  cases unions with
  | nil => exact .nil
  | cons u rest =>
    obtain ⟨keepsDuplicates, q⟩ := u
    rw [arePlainUnions, Bool.and_eq_true] at h
    have hq := (Query.laid hd q h.1).lays_statement
    have hr := lays_unionPieces hd rest h.2
    refine Lays.append ?_ hr
    cases keepsDuplicates <;> exact .cons_word (by decide) hq.anywhere

theorem Node.lays_lexemes (hd : d.isPlain = true) (n : Node) (h : n.isPlain spaced = true) :
    LaysCondition spaced (n.lexemes d) n.slots := by
  obtain ⟨op, key, operand, subs⟩ := n
  cases op with
  | group j =>
    exact laysCondition_group
      (lays_nodeLexemes hd (j == .any) false false subs (Node.arePlain_subs h))
  | subquery =>
    refine laysCondition_of_text rfl ?_
    cases operand with
    | none => exact lays_leafPieces hd h
    | some operand =>
      cases operand with
      | query q =>
        have hkq : (Text.isPlain key && q.isPlain spaced) = true := (Bool.and_eq_true_iff.1 h).1
        rw [Bool.and_eq_true] at hkq
        refine .cons_plain ?_ (.parenthesized (Query.laid hd q hkq.2).lays_statement)
        rw [Text.isPlain_append, hkq.1]
        rfl
      | _ => exact lays_leafPieces hd h
  | _ =>
    refine laysCondition_of_text rfl ?_
    rw [Node.text_of_ne_subquery]
    · exact lays_leafPieces hd h
    · nofun

theorem lays_nodeLexemes (hd : d.isPlain = true) (alternatives started pendingOr : Bool)
    (ns : List Node) (h : arePlainNodes spaced ns = true) :
    Lays spaced [] started
      ((nodeLexemes d alternatives started pendingOr ns).flatMap Lexeme.pieces)
      (nodeSlots ns) := by
  cases ns with
  | nil => exact .nil
  | cons n ns =>
    rw [arePlainNodes, Bool.and_eq_true] at h
    have hn := Node.lays_lexemes hd n h.1
    rw [nodeLexemes, nodeSlots]
    by_cases hc : n.isConnective = true
    · rw [if_pos hc, Node.eq_orMark_of_isConnective hc]
      exact lays_nodeLexemes hd alternatives started true ns h.2
    · rw [if_neg hc]
      by_cases he : n.lexemes d = []
      · rw [he] at hn
        rw [he, List.isEmpty_nil, if_pos rfl, hn.eq_nil_of_nil, List.nil_append]
        exact lays_nodeLexemes hd alternatives started pendingOr ns h.2
      · rw [if_neg (by simpa using he), List.flatMap_append]
        refine Lays.append ?_ (lays_nodeLexemes hd alternatives true false ns h.2)
        cases started with
        | false => exact hn
        | true => exact lays_joining hn

end

end QueryTree
