import QueryTree.Proofs.Arguments.Statements

/-!
# Placeholders and arguments

Every statement comes with a list of arguments, and its text marks their places, either with
question marks or with numbers behind dollar signs.  Marks and arguments are in line with the slots
of the statement in either style, through any nesting of queries.

* `Aligned` — marks and arguments of a statement are in line with some slots.
* `Fragment.Lays.aligned` — so they are for the statement of a fragment that lays out the slots.
* `statements_aligned` — so they are for all statements of queries and writes.
-/

namespace QueryTree

open Fragment

variable {d : Dialect} {spaced : Bool} {lead : List Char}

/-! ### Alignment -/

/-- Marks and arguments of a statement are in line with some slots, whichever way its arguments are
marked. -/
structure Aligned (spaced : Bool) (statement : Placeholder → Compiled) (slots : List Slot) :
    Prop where
  /-- The arguments are the values of the slots, in order, in either style. -/
  arguments (p : Placeholder) : (statement p).arguments = slots.map Slot.value
  /-- There are as many question marks as arguments. -/
  count : (statement .question).sql.toList.count '?' = (statement .question).arguments.length
  /-- The question mark of a slot stands directly behind the text of the slot. -/
  places : List.Forall₂ (fun slot lead => slot.before.toList <:+ lead) slots
    (Marks.leads [] (statement .question).sql.toList)
  /-- The other style has the number of its argument in the place of each question mark. -/
  numbered : (statement .dollar).sql.toList =
    Marks.numbered 1 (statement .question).sql.toList
  /-- Each dollar sign has the number of its argument behind it. -/
  prefixes : List.Forall₂ (fun n token => (toString n).toList <+: token)
    (List.range' 1 (statement .dollar).arguments.length)
    (Marks.tokens (statement .dollar).sql.toList)
  /-- The numbers behind the dollar signs are those of the arguments, unless digits of a raw piece
  of text follow on them. -/
  tokens : spaced = true → Marks.tokens (statement .dollar).sql.toList =
    (List.range' 1 (statement .dollar).arguments.length).map fun n => (toString n).toList

/-- A statement is in line with the slots that its fragment lays out. -/
theorem Fragment.Lays.aligned {f : Fragment} {slots : List Slot} {behind : Bool}
    (h : Lays spaced [] behind f slots) {statement : Placeholder → Compiled}
    (hs : ∀ p, statement p = f.compile (d.marking p)) : Aligned spaced statement slots := by
  have hq : (statement .question).sql = f.render .question .start := by rw [hs]; rfl
  have hdollar : (statement .dollar).sql = f.render .dollar .start := by rw [hs]; rfl
  have hargs : ∀ p, (statement p).arguments = slots.map Slot.value := by
    intro p
    rw [hs]
    exact h.arguments
  have hfit := h.fit .start
  -- the marks are counted in the text with question marks; all else is read off `hfit`
  have hcount : (f.render .question .start).toList.count '?' = slots.length := by
    rw [← Marks.length_leads [], hfit.places.length_eq]
  refine ⟨hargs, ?_, ?_, ?_, ?_, ?_⟩
  · rw [hq, hcount, hargs, List.length_map]
  · rw [hq]
    exact hfit.places
  · rw [hq, hdollar]
    exact hfit.numbered
  · rw [hargs, List.length_map, ← hcount, hdollar, hfit.numbered]
    exact Marks.tokens_numbered_prefix 1 hfit.not_mem
  · intro ha
    rw [hargs, List.length_map, ← hcount, hdollar, hfit.numbered]
    exact Marks.tokens_numbered 1 hfit.not_mem (hfit.apart ha)

/-! ### Queries -/

/-- A compiled query without the meaning of its names. -/
def CompiledSelect.compiled (c : CompiledSelect) : Compiled := ⟨c.sql, c.arguments⟩

namespace Query

theorem toSelect_marking (p : Placeholder) (q : Query) :
    q.toSelect (d.marking p) =
      ((q.statement d).plain d.pagination).compileSelect (d.marking p) := by
  rw [toSelect, statement_marking]
  rfl

theorem aligned_toSelect (hd : d.isPlain = true) {q : Query} (h : q.isPlain spaced = true) :
    Aligned spaced (fun p => (q.toSelect (d.marking p)).compiled) q.slots :=
  (laid hd q h).lays_statement.aligned fun p => by
    rw [toSelect_marking]
    rfl

theorem labels_toSelect (p : Placeholder) (q : Query) :
    (q.toSelect (d.marking p)).labels = (q.toSelect d).labels := by
  rw [toSelect_marking]
  rfl

theorem aligned_toCount (hd : d.isPlain = true) {q : Query} (h : q.isPlain spaced = true) :
    Aligned spaced (fun p => q.toCount (d.marking p)) q.countSlots := by
  have hq := laid hd q h
  by_cases hc : q.countsSources = true
  · refine hq.lays_count.aligned (d := d) fun p => ?_
    rw [toCount, if_pos hc, statement_marking]
  · -- rows that are not those of the sources are counted around the whole query
    have hin : Lays spaced [] false (q.statement d).unordered.parenthesized q.countSlots :=
      .parenthesized hq.lays_unordered
    have hall : Lays spaced [] true
        (.text "SELECT COUNT(*) FROM " ::
          ((q.statement d).unordered.parenthesized ++ [.text " AS t_count"])) q.countSlots :=
      .cons_word (by decide) (hin.append_word (by decide))
    refine hall.aligned (d := d) fun p => ?_
    rw [toCount, if_neg hc, statement_marking]
    rfl

end Query

namespace Node

mutual

theorem isPlain_of_find? {test : Node → Bool} {m : Node} (n : Node)
    (h : n.isPlain spaced = true) (hm : find? test n = some m) :
    test m = true ∧ m.isPlain spaced = true := by
  obtain ⟨op, key, operand, subs⟩ := n
  unfold find? at hm
  split at hm
  · next ht => exact Option.some.inj hm ▸ ⟨ht, h⟩
  · exact isPlain_of_findIn? subs (arePlain_subs h) hm

theorem isPlain_of_findIn? {test : Node → Bool} {m : Node} (ns : List Node)
    (h : arePlainNodes spaced ns = true) (hm : findIn? test ns = some m) :
    test m = true ∧ m.isPlain spaced = true := by
  cases ns with
  | nil => cases hm
  | cons n ns =>
    rw [arePlainNodes, Bool.and_eq_true] at h
    unfold findIn? at hm
    split at hm
    · next found hf => exact Option.some.inj hm ▸ isPlain_of_find? n h.1 hf
    · exact isPlain_of_findIn? ns h.2 hm

end

end Node

namespace Query

theorem isPlain_field_of_vectorSearch? {q : Query} (h : q.isPlain spaced = true) {field : String}
    {search : Search} (hs : q.vectorSearch? = some (field, search)) :
    Text.isPlain field = true := by
  obtain ⟨outline, sources, conditions, having, ctes, unions⟩ := q
  simp only [isPlain, Bool.and_eq_true] at h
  unfold vectorSearch? at hs
  split at hs
  · next op key s subs hf =>
    cases hs
    obtain ⟨ht, hn⟩ := Node.isPlain_of_findIn? conditions h.1.1.1.2 hf
    -- what is found is no raw piece, so its key is plain
    refine Node.isPlain_key ?_ hn
    rintro rfl
    cases ht
  · cases hs

theorem aligned_toVectorSearch (hd : d.isPlain = true) {q : Query} (h : q.isPlain spaced = true)
    {field : String} {search : Search} (hs : q.vectorSearch? = some (field, search)) :
    ∃ statement : Placeholder → Compiled,
      (∀ p, q.toVectorSearch (d.marking p) = .ok (statement p)) ∧
        Aligned spaced statement (q.searchSlots field search) := by
  refine ⟨fun p => ((q.statement d).nearest d.pagination field search).compile (d.marking p),
    ?_, ?_⟩
  · intro p
    rw [toVectorSearch, hs, statement_marking]
    rfl
  · exact ((laid hd q h).lays_nearest d.pagination (isPlain_field_of_vectorSearch? h hs)
      search).aligned fun _ => rfl

end Query

/-! ### Writes -/

theorem lays_whereClause (hd : d.isPlain = true) {conditions : List Node}
    (h : arePlainNodes spaced conditions = true) :
    Lays spaced [] true (whereClause d conditions) (nodeSlots conditions) :=
  lays_clause (by decide) (lays_nodeLexemes hd false false false conditions h)

theorem whereClause_marking (p : Placeholder) (conditions : List Node) :
    whereClause (d.marking p) conditions = whereClause d conditions := by
  rw [whereClause, whereClause, nodeLexemes_marking]

theorem suffix_toList_append {s t : String} (h : s.toList <:+ lead) :
    (s ++ t).toList <:+ lead ++ t.toList := by
  obtain ⟨front, rfl⟩ := h
  exact ⟨front, by rw [String.toList_append, List.append_assoc]⟩

theorem lays_values {before : String} {assignments : List Assignment}
    (h : arePlainAssignments assignments = true) (hb : before.toList <:+ lead) :
    Lays spaced lead false
      (Fragment.separated ", " (assignments.map fun a => a.assigned.pieces))
      (valueSlots before assignments) := by
  induction assignments generalizing before lead with
  | nil => exact .nil
  | cons a rest ih =>
    rw [arePlainAssignments, List.all_cons, Bool.and_eq_true] at h
    obtain ⟨column, assigned⟩ := a
    have hnull : Text.isPlain "NULL" = true := by decide
    cases rest with
    | nil =>
      cases assigned with
      | value v => exact .argument hb .nil
      | null => exact .of_plain hnull
      | expression text => exact .of_plain (Bool.and_eq_true_iff.1 h.1).2
    | cons b rest =>
      -- what is no value stays in front of the next value
      have next : ∀ {lead : List Char} {before : String} {behind : Bool}, before.toList <:+ lead →
          Lays spaced lead behind
            (.text ", " :: Fragment.separated ", "
              ((b :: rest).map fun a => a.assigned.pieces))
            (valueSlots (before ++ ", ") (b :: rest)) := by
        intro lead before behind hb
        have hsep : (behind && ", ".isEmpty) = false := Bool.and_false behind
        exact .text rfl (fun _ _ => by decide) (hsep ▸ ih h.2 (suffix_toList_append hb))
      cases assigned with
      | value v => exact .argument hb (@next [] "" true List.nil_suffix)
      | null =>
        exact .cons_plain hnull (next (suffix_toList_append hb))
      | expression text =>
        exact .cons_plain (Bool.and_eq_true_iff.1 h.1).2 (next (suffix_toList_append hb))

theorem Insert.aligned (d : Dialect) (spaced : Bool) {i : Insert} (h : i.isPlain = true) :
    Aligned spaced (fun p => i.compile (d.marking p)) i.slots := by
  rw [isPlain, Bool.and_eq_true] at h
  have hcolumns : Text.isPlain (", ".intercalate (i.assignments.map Assignment.column)) = true := by
    refine Text.isPlain_intercalate rfl ?_
    rw [List.all_map, List.all_eq_true]
    intro a ha
    exact (Bool.and_eq_true_iff.1 (List.all_eq_true.1 h.2 a ha)).1
  let word := "INSERT INTO " ++ i.table ++ " (" ++
    ", ".intercalate (i.assignments.map Assignment.column) ++ ") VALUES ("
  -- the first value stands directly behind the opening parenthesis of the values
  have hb : " VALUES (".toList <:+ [] ++ word.toList := by
    have hlast : " VALUES (".toList <:+ ") VALUES (".toList := by decide
    rw [List.nil_append, String.toList_append]
    exact hlast.trans (List.suffix_append _ _)
  have hword : Lays spaced [] false
      (.text word :: (Fragment.separated ", " (i.assignments.map fun a => a.assigned.pieces)))
      i.slots := by
    refine .cons_plain ?_ (lays_values h.2 hb)
    simp only [word, Text.isPlain_append, h.1, hcolumns]
    rfl
  exact (hword.append_word (by decide)).aligned (d := d) fun p => rfl

theorem lays_assignment {a : Assignment} (h : arePlainAssignments [a] = true) :
    Lays spaced [] false a.pieces a.slots := by
  obtain ⟨column, assigned⟩ := a
  simp only [arePlainAssignments, List.all_cons, List.all_nil, Bool.and_true,
    Bool.and_eq_true] at h
  have hc : Text.isPlain (column ++ " = ") = true := by
    rw [Text.isPlain_append, h.1]
    rfl
  refine .cons_plain hc ?_
  cases assigned with
  | value v => exact .argument List.suffix_rfl .nil
  | null => exact .of_plain (by decide)
  | expression text => exact .of_plain h.2

theorem Update.aligned (hd : d.isPlain = true) {u : Update} (h : u.isPlain spaced = true) :
    Aligned spaced (fun p => u.compile (d.marking p)) u.slots := by
  simp only [isPlain, Bool.and_eq_true] at h
  obtain ⟨⟨ht, ha⟩, hc⟩ := h
  -- each assignment lays out its own slots, wherever it stands in the list
  have hlist : List.Forall₂ (fun f slots => Lays spaced [] false f slots)
      (u.assignments.map Assignment.pieces) (u.assignments.map Assignment.slots) := by
    rw [List.forall₂_map_left_iff, List.forall₂_map_right_iff, List.forall₂_same]
    intro a hm
    refine lays_assignment ?_
    rw [arePlainAssignments, List.all_cons, List.all_nil, Bool.and_true]
    exact List.all_eq_true.1 ha a hm
  have hset : Lays spaced [] false
      (Fragment.separated ", " (u.assignments.map Assignment.pieces))
      (u.assignments.flatMap Assignment.slots) :=
    .separated (by decide) hlist
  have hword : Lays spaced [] false
      (.text ("UPDATE " ++ u.table ++ " SET ") ::
        Fragment.separated ", " (u.assignments.map Assignment.pieces))
      (u.assignments.flatMap Assignment.slots) := by
    refine .cons_plain ?_ (hset.weaken List.nil_suffix fun hb => hb)
    simp only [Text.isPlain_append, ht]
    rfl
  refine (hword.append (lays_whereClause hd hc)).aligned (d := d) fun p => ?_
  rw [Update.compile, whereClause_marking]

theorem Delete.aligned (hd : d.isPlain = true) {x : Delete} (h : x.isPlain spaced = true) :
    Aligned spaced (fun p => x.compile (d.marking p)) x.slots := by
  rw [isPlain, Bool.and_eq_true] at h
  have hf : Lays spaced [] true [.text ("DELETE FROM " ++ x.table)] [] :=
    .of_word (Text.isWord_append (by decide) h.1)
  refine (hf.append (lays_whereClause hd h.2)).aligned (d := d) fun p => ?_
  rw [Delete.compile, whereClause_marking]
  rfl

/-! ### All statements -/

/-- **Placeholders and arguments line up in every statement.**  Ask of a query or a write that marks
stand only in raw pieces of text, one question mark for each of their arguments and no dollar sign.
Then its statements have as many question marks as arguments, each mark stands where its argument
belongs, and the numbered style puts `$1`, `$2`, … in the places of the marks and has the same
arguments and the same names. -/
theorem statements_aligned (d : Dialect) (spaced : Bool) (hd : d.isPlain = true) :
    (∀ q : Query, q.isPlain spaced = true →
      Aligned spaced (fun p => (q.toSelect (d.marking p)).compiled) q.slots ∧
      (∀ p, (q.toSelect (d.marking p)).labels = (q.toSelect d).labels) ∧
      Aligned spaced (fun p => q.toCount (d.marking p)) q.countSlots ∧
      ∀ field search, q.vectorSearch? = some (field, search) →
        ∃ statement : Placeholder → Compiled,
          (∀ p, q.toVectorSearch (d.marking p) = .ok (statement p)) ∧
            Aligned spaced statement (q.searchSlots field search)) ∧
    (∀ i : Insert, i.isPlain = true →
      Aligned spaced (fun p => i.compile (d.marking p)) i.slots) ∧
    (∀ u : Update, u.isPlain spaced = true →
      Aligned spaced (fun p => u.compile (d.marking p)) u.slots) ∧
    ∀ x : Delete, x.isPlain spaced = true →
      Aligned spaced (fun p => x.compile (d.marking p)) x.slots := by
  refine ⟨fun q h => ⟨?_, ?_, ?_, ?_⟩, fun i h => ?_, fun u h => ?_, fun x h => ?_⟩
  · exact q.aligned_toSelect hd h
  · exact fun p => q.labels_toSelect p
  · exact q.aligned_toCount hd h
  · exact fun field search hs => q.aligned_toVectorSearch hd h hs
  · exact i.aligned d spaced h
  · exact u.aligned hd h
  · exact x.aligned hd h

/-- A raw piece of text behind a nested query, in a dialect with an escape character. -/
theorem statements_aligned_of_nested :
    let d := Dialect.postgres.withCustom "like_escape" "!"
    let inner : Query :=
      ⟨{ Outline.empty with results := ["x.id"] }, [⟨"x", none, none, none, none⟩],
        [.ofValue (.pattern .contains) "x.name" (.text "%a?%")], [], [], []⟩
    let q : Query :=
      ⟨.empty, [⟨"t", none, none, none, none⟩],
        [⟨.subquery, "id IN", some (.query inner), []⟩, .orMark,
          ⟨.raw, "a BETWEEN ? AND ?", some (.args [.int 1, .int 2]), []⟩], [], [], []⟩
    Aligned true (fun p => (q.toSelect (d.marking p)).compiled) q.slots := by
  intro d inner q
  have hd : d.isPlain = true := by decide
  have hq : q.isPlain true = true := by decide
  exact ((statements_aligned d true hd).1 q hq).1

/-- A digit that stands directly behind a question mark of a raw piece of text becomes part of the
number. -/
theorem tokens_of_digit_behind_mark :
    ∃ q, Query.build [.source "t", .criterion (.raw "a = ?0" [.int 7])] = .ok q ∧
      q.isPlain false = true ∧ (q.toSelect .postgres).arguments.length = 1 ∧
      Marks.tokens (q.toSelect .postgres).sql.toList = [['1', '0']] ∧
      Marks.tokens (q.toSelect .postgres).sql.toList ≠
        (List.range' 1 (q.toSelect .postgres).arguments.length).map fun n =>
          (toString n).toList := by
  refine ⟨_, rfl, ?_, ?_, ?_, ?_⟩
  · decide
  · decide
  · decide
  · decide

end QueryTree
