import QueryTree.Proofs.Arguments.Slots
import QueryTree.Proofs.Arguments.Style

/-!
# Clauses lay out their slots

Clauses without nested queries.  Select lists, groupings, orders and windows have no slots; a leaf
of a condition has those of its operator.  A raw piece of text is cut at its question marks, and
what has been read since the last one is the text of the next slot.

* `lays_selectItems`, `lays_groupText`, `lays_orderText`, `lays_windowText` — clauses without slots.
* `lays_rawPieces` — a raw piece of text lays out a slot for each of its marks.
* `lays_leafPieces` — a leaf lays out its slots.
-/

namespace QueryTree

open Fragment

variable {d : Dialect} {spaced : Bool} {lead : List Char} {behind : Bool} {f g : Fragment}
  {slots slots' : List Slot}

/-! ### Texts of select items -/

namespace Text

theorem all_trimChars {p : Char → Bool} {cs : List Char} (h : cs.all p = true) :
    (trimChars cs).all p = true := by
  rw [List.all_eq_true] at h
  rw [trimChars, List.all_reverse, List.all_eq_true]
  intro c hc
  have hc := (List.dropWhile_sublist isSpace).subset hc
  exact h c ((List.dropWhile_sublist isSpace).subset (List.mem_reverse.1 hc))

theorem all_splitLast? {p : Char → Bool} {keyword cs before after : List Char}
    (hs : splitLast? keyword cs = some (before, after)) (h : cs.all p = true) :
    before.all p = true ∧ after.all p = true := by
  induction cs generalizing before after with
  | nil => cases hs
  | cons c cs ih =>
    have hcs := h
    rw [List.all_cons, Bool.and_eq_true] at hcs
    unfold splitLast? at hs
    split at hs
    · next b a hba =>
      cases hs
      obtain ⟨hb, ha⟩ := ih hba hcs.2
      exact ⟨by rw [List.all_cons, hcs.1, hb]; rfl, ha⟩
    · split at hs
      · cases hs
        refine ⟨rfl, List.all_eq_true.2 fun x hx => ?_⟩
        exact List.all_eq_true.1 h x (List.mem_of_mem_drop hx)
      · cases hs

end Text

/-! ### Flat clauses -/

namespace Fragment.Lays

theorem separated {separator : String} {fs : List Fragment} {ss : List (List Slot)}
    (hs : Text.isWord separator = true)
    (h : List.Forall₂ (fun f slots => Lays spaced [] false f slots) fs ss) :
    Lays spaced [] false (Fragment.separated separator fs) ss.flatten := by
  induction h with
  | nil => exact .nil
  | @cons f slots fs ss hf hrest ih =>
    cases fs with
    | nil =>
      cases hrest
      rw [List.flatten_cons, List.flatten_nil, List.append_nil]
      exact hf
    -- the separator stands behind all but the last fragment
    | cons g gs => exact hf.append (.cons_word hs ih)

theorem parenthesized (h : Lays spaced [] true f slots) :
    Lays spaced lead behind (Fragment.parenthesized f) slots :=
  .cons_word (by decide) (h.anywhere.append_word (by decide))

end Fragment.Lays

theorem lays_columnPiece {column : String} (h : Text.isPlain column = true) :
    Lays spaced [] false [columnPiece column] [] := by
  have hc : (Text.trimChars column.toList).all isPlainChar = true := Text.all_trimChars h
  -- both parts of a split column are parts of its text, so as plain as the text
  cases hs : splitLabel? (Text.trimChars column.toList) with
  | none =>
    simp only [columnPiece, hs]
    split
    · exact .item (by rwa [Text.isPlain_ofList]) .nil
    · exact .of_plain (by rwa [Text.isPlain_ofList])
  | some found =>
    obtain ⟨expression, label⟩ := found
    simp only [columnPiece, hs]
    unfold splitLabel? at hs
    split at hs
    · next before after hba =>
      obtain ⟨hb, ha⟩ := Text.all_splitLast? hba hc
      simp only at hs
      split at hs
      · cases hs
        refine .labelled ?_ ?_ .nil
        · rw [Text.isPlain_ofList, Text.all_trimChars hb]
        · rw [Text.isPlain_ofList, Text.all_trimChars ha]
      · cases hs
    · cases hs

theorem Aggregate.isPlain_expression {a : Aggregate} (h : Text.isPlain a.column = true) :
    Text.isPlain a.expression = true := by
  unfold expression AggregateFunction.call
  cases a.function with
  | count =>
    simp only
    split
    · rfl
    · rw [Text.isPlain_append, Text.isPlain_append, h]; rfl
  | _ =>
    simp only [Text.isPlain_append, h]
    rfl

theorem lays_items {items : List Piece} (h : ∀ piece ∈ items, Lays spaced [] false [piece] []) :
    Lays spaced [] false
      (if items.isEmpty then [.text "*"] else Fragment.separated ", " (items.map ([·]))) [] := by
  have hall : List.Forall₂ (fun f slots => Lays spaced [] false f slots) (items.map ([·]))
      (List.replicate items.length []) := by
    induction items with
    | nil => exact .nil
    | cons piece items ih =>
      obtain ⟨hp, hrest⟩ := List.forall_mem_cons.1 h
      exact .cons hp (ih hrest)
  have hs : Lays spaced [] false (Fragment.separated ", " (items.map ([·])))
      (List.replicate items.length []).flatten := .separated (by decide) hall
  rw [List.flatten_replicate_nil] at hs
  split
  · exact .of_plain rfl
  · exact hs

theorem lays_selectItems {o : Outline} (h : o.isPlain = true) :
    Lays spaced [] false (selectItems o) [] := by
  simp only [Outline.isPlain, Bool.and_eq_true, List.all_eq_true] at h
  obtain ⟨⟨⟨hr, ha⟩, -⟩, -⟩ := h
  -- the word `DISTINCT` changes nothing for the items behind it
  have of_items : ∀ {f : Fragment}, Lays spaced [] false f [] →
      Lays spaced [] false ((if o.distinct then [.text "DISTINCT "] else []) ++ f) [] := by
    intro f hf
    split
    · exact .cons_word (by decide) hf
    · exact hf
  refine of_items (lays_items ?_)
  intro piece hp
  rcases List.mem_append.1 hp with hp | hp
  · obtain ⟨column, hc, rfl⟩ := List.mem_map.1 hp
    exact lays_columnPiece (hr column hc)
  · obtain ⟨a, hm, rfl⟩ := List.mem_map.1 hp
    obtain ⟨hcolumn, hlabel⟩ := ha a hm
    have he := Aggregate.isPlain_expression hcolumn
    cases hl : a.label with
    | none => exact .of_plain he
    | some label =>
      rw [hl, Option.all_some] at hlabel
      exact .labelled he hlabel .nil

theorem lays_groupText {columns : List String} (h : columns.all Text.isPlain = true) :
    Lays spaced [] true (groupText columns) [] := by
  unfold groupText
  split
  · exact .nil
  · exact .of_word (Text.isWord_append (by decide) (Text.isPlain_intercalate rfl h))

theorem lays_orderText {keys : List String} (h : keys.all Text.isPlain = true) :
    Lays spaced [] true (orderText keys) [] := by
  unfold orderText
  split
  · exact .nil
  · exact .of_word (Text.isWord_append (by decide) (Text.isPlain_intercalate rfl h))

theorem SortKey.isPlain_text {k : SortKey} (h : Text.isPlain k.field = true) :
    Text.isPlain k.text = true := by
  have hd : Text.isPlain k.direction.symbol = true := by cases k.direction <;> rfl
  rw [text, Text.isPlain_append, Text.isPlain_append, h, hd]
  rfl

/-- The window of a query; without limit and offset it has no text. -/
theorem lays_windowText (p : Pagination) (w : Window) :
    Lays spaced [] true [.text (p.text w)] [] := by
  have hn := Text.isPlain_toString_nat
  have without : Lays spaced [] true [.text ""] [] := .text rfl (fun _ _ => by decide) .nil
  obtain ⟨limit, offset⟩ := w
  cases p with
  | limitOffset =>
    cases limit with
    | none =>
      simp only [Pagination.text, String.empty_append]
      cases offset with
      | none => exact without
      | some n => exact .of_word (Text.isWord_append (by decide) (hn _))
    | some m =>
      simp only [Pagination.text, String.append_assoc]
      refine .of_word (Text.isWord_append (by decide) ?_)
      rw [Text.isPlain_append, hn]
      cases offset with
      | none => rfl
      | some n =>
        simp only [Text.isPlain_append, hn]
        rfl
  | offsetFetch =>
    cases limit with
    | none =>
      cases offset with
      | none => exact without
      | some n =>
        simp only [Pagination.text, String.append_assoc]
        refine .of_word (Text.isWord_append (by decide) ?_)
        rw [Text.isPlain_append, hn]
        rfl
    | some m =>
      simp only [Pagination.text, String.append_assoc]
      refine .of_word (Text.isWord_append (by decide) ?_)
      simp only [Text.isPlain_append, hn]
      rfl

/-! ### Leaves -/

namespace Fragment.Lays

theorem infixed {key symbol : String} {v : Value} (hk : Text.isPlain key = true)
    (hs : Text.isPlain symbol = true) (h : Lays spaced [] true f slots) :
    Lays spaced [] false (QueryTree.infixed key symbol v ++ f)
      (operandSlot key symbol v :: slots) := by
  refine .cons_plain ?_ (.argument List.suffix_rfl h)
  simp only [Text.isPlain_append, hk, hs]
  rfl

end Fragment.Lays

theorem Comparison.isPlain_symbol (c : Comparison) : Text.isPlain c.symbol = true := by
  cases c <;> rfl

theorem Op.isPlain_symbol (op : Op) : Text.isPlain op.symbol = true := by
  cases op with
  | compare c => exact c.isPlain_symbol
  | pattern p => cases p <;> rfl
  | member m => cases m <;> rfl
  | null t => cases t <;> rfl
  | group j => cases j <;> rfl
  | _ => rfl

theorem Metric.isPlain_operator (m : Metric) : Text.isPlain m.operator = true := by
  cases m <;> rfl

theorem lays_escapeClause (h : d.isPlain = true) :
    Lays spaced [] true (escapeClause d) [] := by
  unfold escapeClause
  cases hc : d.likeEscape with
  | none => exact .nil
  | some c =>
    rw [Dialect.isPlain, hc, Option.all_some] at h
    simp only [String.append_assoc]
    refine .of_word (Text.isWord_append (by decide) ?_)
    rw [Text.isPlain_append, Text.isPlain, String.toList_singleton, List.all_cons, h]
    rfl

theorem rawPieces_cons_of_ne {c : Char} (h : c ≠ '?') (chunk cs : List Char) (vs : List Value) :
    rawPieces chunk (c :: cs) vs = rawPieces (c :: chunk) cs vs := by
  cases vs with
  | nil => rfl
  | cons v vs => rw [rawPieces, if_neg h]

/-- A raw piece of text, of which `chunk` has been read since the last argument, in reverse. -/
theorem lays_rawPieces {chunk cs : List Char} {vs : List Value}
    (hc : chunk.all isPlainChar = true) (hd : '$' ∉ cs) (hn : cs.count '?' = vs.length)
    (ha : spaced = true → Marks.apart cs = true)
    (hb : spaced = true → behind = true →
      Marks.startsWithDigit (chunk.reverse ++ cs) = false) :
    Lays spaced [] behind (rawPieces chunk cs vs)
      (List.zipWith (fun lead v => ⟨String.ofList lead, v⟩) (Marks.leads chunk.reverse cs) vs) := by
  induction cs generalizing chunk vs behind with
  | nil =>
    refine .text (by rw [Text.isPlain_ofList, List.all_reverse, hc]) (fun hs hbehind => ?_) .nil
    rw [String.toList_ofList]
    exact Marks.startsWithDigit_append_left (hb hs hbehind)
  | cons c cs ih =>
    rw [List.mem_cons, not_or] at hd
    by_cases hq : c = '?'
    · cases vs with
      | nil =>
        rw [hq, List.count_cons_self] at hn
        cases hn
      | cons v vs =>
        -- what has been read goes in front of the argument, and a new chunk begins behind it
        rw [hq, List.count_cons_self, List.length_cons, Nat.add_right_cancel_iff] at hn
        have ha : spaced = true →
            Marks.startsWithDigit cs = false ∧ Marks.apart cs = true := by
          intro hs
          simpa [Marks.apart, hq] using ha hs
        have hrest : Lays spaced [] true (rawPieces [] cs vs)
            (List.zipWith (fun lead v => ⟨String.ofList lead, v⟩) (Marks.leads [] cs) vs) :=
          ih rfl hd.2 hn (fun hs => (ha hs).2) fun hs _ => (ha hs).1
        rw [rawPieces, if_pos hq, Marks.leads, if_pos hq, List.zipWith_cons_cons]
        refine .text (by rw [Text.isPlain_ofList, List.all_reverse, hc]) (fun hs hbehind => ?_)
          (.argument ?_ hrest)
        · rw [String.toList_ofList]
          exact Marks.startsWithDigit_append_left (hb hs hbehind)
        · exact List.suffix_rfl
    · rw [rawPieces_cons_of_ne hq, Marks.leads, if_neg hq, ← List.reverse_cons]
      rw [List.count_cons_of_ne hq] at hn
      refine ih ?_ hd.2 hn ?_ ?_
      · rw [List.all_cons, hc, Bool.and_true, isPlainChar, bne_iff_ne.2 hq,
          bne_iff_ne.2 (Ne.symm hd.1)]
        rfl
      · intro hs
        have := ha hs
        rw [Marks.apart, Bool.and_eq_true] at this
        exact this.2
      · intro hs hbehind
        rw [List.reverse_cons, List.append_assoc]
        exact hb hs hbehind

theorem lays_raw {text : String} {vs : List Value} (h : isPlainRaw spaced text vs = true) :
    Lays spaced [] false (rawPieces [] text.toList vs) (rawSlots text vs) := by
  simp only [isPlainRaw, Bool.and_eq_true, Bool.or_eq_true, Bool.not_eq_true', beq_iff_eq] at h
  obtain ⟨⟨hd, hn⟩, ha⟩ := h
  refine lays_rawPieces rfl (by simpa using hd) hn ?_ fun _ hb => absurd hb Bool.false_ne_true
  -- only a spaced text is asked to keep digits off its marks
  intro hs
  rcases ha with ha | ha
  · rw [hs] at ha
    cases ha
  · exact ha

theorem Node.isPlain_key {op : Op} {key : String} {operand : Option Operand} {subs : List Node}
    (hr : op ≠ .raw) (h : isPlain spaced ⟨op, key, operand, subs⟩ = true) :
    Text.isPlain key = true := by
  unfold isPlain at h
  have h := (Bool.and_eq_true_iff.1 h).1
  split at h
  · exact absurd rfl hr
  · exact (Bool.and_eq_true_iff.1 h).1
  · exact (Bool.and_eq_true_iff.1 h).1
  · exact h

theorem Node.arePlain_subs {op : Op} {key : String} {operand : Option Operand} {subs : List Node}
    (h : isPlain spaced ⟨op, key, operand, subs⟩ = true) : arePlainNodes spaced subs = true := by
  unfold isPlain at h
  exact (Bool.and_eq_true_iff.1 h).2

theorem lays_leafPieces (hd : d.isPlain = true) {op : Op} {key : String}
    {operand : Option Operand} {subs : List Node}
    (h : Node.isPlain spaced ⟨op, key, operand, subs⟩ = true) :
    Lays spaced [] false (leafPieces d op key operand) (leafSlots op key operand) := by
  cases op with
  | raw =>
    -- without arguments a raw piece is only its text
    have of_key : (Text.isPlain key && arePlainNodes spaced subs) = true →
        Lays spaced [] false [.text key] [] := by
      rw [Bool.and_eq_true]
      exact fun h => .of_plain h.1
    cases operand with
    | none => exact of_key h
    | some operand =>
      cases operand with
      | args vs => exact lays_raw (Bool.and_eq_true_iff.1 h).1
      | _ => exact of_key h
  | null t =>
    refine .of_plain ?_
    simp only [Text.isPlain_append, Node.isPlain_key (by simp) h, Op.isPlain_symbol]
    rfl
  | compare c =>
    cases operand with
    | none => exact .nil
    | some operand =>
      cases operand with
      | value v => exact .infixed (Node.isPlain_key (by simp) h) c.isPlain_symbol .nil
      | _ => exact .nil
  | pattern p =>
    cases operand with
    | none => exact .nil
    | some operand =>
      cases operand with
      | value v =>
        exact .infixed (Node.isPlain_key (by simp) h) (Op.isPlain_symbol _) (lays_escapeClause hd)
      | _ => exact .nil
  | member m =>
    cases operand with
    | none => exact .nil
    | some operand =>
      cases operand with
      | value v =>
        have hkv : (Text.isPlain key && v.isPlain) = true := (Bool.and_eq_true_iff.1 h).1
        rw [Bool.and_eq_true] at hkv
        refine .of_plain ?_
        simp only [Text.isPlain_append, hkv.1, Op.isPlain_symbol, v.isPlain_literal hkv.2]
        rfl
      | _ => exact .nil
  | distance =>
    cases operand with
    | none => exact .nil
    | some operand =>
      cases operand with
      | distance bound =>
        refine .infixed (Node.isPlain_key (by simp) h) bound.metric.isPlain_operator ?_
        exact .text rfl (fun _ _ => by decide) (.argument List.suffix_rfl .nil)
      | _ => exact .nil
  | _ => exact .nil

end QueryTree
