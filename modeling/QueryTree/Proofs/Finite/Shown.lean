import QueryTree.Proofs.Arguments.Alignment

/-!
# Values that a statement shows

A statement shows values in two ways: as arguments, and as literals in its text.  Most of them have
been brought into the form that their place asks for; the arguments of a raw piece of text and the
vectors and thresholds of similarity searches are passed on as they were given.

* `Way`, `Shown` — a value and how it gets into a statement.
* `Shows` — the values that a fragment shows, in order.
* `leafShown`, `shows_leafPieces` — the values that a leaf of a condition shows.
-/

namespace QueryTree

/-- How a value gets into a statement. -/
inductive Way where
  /-- In the text, in the form that its criterion asks for. -/
  | literal
  /-- As an argument, in the form that its place asks for. -/
  | normalized
  /-- As an argument, as it was given. -/
  | given
  deriving DecidableEq

/-- A value that a statement shows. -/
structure Shown where
  way : Way
  value : Value

/-! ### Fragments -/

/-- The values that a fragment shows, in order. -/
inductive Shows : Fragment → List Shown → Prop
  | nil : Shows [] []
  | text (s : String) {f : Fragment} {shown : List Shown} (h : Shows f shown) :
    Shows (.text s :: f) shown
  | item (e : String) {f : Fragment} {shown : List Shown} (h : Shows f shown) :
    Shows (.item e :: f) shown
  | labelled (e label : String) {f : Fragment} {shown : List Shown} (h : Shows f shown) :
    Shows (.labelled e label :: f) shown
  | literal {before : String} (hb : before ≠ "") (v : Value) (behind : String) {f : Fragment}
    {shown : List Shown} (h : Shows f shown) :
    Shows (.text (before ++ v.literal ++ behind) :: f) (⟨.literal, v⟩ :: shown)
  | argument {way : Way} (hw : way ≠ .literal) (v : Value) {f : Fragment} {shown : List Shown}
    (h : Shows f shown) : Shows (.argument v :: f) (⟨way, v⟩ :: shown)

namespace Shows

variable {f g : Fragment} {shown shown' : List Shown}

theorem append (h : Shows f shown) (h' : Shows g shown') : Shows (f ++ g) (shown ++ shown') := by
  induction h with
  | nil => exact h'
  | text s _ ih => exact .text s ih
  | item e _ ih => exact .item e ih
  | labelled e label _ ih => exact .labelled e label ih
  | literal hb v behind _ ih => exact .literal hb v behind ih
  | argument hw v _ ih => exact .argument hw v ih

theorem append_of_nil (h : Shows f shown) (h' : Shows g []) : Shows (f ++ g) shown := by
  have := h.append h'
  rwa [List.append_nil] at this

theorem arguments (h : Shows f shown) :
    f.arguments = (shown.filter fun s => s.way != .literal).map Shown.value := by
  induction h with
  | nil => rfl
  | text s _ ih => exact ih
  | item e _ ih => exact ih
  | labelled e label _ ih => exact ih
  | literal hb v behind _ ih => exact ih
  | argument hw v _ ih =>
    rw [Fragment.arguments, List.filter_cons_of_pos (by simpa using hw), List.map_cons, ih]

theorem eq_nil_of_isVoid (h : Shows f shown) (hf : f.isVoid = true) : shown = [] := by
  induction h with
  | nil => rfl
  | text s _ ih =>
    rw [Fragment.isVoid_text, Bool.and_eq_true] at hf
    exact ih hf.2
  | item e _ ih => cases hf
  | labelled e label _ ih => cases hf
  | literal hb v behind _ ih => simp [hb] at hf
  | argument hw v _ ih => cases hf

theorem parenthesized (h : Shows f shown) : Shows f.parenthesized shown :=
  .text "(" (h.append_of_nil (.text ")" .nil))

theorem separated (separator : String) {fs : List Fragment} {parts : List (List Shown)}
    (h : List.Forall₂ Shows fs parts) : Shows (.separated separator fs) parts.flatten := by
  induction h with
  | nil => exact .nil
  | @cons f part fs parts hf hfs ih =>
    cases hfs with
    | nil => simpa [Fragment.separated] using hf
    | cons hg hgs => exact hf.append (.text separator ih)

theorem separated_of_nil (separator : String) {fs : List Fragment} (h : ∀ f ∈ fs, Shows f []) :
    Shows (.separated separator fs) [] := by
  have hall : List.Forall₂ Shows fs (fs.map fun _ => []) := by
    rw [List.forall₂_map_right_iff, List.forall₂_same]
    exact h
  simpa using Shows.separated separator hall

end Shows

/-! ### Clauses without values -/

theorem shows_selectItems (o : Outline) : Shows (selectItems o) [] := by
  -- an item holds no value, whatever its name
  have columnPiece_silent (column : String) : Shows [columnPiece column] [] := by
    rw [columnPiece]
    split
    · exact .labelled _ _ .nil
    · split
      · exact .item _ .nil
      · exact .text _ .nil
  have hd : Shows (if o.distinct then [.text "DISTINCT "] else []) [] := by
    split
    · exact .text _ .nil
    · exact .nil
  rw [selectItems]
  refine hd.append ?_
  split
  · exact .text _ .nil
  · refine .separated_of_nil _ fun f hf => ?_
    simp only [List.map_append, List.map_map, List.mem_append, List.mem_map] at hf
    rcases hf with ⟨column, -, rfl⟩ | ⟨a, -, rfl⟩
    · exact columnPiece_silent column
    · rw [Function.comp]
      cases a.label with
      | none => exact .text _ .nil
      | some label => exact .labelled _ _ .nil

theorem shows_groupText (columns : List String) : Shows (groupText columns) [] := by
  rw [groupText]
  split
  · exact .nil
  · exact .text _ .nil

theorem shows_orderText (keys : List String) : Shows (orderText keys) [] := by
  rw [orderText]
  split
  · exact .nil
  · exact .text _ .nil

/-! ### Leaves -/

/-- The values of a node that is no group and holds no query. -/
def leafShown (op : Op) (key : String) (operand : Option Operand) : List Shown :=
  match op, operand with
  | .compare _, some (.value v) => [⟨.normalized, v⟩]
  | .pattern _, some (.value v) => [⟨.normalized, v⟩]
  | .member _, some (.value v) => [⟨.literal, v⟩]
  | .raw, some (.args vs) => (vs.take (key.toList.count '?')).map (⟨.given, ·⟩)
  | .distance, some (.distance bound) =>
    [⟨.given, .vector bound.vector⟩, ⟨.given, .ofSingle bound.threshold⟩]
  | _, _ => []

theorem shows_rawPieces (chunk cs : List Char) (vs : List Value) :
    Shows (rawPieces chunk cs vs) ((vs.take (cs.count '?')).map (⟨.given, ·⟩)) := by
  induction cs generalizing chunk vs with
  | nil => exact .text _ .nil
  | cons c cs ih =>
    cases vs with
    -- no values are left, so the rest is one piece of text
    | nil => simpa [rawPieces] using ih (c :: chunk) []
    | cons v vs =>
      rw [rawPieces, List.count_cons]
      split
      · next hc =>
        rw [hc, if_pos (beq_self_eq_true _), List.take_succ_cons, List.map_cons]
        exact .text _ (.argument (by decide) v (ih [] vs))
      · next hc =>
        rw [if_neg (by simpa using hc)]
        exact ih (c :: chunk) (v :: vs)

theorem shows_infixed {way : Way} (hw : way ≠ .literal) (key symbol : String) (v : Value) :
    Shows (infixed key symbol v) [⟨way, v⟩] := .text _ (.argument hw v .nil)

variable {d : Dialect}

theorem shows_leafPieces (op : Op) (key : String) (operand : Option Operand) :
    Shows (leafPieces d op key operand) (leafShown op key operand) := by
  have normalized : Way.normalized ≠ .literal := nofun
  have given : Way.given ≠ .literal := nofun
  have escape : Shows (escapeClause d) [] := by
    rw [escapeClause]
    split
    · exact .text _ .nil
    · exact .nil
  -- each operator is written with one kind of operand only
  cases op with
  | compare c =>
    rcases operand with - | ⟨v⟩ | vs | q | s | bound | j
    · exact .nil
    · exact shows_infixed normalized _ _ _
    all_goals exact .nil
  | pattern p =>
    rcases operand with - | ⟨v⟩ | vs | q | s | bound | j
    · exact .nil
    · exact (shows_infixed normalized _ _ _).append_of_nil escape
    all_goals exact .nil
  | member m =>
    rcases operand with - | ⟨v⟩ | vs | q | s | bound | j
    · exact .nil
    · exact .literal (by simp) _ _ .nil
    all_goals exact .nil
  | null t => exact .text _ .nil
  | raw =>
    rcases operand with - | ⟨v⟩ | vs | q | s | bound | j
    · exact .text _ .nil
    · exact .text _ .nil
    · exact shows_rawPieces [] _ _
    all_goals exact .text _ .nil
  | distance =>
    rcases operand with - | ⟨v⟩ | vs | q | s | bound | j
    all_goals try exact .nil
    exact (shows_infixed given _ _ _).append (.text _ (.argument given _ .nil))
  | _ => exact .nil

end QueryTree
