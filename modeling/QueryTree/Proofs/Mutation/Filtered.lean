import QueryTree.Proofs.Build.Conditions
import QueryTree.Proofs.Condition.Rendering
import QueryTree.Sql.Mutation

/-!
# Writes keep their conditions

The conditions of an update or a deletion say which rows are written.  A bare "or", a similarity
search and an extension are not for statements, and neither is a group that holds nothing else; any
other condition leaves a text, and then the statement restricts its rows to those that the
conditions ask for.

* `isVisible_of_mem_nodeLexemes` — no part of a condition is without text.
* `Delete.head`, `Update.head` — a statement up to its conditions.
* `Restricts` — a statement goes on behind its head with a condition that says what some nodes mean.
* `filtered_write` — the statement of a write is restricted unless all its conditions vanish.
-/

namespace QueryTree

variable {d : Dialect}

/-! ### Texts that are not empty -/

namespace Fragment

theorem isVoid_append (f g : Fragment) : isVoid (f ++ g) = (isVoid f && isVoid g) :=
  List.all_append

theorem isVoid_flatMap {α : Type} {g : α → Fragment} {as : List α} :
    isVoid (as.flatMap g) = as.all fun a => isVoid (g a) := by
  induction as with
  | nil => rfl
  | cons a as ih => rw [List.flatMap_cons, isVoid_append, ih, List.all_cons]

end Fragment

theorem Piece.render_ne_empty {p : Placeholder} {n : Numbering} {piece : Piece}
    (h : Fragment.isVoid [piece] = false) : piece.render p n ≠ "" := by
  cases piece with
  | text s => simpa [Fragment.isVoid, render] using h
  | argument v => cases p <;> simp [render, Placeholder.mark]
  | item expression => simp [render]
  | labelled expression label => simp [render]

theorem Fragment.render_ne_empty {p : Placeholder} {n : Numbering} {f : Fragment}
    (h : f.isVoid = false) : f.render p n ≠ "" := by
  induction f generalizing n with
  | nil => cases h
  | cons piece f ih =>
    rw [render, ne_eq, String.append_eq_empty_iff]
    rintro ⟨hp, hf⟩
    rw [← List.singleton_append, isVoid_append, Bool.and_eq_false_iff] at h
    -- either this piece has a text or a later one has
    rcases h with h | h
    · exact Piece.render_ne_empty h hp
    · exact ih h hf

/-- The lexeme has a text. -/
def Lexeme.IsVisible (l : Lexeme) : Prop := l.pieces.isVoid = false

theorem Node.isVisible_of_leaf {n : Node} (h : n.op.isGroup = false) :
    ∀ l ∈ n.lexemes d, l.IsVisible := by
  intro l hl
  rw [lexemes_of_leaf h] at hl
  split at hl
  · cases hl
  · next hv =>
    rw [List.mem_singleton.1 hl]
    exact eq_false_of_ne_true hv

mutual

theorem Node.isVisible_of_mem_lexemes (n : Node) : ∀ l ∈ n.lexemes d, l.IsVisible := by
  obtain ⟨op, key, operand, subs⟩ := n
  cases op with
  | group j =>
    intro l hl
    rw [Node.lexemes_group] at hl
    split at hl
    · cases hl
    · simp only [List.cons_append, List.mem_cons, List.mem_append, List.not_mem_nil,
        or_false] at hl
      rcases hl with rfl | hl | rfl
      · rfl
      · exact isVisible_of_mem_nodeLexemes (j == .any) false false subs l hl
      · rfl
  | _ => exact Node.isVisible_of_leaf rfl

/-- **No part of a condition is without text.** -/
theorem isVisible_of_mem_nodeLexemes (alternatives started pendingOr : Bool) (ns : List Node) :
    ∀ l ∈ nodeLexemes d alternatives started pendingOr ns, l.IsVisible := by
  cases ns with
  | nil => exact fun _ h => absurd h List.not_mem_nil
  | cons n ns =>
    intro l hl
    rw [nodeLexemes] at hl
    split at hl
    · exact isVisible_of_mem_nodeLexemes alternatives started true ns l hl
    · split at hl
      · exact isVisible_of_mem_nodeLexemes alternatives started pendingOr ns l hl
      · rcases List.mem_append.1 hl with hl | hl
        · rcases List.mem_append.1 hl with hl | hl
          · cases started with
            | false => cases hl
            | true =>
              rw [List.mem_singleton.1 hl, joining]
              split <;> rfl
          · exact Node.isVisible_of_mem_lexemes n l hl
        · exact isVisible_of_mem_nodeLexemes alternatives true false ns l hl

end

/-! ### Restricted statements -/

/-- The statement goes on behind its head with the word and a condition.  The condition has a text,
and read by the grammar it has the truth value of the nodes. -/
def Restricts (d : Dialect) (nodes : List Node) (head sql : String) : Prop :=
  ∃ (condition : Formula) (text : String),
    (∃ n, text = Fragment.render d.placeholder n (condition.lexemes.flatMap Lexeme.pieces)) ∧
    sql = head ++ " WHERE " ++ text ∧ text ≠ "" ∧
      ∀ ν, Node.levelMeaning ν false nodes = some (condition.holds ν)

theorem render_whereClause {p : Placeholder} {head : Fragment} {nodes : List Node}
    (h : nodeLexemes d false false false nodes ≠ []) :
    (head ++ whereClause d nodes).render p .start =
      head.render p .start ++ " WHERE " ++
        Fragment.render p (Numbering.start.afterAll head)
          ((nodeLexemes d false false false nodes).flatMap Lexeme.pieces) := by
  rw [whereClause, clause, if_neg (by simpa using h), Fragment.render_append, Fragment.render,
    String.append_assoc]
  rfl

/-- What a statement becomes by some conditions: it is restricted, unless all of them vanish. -/
theorem restricts_of_build {criteria : List Criterion} {nodes : List Node}
    (h : Node.build criteria = .ok nodes) (head : Fragment) :
    ((∃ n ∈ nodes, n.vanishes = false) →
      Restricts d nodes (head.render d.placeholder .start)
        (Fragment.compile d (head ++ whereClause d nodes)).sql) ∧
    ((∀ n ∈ nodes, n.vanishes = true) →
      (Fragment.compile d (head ++ whereClause d nodes)).sql =
        head.render d.placeholder .start) := by
  obtain ⟨-, rfl⟩ := Node.build_eq_ok_iff.1 h
  have hd := Criterion.declared_addAll Draft.all_empty criteria
  rcases Node.declared_level d false hd with ⟨ht, hv⟩ | ⟨e, ht, hv, hm⟩
  · rw [Node.allVanish_iff] at hv
    refine ⟨?_, fun _ => ?_⟩
    · rintro ⟨n, hn, hstands⟩
      exact absurd (hv n hn) (by simp [hstands])
    · rw [whereClause, clause, ht, List.isEmpty_nil, if_pos rfl, List.append_nil]
      rfl
  · have hne : nodeLexemes d false false false (Criterion.addAll .empty criteria).nodes ≠ [] :=
      ht ▸ e.lexemes_ne_nil
    refine ⟨fun _ => ?_, fun hall => ?_⟩
    · refine ⟨e, _, ⟨_, rfl⟩, ht ▸ render_whereClause hne, Fragment.render_ne_empty ?_, hm⟩
      -- the condition has a lexeme, and every lexeme has a text
      obtain ⟨l, hl⟩ := List.exists_mem_of_ne_nil _ hne
      rw [Fragment.isVoid_flatMap, ← ht, ← Bool.not_eq_true, List.all_eq_true]
      exact fun hall => Bool.false_ne_true
        ((isVisible_of_mem_nodeLexemes false false false _ l hl).symm.trans (hall l hl))
    · rw [← Node.allVanish_iff, hv] at hall
      cases hall

/-! ### Writes -/

/-- The statement of a deletion up to its conditions. -/
def Delete.head (x : Delete) : Fragment := [.text ("DELETE FROM " ++ x.table)]

/-- The statement of an update up to its conditions. -/
def Update.head (u : Update) : Fragment :=
  .text ("UPDATE " ++ u.table ++ " SET ") ::
    Fragment.separated ", " (u.assignments.map Assignment.pieces)

theorem Delete.compile_eq (d : Dialect) (x : Delete) :
    x.compile d = Fragment.compile d (x.head ++ whereClause d x.conditions) := rfl

theorem Update.compile_eq (d : Dialect) (u : Update) :
    u.compile d = Fragment.compile d (u.head ++ whereClause d u.conditions) := rfl

/-- **A write with a condition that does not vanish never becomes one without conditions.**  In any
dialect, the statement of a deletion or an update goes on behind its head with "WHERE" and a
condition that has a text and says what the conditions mean, as soon as one of them is no bare "or",
no similarity search, no extension and no group of such nodes.  Otherwise the statement is its head
and writes every row. -/
theorem filtered_write (d : Dialect) :
    (∀ table criteria x, Delete.build table criteria = .ok x →
      ((∃ n ∈ x.conditions, n.vanishes = false) →
        Restricts d x.conditions ("DELETE FROM " ++ table) (x.compile d).sql) ∧
      ((∀ n ∈ x.conditions, n.vanishes = true) →
        (x.compile d).sql = "DELETE FROM " ++ table)) ∧
    ∀ table clauses u, Update.build table clauses = .ok u →
      ((∃ n ∈ u.conditions, n.vanishes = false) →
        Restricts d u.conditions (u.head.render d.placeholder .start) (u.compile d).sql) ∧
      ((∀ n ∈ u.conditions, n.vanishes = true) →
        (u.compile d).sql = u.head.render d.placeholder .start) := by
  constructor
  · intro table criteria x h
    obtain ⟨hn, rfl⟩ := Delete.build_eq_ok_iff.1 h
    -- the head of a deletion is one piece of text
    have hhead : x.head.render d.placeholder .start = "DELETE FROM " ++ x.table :=
      String.append_empty
    rw [← hhead]
    exact restricts_of_build hn x.head
  · intro table clauses u h
    exact restricts_of_build (Update.build_eq_ok_iff.1 h).1 u.head

/-- A deletion by name, with a field for the similarity backend beside the name. -/
theorem filtered_write_of_pattern :
    let x : Delete := ⟨"users", [⟨.extension, "hint", some (.json (.bool true)), []⟩,
      .ofValue (.pattern .startsWith) "name" (.text "a%")]⟩
    Delete.build "users" [.extension "hint" (.bool true), .pattern .startsWith "name" (.text "a")] =
        .ok x ∧ (∃ n ∈ x.conditions, n.vanishes = false) ∧
      Restricts .postgres x.conditions "DELETE FROM users" (x.compile .postgres).sql := by
  intro x
  have hb : Delete.build "users"
      [.extension "hint" (.bool true), .pattern .startsWith "name" (.text "a")] = .ok x := rfl
  have hv : ∃ n ∈ x.conditions, n.vanishes = false :=
    ⟨_, List.mem_cons_of_mem _ List.mem_cons_self, rfl⟩
  exact ⟨hb, hv, ((filtered_write .postgres).1 "users" _ x hb).1 hv⟩

/-- A deletion with a node that is no bare "or" and yet without a condition: an extension is not for
statements. -/
theorem unfiltered_delete_of_extension :
    let x : Delete := ⟨"users", [⟨.extension, "k", some (.json (.bool true)), []⟩]⟩
    Delete.build "users" [.extension "k" (.bool true)] = .ok x ∧
      (∃ n ∈ x.conditions, n.isConnective = false) ∧
      ∀ d, whereClause d x.conditions = [] ∧ (x.compile d).sql = "DELETE FROM users" := by
  intro x
  refine ⟨rfl, ⟨_, List.mem_cons_self, rfl⟩, fun d => ⟨rfl, ?_⟩⟩
  have hw : whereClause d x.conditions = [] := rfl
  rw [Delete.compile_eq, hw, List.append_nil]
  exact String.append_empty

end QueryTree
