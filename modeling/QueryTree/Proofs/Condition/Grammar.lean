import QueryTree.Sql.Condition

/-!
# The grammar of conditions

The text of a condition is a sequence of lexemes.  It is read the usual way: "and" binds tighter
than "or", both associate to the left, and a leaf counts as one symbol whatever its text is.

* `Factor`, `Chain`, `Formula` — the expressions of the grammar.  Empty parentheses and connectives
  without an operand on both sides have no place in them.
* `Formula.lexemes`, `Formula.holds` — how a formula is written, and its truth value.
* `Formula.sql`, `Formula.render_lexemes` — the SQL text of a formula, and of its lexemes.
* `Formula.read?` — the formula that some lexemes spell, read from left to right.
* `Formula.read?_eq_some_iff` — reading accepts exactly what writing produces.
-/

namespace QueryTree

mutual

/-- An operand: a leaf with its text, or a formula in parentheses. -/
inductive Factor where
  | leaf (n : Node) (text : Fragment)
  | group (e : Formula)

/-- Operands joined by "and". -/
inductive Chain where
  | one (f : Factor)
  | and (c : Chain) (f : Factor)

/-- Chains joined by "or". -/
inductive Formula where
  | one (c : Chain)
  | or (e : Formula) (c : Chain)

end

/-! ### Writing -/

/-- The lexeme of a connective. -/
def connective (or : Bool) : Lexeme := if or then .or else .and

mutual

/-- An operand as it is written. -/
def Factor.lexemes : Factor → List Lexeme
  | .leaf n text => [.leaf n text]
  | .group e => .opening :: (e.lexemes ++ [.closing])

/-- A chain as it is written. -/
def Chain.lexemes : Chain → List Lexeme
  | .one f => f.lexemes
  | .and c f => c.lexemes ++ connective false :: f.lexemes

/-- A formula as it is written. -/
def Formula.lexemes : Formula → List Lexeme
  | .one c => c.lexemes
  | .or e c => e.lexemes ++ connective true :: c.lexemes

end

/-! ### Text -/

/-- The word of a connective between two operands. -/
def connectiveWord (or : Bool) : String := if or then " OR " else " AND "

section

variable (p : Placeholder)

mutual

/-- An operand as SQL text, its arguments counted on from a numbering. -/
def Factor.sql (n : Numbering) : Factor → String
  | .leaf _ text => text.render p n
  | .group e => "(" ++ e.sql n ++ ")"

/-- A chain as SQL text: the operands with "and" between them. -/
def Chain.sql (n : Numbering) : Chain → String
  | .one f => f.sql n
  | .and c f =>
    c.sql n ++ connectiveWord false ++ f.sql (n.afterAll (c.lexemes.flatMap Lexeme.pieces))

/-- A formula as SQL text: the chains with "or" between them. -/
def Formula.sql (n : Numbering) : Formula → String
  | .one c => c.sql n
  | .or e c =>
    e.sql n ++ connectiveWord true ++ c.sql (n.afterAll (e.lexemes.flatMap Lexeme.pieces))

end

variable {p}

theorem render_connective (n : Numbering) (or : Bool) (ts us : List Lexeme) :
    Fragment.render p n ((ts ++ connective or :: us).flatMap Lexeme.pieces) =
      Fragment.render p n (ts.flatMap Lexeme.pieces) ++ connectiveWord or ++
        Fragment.render p (n.afterAll (ts.flatMap Lexeme.pieces)) (us.flatMap Lexeme.pieces) := by
  rw [List.flatMap_append, Fragment.render_append, String.append_assoc]
  cases or <;> rfl

mutual

theorem Factor.render_lexemes (n : Numbering) (f : Factor) :
    Fragment.render p n (f.lexemes.flatMap Lexeme.pieces) = f.sql p n := by
  cases f with
  | leaf m text =>
    rw [Factor.lexemes, List.flatMap_singleton]
    rfl
  | group e =>
    have inner := Formula.render_lexemes n e
    have opened : (Factor.group e).lexemes.flatMap Lexeme.pieces =
        .text "(" :: (e.lexemes.flatMap Lexeme.pieces ++ [.text ")"]) := by
      simp [Factor.lexemes, Lexeme.pieces]
    rw [opened, Fragment.render, Fragment.render_append, Factor.sql, String.append_assoc, ← inner]
    rfl

theorem Chain.render_lexemes (n : Numbering) (c : Chain) :
    Fragment.render p n (c.lexemes.flatMap Lexeme.pieces) = c.sql p n := by
  cases c with
  | one f => exact Factor.render_lexemes n f
  | and c f => rw [Chain.lexemes, render_connective, Chain.render_lexemes n c,
      Factor.render_lexemes _ f, Chain.sql]

/-- **The text of a formula's lexemes is the text of the formula.** -/
theorem Formula.render_lexemes (n : Numbering) (e : Formula) :
    Fragment.render p n (e.lexemes.flatMap Lexeme.pieces) = e.sql p n := by
  cases e with
  | one c => exact Chain.render_lexemes n c
  | or e c => rw [Formula.lexemes, render_connective, Formula.render_lexemes n e,
      Chain.render_lexemes _ c, Formula.sql]

end

end

/-! ### Truth -/

section

variable (ν : Node → Bool)

mutual

/-- The truth value of an operand, given those of the leaves. -/
def Factor.holds : Factor → Bool
  | .leaf n _ => ν n
  | .group e => e.holds

/-- A chain is the conjunction of its operands. -/
def Chain.holds : Chain → Bool
  | .one f => f.holds
  | .and c f => c.holds && f.holds

/-- A formula is the disjunction of its chains. -/
def Formula.holds : Formula → Bool
  | .one c => c.holds
  | .or e c => e.holds || c.holds

end

end

/-! ### Extension on the right -/

namespace Formula

/-- The formula of a single operand. -/
def ofFactor (f : Factor) : Formula := .one (.one f)

/-- The formula with a further operand on its right: behind "or" the operand starts a chain, behind
"and" it continues the last one. -/
def extend (or : Bool) (f : Factor) : Formula → Formula
  | .one c => if or then .or (.one c) (.one f) else .one (.and c f)
  | .or e c => if or then .or (.or e c) (.one f) else .or e (.and c f)

/-- The formula with a further chain on its right. -/
def addChain (e : Option Formula) (c : Chain) : Formula :=
  match e with
  | none => .one c
  | some e => .or e c

theorem lexemes_extend (or : Bool) (f : Factor) (e : Formula) :
    (e.extend or f).lexemes = e.lexemes ++ connective or :: f.lexemes := by
  cases e <;> cases or <;> simp [extend, lexemes, Chain.lexemes]

theorem extend_addChain (e : Option Formula) (c : Chain) (f : Factor) :
    (addChain e c).extend false f = addChain e (.and c f) := by
  cases e <;> rfl

end Formula

theorem Factor.lexemes_ne_nil (f : Factor) : f.lexemes ≠ [] := by
  cases f <;> simp [lexemes]

theorem Chain.lexemes_ne_nil (c : Chain) : c.lexemes ≠ [] := by
  cases c with
  | one f => exact f.lexemes_ne_nil
  | and c f => simp [lexemes]

theorem Formula.lexemes_ne_nil (e : Formula) : e.lexemes ≠ [] := by
  cases e with
  | one c => exact c.lexemes_ne_nil
  | or e c => simp [lexemes]

/-! ### Reading -/

/-- What has been read of the inside of a pair of parentheses. -/
inductive Level where
  | vacant
  /-- A formula, behind which a connective may stand. -/
  | complete (e : Formula)
  /-- A formula and a connective, behind which an operand must stand. -/
  | due (e : Formula) (or : Bool)

namespace Level

/-- Whether an operand may come next. -/
def awaits : Level → Bool
  | complete _ => false
  | _ => true

/-- Takes an operand. -/
def take? (f : Factor) : Level → Option Level
  | vacant => some (complete (.ofFactor f))
  | due e or => some (complete (e.extend or f))
  | complete _ => none

/-- Takes a connective. -/
def join? (or : Bool) : Level → Option Level
  | complete e => some (due e or)
  | _ => none

/-- Reads on from a level, given the levels around it, the innermost first. -/
def read? (outer : List Level) (l : Level) : List Lexeme → Option Formula
  | [] =>
    match outer, l with
    | [], complete e => some e
    | _, _ => none
  | .leaf n text :: rest => (l.take? (.leaf n text)).bind fun l => read? outer l rest
  | .and :: rest => (l.join? false).bind fun l => read? outer l rest
  | .or :: rest => (l.join? true).bind fun l => read? outer l rest
  | .opening :: rest => if l.awaits then read? (l :: outer) vacant rest else none
  | .closing :: rest =>
    match outer, l with
    | around :: outer, complete e =>
      (around.take? (.group e)).bind fun l => read? outer l rest
    | _, _ => none

/-- The level at which a chain is read. -/
def before : Option Formula → Level
  | none => vacant
  | some e => due e true

theorem take?_before (e : Option Formula) (f : Factor) :
    (before e).take? f = some (complete (Formula.addChain e (.one f))) := by
  cases e with
  | none => rfl
  | some e => cases e <;> rfl

theorem read?_connective (outer : List Level) (e : Formula) (or : Bool) (rest : List Lexeme) :
    read? outer (complete e) (connective or :: rest) = read? outer (due e or) rest := by
  cases or <;> rfl

/-! ### What is written can be read -/

mutual

theorem read?_factor (outer : List Level) (l : Level) (f : Factor) (rest : List Lexeme) :
    read? outer l (f.lexemes ++ rest) = (l.take? f).bind fun l => read? outer l rest := by
  cases f with
  | leaf n text => rfl
  | group e =>
    -- a group is read on a level of its own, which its parenthesis closes
    have inner := read?_formula (l :: outer) e (.closing :: rest)
    cases l with
    | complete e => rfl
    | vacant => simpa [Factor.lexemes, read?, awaits] using inner
    | due e or => simpa [Factor.lexemes, read?, awaits] using inner

theorem read?_chain (outer : List Level) (e : Option Formula) (c : Chain) (rest : List Lexeme) :
    read? outer (before e) (c.lexemes ++ rest) =
      read? outer (complete (Formula.addChain e c)) rest := by
  cases c with
  | one f => rw [Chain.lexemes, read?_factor outer _ f, take?_before, Option.bind_some]
  | and c f =>
    rw [Chain.lexemes, List.append_assoc, read?_chain outer e c, List.cons_append,
      read?_connective, read?_factor outer _ f, take?, Option.bind_some, Formula.extend_addChain]

theorem read?_formula (outer : List Level) (e : Formula) (rest : List Lexeme) :
    read? outer vacant (e.lexemes ++ rest) = read? outer (complete e) rest := by
  cases e with
  | one c => exact read?_chain outer none c rest
  | or e c =>
    rw [Formula.lexemes, List.append_assoc, read?_formula outer e, List.cons_append,
      read?_connective]
    exact read?_chain outer (some e) c rest

end

/-! ### What can be read is written -/

/-- What has been read of a level, as it is written. -/
def lexemes : Level → List Lexeme
  | vacant => []
  | complete e => e.lexemes
  | due e or => e.lexemes ++ [connective or]

/-- What has been read of the levels around one. -/
def outerLexemes : List Level → List Lexeme
  | [] => []
  | l :: outer => outerLexemes outer ++ (l.lexemes ++ [.opening])

theorem lexemes_take? {l l' : Level} {f : Factor} (h : l.take? f = some l') :
    l'.lexemes = l.lexemes ++ f.lexemes := by
  cases l with
  | vacant => cases h; rfl
  | complete e => cases h
  | due e or => cases h; simp [lexemes, Formula.lexemes_extend]

theorem lexemes_join? {l l' : Level} {or : Bool} (h : l.join? or = some l') :
    l'.lexemes = l.lexemes ++ [connective or] := by
  cases l with
  | complete e => cases h; rfl
  | vacant => cases h
  | due e or => cases h

theorem lexemes_of_read? {outer : List Level} {l : Level} {ts : List Lexeme} {e : Formula}
    (h : read? outer l ts = some e) : e.lexemes = outerLexemes outer ++ (l.lexemes ++ ts) := by
  -- what has been read, on all levels, and what is still to come always make up the text
  induction ts generalizing outer l with
  | nil =>
    unfold read? at h
    split at h
    · cases h; simp [outerLexemes, lexemes]
    · cases h
  | cons t ts ih =>
    cases t with
    | leaf n text =>
      obtain ⟨l', hl, h⟩ := Option.bind_eq_some_iff.1 h
      rw [ih h, lexemes_take? hl, List.append_assoc]; rfl
    | and =>
      obtain ⟨l', hl, h⟩ := Option.bind_eq_some_iff.1 h
      rw [ih h, lexemes_join? hl, List.append_assoc]; rfl
    | or =>
      obtain ⟨l', hl, h⟩ := Option.bind_eq_some_iff.1 h
      rw [ih h, lexemes_join? hl, List.append_assoc]; rfl
    | opening =>
      rw [read?] at h
      split at h
      · rw [ih h]; simp [outerLexemes, lexemes]
      · cases h
    | closing =>
      unfold read? at h
      split at h
      · obtain ⟨l', hl, h⟩ := Option.bind_eq_some_iff.1 h
        rw [ih h, lexemes_take? hl]; simp [outerLexemes, lexemes, Factor.lexemes]
      · cases h

end Level

namespace Formula

/-- The formula that some lexemes spell. -/
def read? (ts : List Lexeme) : Option Formula := Level.read? [] .vacant ts

/-- **Reading accepts exactly what writing produces.**  So a text spells at most one formula. -/
theorem read?_eq_some_iff {ts : List Lexeme} {e : Formula} :
    read? ts = some e ↔ ts = e.lexemes := by
  constructor
  · intro h
    simpa [Level.outerLexemes, Level.lexemes] using (Level.lexemes_of_read? h).symm
  · rintro rfl
    simpa [read?, Level.read?] using Level.read?_formula [] e []

end Formula

end QueryTree
