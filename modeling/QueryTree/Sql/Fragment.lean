import QueryTree.Dialect.Basic
import QueryTree.Value.Basic

/-!
# Fragments of statements

A statement is put together from pieces: plain text, places of arguments, and select items with a
name.  Only when the whole statement is known are the places numbered and the items without a name
of their own given one.

* `Piece`, `Fragment` — the parts of a statement.
* `Fragment.render` — the text, for one style of marking arguments.
* `Fragment.arguments`, `Fragment.labels` — the arguments in order, and what the names stand for.
* `Fragment.render_append`, `Fragment.labels_append` — a fragment behind another one is numbered
  from where the other one ends, and otherwise does not depend on it.
-/

namespace QueryTree

/-- A part of a statement. -/
inductive Piece where
  | text (s : String)
  /-- The place of an argument. -/
  | argument (v : Value)
  /-- A select item that gets the next free name. -/
  | item (expression : String)
  /-- A select item with a name of its own. -/
  | labelled (expression label : String)

/-- Parts of a statement in order. -/
abbrev Fragment : Type := List Piece

/-- How many arguments and free names have been used. -/
structure Numbering where
  arguments : Nat
  names : Nat

namespace Numbering

/-- The numbering at the start of a statement. -/
def start : Numbering := ⟨0, 0⟩

/-- The numbering behind a piece. -/
def after (n : Numbering) : Piece → Numbering
  | .argument _ => { n with arguments := n.arguments + 1 }
  | .item _ => { n with names := n.names + 1 }
  | _ => n

/-- The numbering behind a fragment. -/
def afterAll (n : Numbering) (f : Fragment) : Numbering := f.foldl after n

end Numbering

/-! ### Rendering -/

/-- The mark of the argument behind `n` others. -/
def Placeholder.mark (p : Placeholder) (n : Nat) : String :=
  match p with
  | question => "?"
  | dollar => "$" ++ toString (n + 1)

/-- The free name behind `n` others. -/
def freeName (n : Nat) : String := "c" ++ toString n

/-- The text of a piece. -/
def Piece.render (p : Placeholder) (n : Numbering) : Piece → String
  | text s => s
  | argument _ => p.mark n.arguments
  | item expression => expression ++ " AS " ++ freeName n.names
  | labelled expression label => expression ++ " AS " ++ label

/-- What a piece adds to the meaning of the names. -/
def Piece.label? (n : Numbering) : Piece → Option (String × String)
  | item expression => some (freeName n.names, expression)
  | labelled expression label => some (label, expression)
  | _ => none

namespace Fragment

/-- The text of a fragment. -/
def render (p : Placeholder) (n : Numbering) : Fragment → String
  | [] => ""
  | piece :: rest => piece.render p n ++ render p (n.after piece) rest

/-- The arguments of a fragment, in order. -/
def arguments : Fragment → List Value
  | [] => []
  | .argument v :: rest => v :: arguments rest
  | _ :: rest => arguments rest

/-- The names that a fragment gives, in order, with what they stand for. -/
def labels (n : Numbering) : Fragment → List (String × String)
  | [] => []
  | piece :: rest => (piece.label? n).toList ++ labels (n.after piece) rest

theorem render_append {p : Placeholder} {n : Numbering} {f g : Fragment} :
    render p n (f ++ g) = render p n f ++ render p (n.afterAll f) g := by
  induction f generalizing n with
  | nil => simp [render, Numbering.afterAll]
  | cons piece rest ih => simp [render, ih, Numbering.afterAll, String.append_assoc]

@[simp] theorem arguments_append {f g : Fragment} :
    arguments (f ++ g) = arguments f ++ arguments g := by
  induction f with
  | nil => rfl
  | cons piece rest ih => cases piece <;> simp [arguments, ih]

theorem labels_append {n : Numbering} {f g : Fragment} :
    labels n (f ++ g) = labels n f ++ labels (n.afterAll f) g := by
  induction f generalizing n with
  | nil => simp [labels, Numbering.afterAll]
  | cons piece rest ih => simp [labels, ih, Numbering.afterAll, List.append_assoc]

theorem arguments_afterAll {n : Numbering} {f : Fragment} :
    (n.afterAll f).arguments = n.arguments + (arguments f).length := by
  induction f generalizing n with
  | nil => rfl
  | cons piece rest ih =>
    rw [Numbering.afterAll, List.foldl_cons, ← Numbering.afterAll, ih]
    cases piece with
    | argument v => exact Nat.succ_add_eq_add_succ n.arguments (arguments rest).length
    | text s => rfl
    | item expression => rfl
    | labelled expression label => rfl

/-- The fragment has no text at all. -/
def isVoid (f : Fragment) : Bool :=
  f.all fun
    | .text s => s.isEmpty
    | _ => false

/-- Fragments one after the other, a text between each two. -/
def separated (separator : String) : List Fragment → Fragment
  | [] => []
  | [f] => f
  | f :: rest => f ++ .text separator :: separated separator rest

/-- The fragment in parentheses. -/
def parenthesized (f : Fragment) : Fragment := .text "(" :: f ++ [.text ")"]

end Fragment

/-! ### Compiled statements -/

/-- The text of a statement and its arguments. -/
structure Compiled where
  sql : String
  arguments : List Value

/-- A compiled query, with what the names of its columns stand for. -/
structure CompiledSelect where
  sql : String
  arguments : List Value
  labels : KeyMap String

namespace Fragment

/-- The compiled statement. -/
def compile (d : Dialect) (f : Fragment) : Compiled :=
  ⟨f.render d.placeholder .start, f.arguments⟩

/-- The compiled query. -/
def compileSelect (d : Dialect) (f : Fragment) : CompiledSelect :=
  ⟨f.render d.placeholder .start, f.arguments, .ofList (f.labels .start)⟩

end Fragment

end QueryTree
