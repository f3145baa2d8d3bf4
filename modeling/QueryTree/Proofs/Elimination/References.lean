import QueryTree.Query.Elimination
import QueryTree.Text.Blank

/-!
# References in a text

Which names a piece of text refers to, read by the rules of names of the language.  The text is cut
into identifiers, quoted or not, numbers, strings and marks.  Identifiers with points between them
are one reference, of which the last one is the column.  A word that is reserved, the name of a
function and a name that is given behind "AS" refer to nothing.

* `NameRules` — what differs between dialects: letter case and reserved words.
* `Identifier`, `Token.scan` — identifiers, and the parts of a text.
* `Reference`, `references` — references, and those in a text.
* `written_infix_of_mem_references` — a qualifier stands in the text as it is written.
-/

namespace QueryTree

/-- What the rules of names leave to the dialect. -/
structure NameRules where
  /-- Letters that differ in case only have the same image. -/
  fold : Char → Char
  /-- The words that are no identifiers unless they are quoted. -/
  reserved : List Char → Bool

/-! ### Identifiers -/

/-- Whether a character quotes identifiers. -/
def isQuote (c : Char) : Bool := c == '"' || c == '\x60' || c == '[' || c == ']'

/-- Characters without those that quote identifiers. -/
def withoutQuotes (cs : List Char) : List Char := cs.filter fun c => !isQuote c

theorem unquote_eq (s : String) : unquote s = withoutQuotes s.toList := rfl

/-- An identifier as it is written.  What is in quotes has letters in the case in which they are
written. -/
structure Identifier where
  written : List Char
  quoted : Bool
  nonempty : withoutQuotes written ≠ []

namespace Identifier

/-- The identifier without quotes. -/
def text (i : Identifier) : List Char := withoutQuotes i.written

theorem text_ne_nil (i : Identifier) : i.text ≠ [] := i.nonempty

/-- The identifier that some characters are, unless nothing is left without the quotes. -/
def of? (quoted : Bool) (cs : List Char) : Option Identifier :=
  if h : withoutQuotes cs ≠ [] then some ⟨cs, quoted, h⟩ else none

/-- The identifier that a name is. -/
def ofName? (s : String) : Option Identifier := of? (s.toList.head?.any isQuote) s.toList

/-- Two identifiers can be the same.  Letter case matters only if both are quoted. -/
def agrees (rules : NameRules) (a b : Identifier) : Bool :=
  a.text == b.text || !(a.quoted && b.quoted) && a.text.map rules.fold == b.text.map rules.fold

theorem eq_of_of? {quoted : Bool} {cs : List Char} {i : Identifier} (h : of? quoted cs = some i) :
    i.written = cs := by
  rw [of?] at h
  split at h
  · cases h
    rfl
  · cases h

end Identifier

/-! ### Parts of a text -/

/-- What a part of a text is, as far as it has been read. -/
inductive TokenShape where
  /-- Nothing but white space, in front. -/
  | gap
  | word
  /-- In quotes, which this character closes. -/
  | quoting (close : Char)
  /-- Behind this character, which closes the quotes unless it is doubled. -/
  | quoted (close : Char)
  | string
  /-- Behind the mark that closes a string unless it is doubled. -/
  | stringEnd
  /-- A number or a parameter. -/
  | loose
  | mark
  deriving DecidableEq

namespace TokenShape

/-- Whether a character can stand in a word. -/
def isWordChar (c : Char) : Bool :=
  c.isAlphanum || c == '_' || c == '$' || (128 ≤ c.toNat && !Text.isSpace c)

/-- The shape of a part that begins with a character. -/
def start (c : Char) : TokenShape :=
  if c = '\'' then string
  else if c = '"' ∨ c = '\x60' then quoting c
  else if c = '[' then quoting ']'
  else if c.isDigit ∨ c = '$' ∨ c = ':' ∨ c = '@' ∨ c = '?' then loose
  else if isWordChar c then word
  else mark

/-- The shape after one more character, if that continues the part. -/
def next? (c : Char) : TokenShape → Option TokenShape
  | gap => none
  | word => if isWordChar c then some word else none
  | quoting close => if c = close then some (quoted close) else some (quoting close)
  | quoted close => if c = close then some (quoting close) else none
  | string => if c = '\'' then some stringEnd else some string
  | stringEnd => if c = '\'' then some string else none
  | loose => if isWordChar c || c == '.' || c == ':' then some loose else none
  | mark => none

end TokenShape

/-- A part of a text, and the white space behind it. -/
structure Token where
  shape : TokenShape
  chars : List Char
  gap : List Char

namespace Token

/-- The part as it is written, with the white space behind it. -/
def written (t : Token) : List Char := t.chars ++ t.gap

/-- The identifier that the part is, if it is one. -/
def identifier? (t : Token) : Option Identifier :=
  match t.shape with
  | .word => Identifier.of? false t.chars
  | .quoted _ => Identifier.of? true t.chars
  | _ => none

/-- The part is this mark. -/
def isMark (c : Char) (t : Token) : Bool := t.shape == .mark && t.chars == [c]

/-- The part is this word, in any letter case. -/
def isWord (rules : NameRules) (w : List Char) (t : Token) : Bool :=
  t.shape == .word && t.chars.map rules.fold == w.map rules.fold

/-- The parts of some characters, of which the first one has been read up to here; what has been
read of it and of the white space behind it is in reverse. -/
def scanFrom (shape : TokenShape) (chars gap : List Char) : List Char → List Token
  | [] => [⟨shape, chars.reverse, gap.reverse⟩]
  | c :: cs =>
    -- behind white space nothing continues the part
    match if gap.isEmpty then shape.next? c else none with
    | some shape => scanFrom shape (c :: chars) [] cs
    | none =>
      if Text.isSpace c then scanFrom shape chars (c :: gap) cs
      else ⟨shape, chars.reverse, gap.reverse⟩ :: scanFrom (.start c) [c] [] cs

/-- The parts of a text. -/
def scan (s : String) : List Token := scanFrom .gap [] [] s.toList

/-- Nothing is lost. -/
theorem written_scanFrom (shape : TokenShape) (chars gap cs : List Char) :
    (scanFrom shape chars gap cs).flatMap written = chars.reverse ++ gap.reverse ++ cs := by
  induction cs generalizing shape chars gap with
  | nil => simp [scanFrom, written]
  -- each character continues the token, or the white space behind it, or ends both
  | cons c cs ih =>
    rw [scanFrom]
    split
    · next h =>
      split at h
      · next hg =>
        rw [ih, List.isEmpty_iff.1 hg]
        simp
      · cases h
    · split
      · rw [ih]
        simp
      · rw [List.flatMap_cons, ih]
        simp [written]

theorem written_scan (s : String) : (scan s).flatMap written = s.toList :=
  written_scanFrom .gap [] [] s.toList

end Token

/-! ### References -/

/-- An identifier in front of a point, and the white space around the point. -/
structure Qualifier where
  name : Identifier
  before : List Char
  behind : List Char

/-- The qualifier as it is written, with its point. -/
def Qualifier.written (x : Qualifier) : List Char := x.name.written ++ x.before ++ '.' :: x.behind

/-- A reference to a column, or to all columns. -/
structure Reference where
  /-- What the column is qualified with, the innermost first. -/
  qualifiers : List Qualifier
  /-- The column; a star has none. -/
  column : Option Identifier

namespace Reference

/-- The names that the column is qualified with, the innermost first. -/
def names (r : Reference) : List Identifier := r.qualifiers.map Qualifier.name

/-- The qualifiers as they are written, the innermost last. -/
def written (qualifiers : List Qualifier) : List Char := qualifiers.reverse.flatMap Qualifier.written

theorem written_cons (x : Qualifier) (outer : List Qualifier) :
    written (x :: outer) = written outer ++ x.written := by
  simp [written]

end Reference

/-- The reference that a part ends, given what its column is qualified with and the part behind it. -/
def reference? (rules : NameRules) (qualifiers : List Qualifier) (t : Token) (next : Option Token) :
    Option Reference :=
  match t.identifier? with
  | some name =>
    if next.any (Token.isMark '(') then none
    else if qualifiers.isEmpty && !name.quoted && rules.reserved name.text then none
    else some ⟨qualifiers, some name⟩
  | none => if t.isMark '*' && !qualifiers.isEmpty then some ⟨qualifiers, none⟩ else none

/-- The qualifier that a part and the one behind it are. -/
def qualifier? (t u : Token) : Option Qualifier :=
  if u.isMark '.' then t.identifier?.map (⟨·, t.gap, u.gap⟩) else none

/-- The references in some parts of a text, with what the first one is qualified with. -/
def referencesFrom (rules : NameRules) (qualifiers : List Qualifier) : List Token → List Reference
  | [] => []
  | [t] => (reference? rules qualifiers t none).toList
  | t :: u :: rest =>
    -- the name behind "AS" is given, not referred to
    if qualifiers.isEmpty && t.isWord rules ['a', 's'] then referencesFrom rules [] rest
    else
      match qualifier? t u with
      | some x => referencesFrom rules (x :: qualifiers) rest
      | none => (reference? rules qualifiers t (some u)).toList ++ referencesFrom rules [] (u :: rest)

/-- The references in a text. -/
def references (rules : NameRules) (s : String) : List Reference :=
  referencesFrom rules [] (Token.scan s)

/-! ### Where qualifiers stand -/

theorem Token.written_of_identifier? {t : Token} {i : Identifier} (h : t.identifier? = some i) :
    i.written = t.chars := by
  rw [identifier?] at h
  split at h
  · exact Identifier.eq_of_of? h
  · exact Identifier.eq_of_of? h
  · cases h

theorem qualifiers_of_reference? {rules : NameRules} {qualifiers : List Qualifier} {t : Token}
    {next : Option Token} {r : Reference} (h : reference? rules qualifiers t next = some r) :
    r.qualifiers = qualifiers := by
  grind [reference?]

theorem written_of_qualifier? {t u : Token} {x : Qualifier} (h : qualifier? t u = some x) :
    x.written = t.written ++ u.written := by
  rw [qualifier?] at h
  split at h
  · next hu =>
    obtain ⟨name, hname, rfl⟩ := Option.map_eq_some_iff.1 h
    have hpoint : u.chars = ['.'] := by
      rw [Token.isMark, Bool.and_eq_true, beq_iff_eq, beq_iff_eq] at hu
      exact hu.2
    simp [Qualifier.written, Token.written, Token.written_of_identifier? hname, hpoint]
  · cases h

/-- A qualifier stands in the text as it is written. -/
theorem written_infix_of_mem_referencesFrom {rules : NameRules} {qualifiers : List Qualifier}
    {tokens : List Token} {r : Reference} (h : r ∈ referencesFrom rules qualifiers tokens) :
    Reference.written r.qualifiers <:+:
      Reference.written qualifiers ++ tokens.flatMap Token.written := by
  have of_reference {qualifiers : List Qualifier} {t : Token} {next : Option Token}
      (rest : List Char) (h : r ∈ (reference? rules qualifiers t next).toList) :
      Reference.written r.qualifiers <:+: Reference.written qualifiers ++ rest := by
    rw [qualifiers_of_reference? (Option.mem_toList.1 h)]
    exact (List.prefix_append _ _).isInfix
  -- what is behind the first parts starts afresh, without qualifiers
  have of_rest {qualifiers : List Qualifier} (parts : List Token) {rest : List Token}
      (h : Reference.written r.qualifiers <:+:
        Reference.written [] ++ rest.flatMap Token.written) :
      Reference.written r.qualifiers <:+:
        Reference.written qualifiers ++ (parts ++ rest).flatMap Token.written := by
    rw [List.flatMap_append, ← List.append_assoc]
    exact h.trans (List.suffix_append _ _).isInfix
  fun_induction referencesFrom rules qualifiers tokens with
  | case1 => cases h
  | case2 qualifiers t => exact of_reference _ h
  | case3 qualifiers t u rest hw ih => exact of_rest [t, u] (ih h)
  | case4 qualifiers t u rest hw x hx ih =>
    have := ih h
    rwa [Reference.written_cons, written_of_qualifier? hx, List.append_assoc, List.append_assoc]
      at this
  | case5 qualifiers t u rest hw hx ih =>
    rcases List.mem_append.1 h with h | h
    · exact of_reference _ h
    · exact of_rest [t] (ih h)

/-- **The qualifiers of a reference stand in the text as they are written.** -/
theorem written_infix_of_mem_references {rules : NameRules} {s : String} {r : Reference}
    (h : r ∈ references rules s) : Reference.written r.qualifiers <:+: s.toList := by
  have := written_infix_of_mem_referencesFrom h
  rwa [Token.written_scan] at this

end QueryTree
