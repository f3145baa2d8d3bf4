/-!
# Tokens of JSON text

A text is split into punctuation, strings and words in one pass over its characters.  A word is a
maximal run of other characters; whether it is a number or a literal is settled later.  The escapes
of a string are resolved, but the two halves of a surrogate pair stay apart.

* `JsonToken.scan?` — the tokens of a text, unless a string in it is malformed.
* `StringPart.decode?` — the text of a string, unless it holds half a surrogate pair.
-/

namespace QueryTree

/-! ### Strings -/

/-- A part of a string between its quotes. -/
inductive StringPart where
  | char (c : Char)
  /-- An escaped code unit of sixteen bits. -/
  | unit (n : Nat)
  deriving DecidableEq

namespace StringPart

/-- The first half of a surrogate pair. -/
def isLeading (n : Nat) : Bool := 0xD800 ≤ n && n ≤ 0xDBFF

/-- The second half of a surrogate pair. -/
def isTrailing (n : Nat) : Bool := 0xDC00 ≤ n && n ≤ 0xDFFF

/-- The character of a surrogate pair. -/
def pairChar (first second : Nat) : Char :=
  Char.ofNat (0x10000 + (first - 0xD800) * 0x400 + (second - 0xDC00))

/-- The characters of a string, unless it holds half a surrogate pair. -/
def decodeChars? : List StringPart → Option (List Char)
  | [] => some []
  | .char c :: rest => (decodeChars? rest).map (c :: ·)
  | .unit n :: rest =>
    if isLeading n then
      match rest with
      | .unit m :: rest =>
        if isTrailing m then (decodeChars? rest).map (pairChar n m :: ·) else none
      | _ => none
    else if isTrailing n then none
    else (decodeChars? rest).map (Char.ofNat n :: ·)

/-- The text of a string, unless it holds half a surrogate pair. -/
def decode? (parts : List StringPart) : Option String :=
  (decodeChars? parts).map String.ofList

end StringPart

/-! ### Tokens -/

/-- A token. -/
inductive JsonToken where
  | beginArray
  | endArray
  | beginObject
  | endObject
  | colon
  | comma
  | string (parts : List StringPart)
  | word (cs : List Char)
  deriving DecidableEq

namespace JsonToken

/-- The four characters that are white space between tokens. -/
def isGap (c : Char) : Bool := c == ' ' || c == '\n' || c == '\t' || c == '\r'

/-- The token of a punctuation mark. -/
def punctuation? (c : Char) : Option JsonToken :=
  if c = '[' then some beginArray
  else if c = ']' then some endArray
  else if c = '\x7b' then some beginObject
  else if c = '\x7d' then some endObject
  else if c = ':' then some colon
  else if c = ',' then some comma
  else none

/-- What a single escaped character stands for. -/
def unescape? (c : Char) : Option Char :=
  if c = '"' ∨ c = '\\' ∨ c = '/' then some c
  else if c = 'b' then some '\x08'
  else if c = 'f' then some '\x0c'
  else if c = 'n' then some '\n'
  else if c = 'r' then some '\r'
  else if c = 't' then some '\t'
  else none

/-- The value of a hexadecimal digit. -/
def hexValue? (c : Char) : Option Nat :=
  if c.isDigit then some (c.toNat - '0'.toNat)
  else if 'a' ≤ c ∧ c ≤ 'f' then some (c.toNat - 'a'.toNat + 10)
  else if 'A' ≤ c ∧ c ≤ 'F' then some (c.toNat - 'A'.toNat + 10)
  else none

/-- Where in a token the scan stands; what the token holds so far is in reverse. -/
inductive Position where
  | outside
  | inWord (cs : List Char)
  | inString (parts : List StringPart)
  /-- Behind a backslash. -/
  | inEscape (parts : List StringPart)
  /-- Among the four digits of a code unit. -/
  | inUnit (parts : List StringPart) (missing value : Nat)

/-- The tokens so far, in reverse, and where the scan stands. -/
structure Scan where
  tokens : List JsonToken
  position : Position

namespace Scan

/-- A character outside of strings and words. -/
def stepOutside (tokens : List JsonToken) (c : Char) : Scan :=
  if isGap c then ⟨tokens, .outside⟩
  else if c = '"' then ⟨tokens, .inString []⟩
  else
    match punctuation? c with
    | some t => ⟨t :: tokens, .outside⟩
    | none => ⟨tokens, .inWord [c]⟩

/-- Whether a character ends a word. -/
def endsWord (c : Char) : Bool := isGap c || c == '"' || (punctuation? c).isSome

/-- One more character, unless it cannot stand where it does. -/
def step (s : Scan) (c : Char) : Option Scan :=
  match s.position with
  | .outside => some (stepOutside s.tokens c)
  | .inWord cs =>
    if endsWord c then some (stepOutside (.word cs.reverse :: s.tokens) c)
    else some ⟨s.tokens, .inWord (c :: cs)⟩
  | .inString parts =>
    if c = '"' then some ⟨.string parts.reverse :: s.tokens, .outside⟩
    else if c = '\\' then some ⟨s.tokens, .inEscape parts⟩
    else if c.toNat < 0x20 then none
    else some ⟨s.tokens, .inString (.char c :: parts)⟩
  | .inEscape parts =>
    if c = 'u' then some ⟨s.tokens, .inUnit parts 4 0⟩
    else (unescape? c).map fun c => ⟨s.tokens, .inString (.char c :: parts)⟩
  | .inUnit parts missing value =>
    (hexValue? c).map fun digit =>
      let value := 16 * value + digit
      if missing ≤ 1 then ⟨s.tokens, .inString (.unit value :: parts)⟩
      else ⟨s.tokens, .inUnit parts (missing - 1) value⟩

/-- The tokens, unless the text ends inside a string. -/
def finish (s : Scan) : Option (List JsonToken) :=
  match s.position with
  | .outside => some s.tokens.reverse
  | .inWord cs => some (.word cs.reverse :: s.tokens).reverse
  | _ => none

end Scan

/-- The tokens of a text, unless a string in it is malformed. -/
def scan? (cs : List Char) : Option (List JsonToken) :=
  (cs.foldlM Scan.step ⟨[], .outside⟩).bind Scan.finish

end JsonToken

end QueryTree
