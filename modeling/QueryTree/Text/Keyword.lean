/-!
# Keywords and occurrences in text

Matching of short ASCII keywords in any letter case, and the search for one text inside another.

* `sameIgnoringCase` — equality up to the case of ASCII letters.
* `splitLast?` — the text around the last occurrence of a keyword.
* `occurs_iff` — `occurs` decides whether one list of characters is a contiguous part of another.
-/

namespace QueryTree

namespace Text

/-! ### Letter case -/

/-- Equality up to the case of ASCII letters. -/
def sameIgnoringCase (a b : List Char) : Bool := a.map Char.toLower == b.map Char.toLower

/-- The text begins with the keyword, in any letter case. -/
def startsWithKeyword (keyword cs : List Char) : Bool :=
  sameIgnoringCase keyword (cs.take keyword.length)

/-- The text before and the text after the last occurrence of a keyword, in any letter case. -/
def splitLast? (keyword : List Char) : List Char → Option (List Char × List Char)
  | [] => none
  | c :: cs =>
    match splitLast? keyword cs with
    | some (before, after) => some (c :: before, after)
    | none =>
      if startsWithKeyword keyword (c :: cs) then some ([], (c :: cs).drop keyword.length)
      else none

/-! ### Occurrence -/

/-- `needle` is a contiguous part of the text. -/
def occurs (needle : List Char) : List Char → Bool
  | [] => needle.isEmpty
  | c :: cs => needle.isPrefixOf (c :: cs) || occurs needle cs

theorem occurs_iff {needle cs : List Char} : occurs needle cs = true ↔ needle <:+: cs := by
  induction cs with
  | nil => simp [occurs]
  | cons c cs ih => simp [occurs, ih, List.infix_cons_iff]

end Text

end QueryTree
