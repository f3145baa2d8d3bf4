/-!
# Blank text

A character is white space when it has the Unicode property `White_Space`.  Trimming, blankness
and the division into words all follow from that one class.

* `isSpace` — the class.
* `trim`, `isBlank`, `words` — what is left without it.
-/

namespace QueryTree

namespace Text

/-! ### The class -/

/-- White space: the twenty-five characters with the property `White_Space`. -/
def isSpace (c : Char) : Bool :=
  let n := c.toNat
  (9 ≤ n && n ≤ 13) || n == 0x20 || n == 0x85 || n == 0xA0 || n == 0x1680 ||
    (0x2000 ≤ n && n ≤ 0x200A) || n == 0x2028 || n == 0x2029 || n == 0x202F || n == 0x205F ||
    n == 0x3000

/-! ### Trimming and blankness -/

/-- The characters between the first and the last one that is not white space. -/
def trimChars (cs : List Char) : List Char :=
  ((cs.dropWhile isSpace).reverse.dropWhile isSpace).reverse

/-- A text without the white space at its two ends. -/
def trim (s : String) : String := String.ofList (trimChars s.toList)

/-- A text of white space only, the empty text included. -/
def isBlank (s : String) : Bool := s.toList.all isSpace

/-! ### Words -/

/-- The words of `cs`, the first of which continues `word` (kept in reverse). -/
def wordsFrom (word : List Char) : List Char → List (List Char)
  | [] => if word.isEmpty then [] else [word.reverse]
  | c :: cs =>
    if isSpace c then
      if word.isEmpty then wordsFrom [] cs else word.reverse :: wordsFrom [] cs
    else wordsFrom (c :: word) cs

/-- The maximal runs of characters that are not white space, in order. -/
def words (s : String) : List String := (wordsFrom [] s.toList).map String.ofList

end Text

end QueryTree
