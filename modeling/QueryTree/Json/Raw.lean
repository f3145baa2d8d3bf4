import QueryTree.Json.Numeral
import QueryTree.Json.Token

/-!
# Trees of JSON text

The tree of a text before its strings and numbers are looked into.  A reader that ignores an entry
is not disturbed by a string or a number in it that has no value.

* `RawJson.parse?` — the tree of a text.
* `RawJson.isSound` — whether all strings and numbers in a tree have values.
* `RawJson.depth` — how deep arrays and objects are nested.
-/

namespace QueryTree

/-- The tree of a JSON text, strings and numbers as they are written. -/
inductive RawJson where
  | null
  | bool (b : Bool)
  | number (n : Numeral)
  | string (parts : List StringPart)
  | array (items : List RawJson)
  | object (entries : List (List StringPart × RawJson))

namespace RawJson

/-! ### From tokens to trees -/

/-- An array or an object that is not complete, what it holds in reverse. -/
inductive Frame where
  | array (items : List RawJson)
  /-- The entries so far and the key of the next one. -/
  | object (entries : List (List StringPart × RawJson)) (key : List StringPart)

/-- What the next token has to be. -/
inductive Expected where
  | value
  /-- A value, or the end of an array that is still empty. -/
  | firstItem
  /-- A key, or the end of an object that is still empty. -/
  | firstKey
  /-- A key, behind these entries. -/
  | key (entries : List (List StringPart × RawJson))
  /-- A colon, behind a key. -/
  | colon (entries : List (List StringPart × RawJson)) (key : List StringPart)
  /-- Whatever continues behind a value. -/
  | after (v : RawJson)

/-- The containers around the next token, the innermost first, and what the token has to be. -/
structure State where
  frames : List Frame
  expected : Expected

/-- The value of a word, if it is a literal or a numeral. -/
def ofWord? (cs : List Char) : Option RawJson :=
  if cs = ['n', 'u', 'l', 'l'] then some null
  else if cs = ['t', 'r', 'u', 'e'] then some (bool true)
  else if cs = ['f', 'a', 'l', 's', 'e'] then some (bool false)
  else (Numeral.ofChars? cs).map number

namespace State

/-- A token where a value has to begin. -/
def beginValue (frames : List Frame) : JsonToken → Option State
  | .string parts => some ⟨frames, .after (.string parts)⟩
  | .word cs => (ofWord? cs).map fun v => ⟨frames, .after v⟩
  | .beginArray => some ⟨frames, .firstItem⟩
  | .beginObject => some ⟨frames, .firstKey⟩
  | _ => none

/-- A token behind a value. -/
def continueValue (frames : List Frame) (v : RawJson) (t : JsonToken) : Option State :=
  match frames, t with
  | .array items :: frames, .comma => some ⟨.array (v :: items) :: frames, .value⟩
  | .array items :: frames, .endArray =>
    some ⟨frames, .after (.array (v :: items).reverse)⟩
  | .object entries key :: frames, .comma => some ⟨frames, .key ((key, v) :: entries)⟩
  | .object entries key :: frames, .endObject =>
    some ⟨frames, .after (.object ((key, v) :: entries).reverse)⟩
  | _, _ => none

/-- One more token, unless it cannot stand where it does. -/
def step (s : State) (t : JsonToken) : Option State :=
  match s.expected with
  | .value => beginValue s.frames t
  | .firstItem =>
    if t = .endArray then some ⟨s.frames, .after (.array [])⟩
    else beginValue (.array [] :: s.frames) t
  | .firstKey =>
    match t with
    | .endObject => some ⟨s.frames, .after (.object [])⟩
    | .string key => some ⟨s.frames, .colon [] key⟩
    | _ => none
  | .key entries =>
    match t with
    | .string key => some ⟨s.frames, .colon entries key⟩
    | _ => none
  | .colon entries key =>
    if t = .colon then some ⟨.object entries key :: s.frames, .value⟩ else none
  | .after v => continueValue s.frames v t

/-- The tree, if it is complete. -/
def finish (s : State) : Option RawJson :=
  match s.frames, s.expected with
  | [], .after v => some v
  | _, _ => none

end State

/-- The tree of some tokens. -/
def ofTokens? (ts : List JsonToken) : Option RawJson :=
  (ts.foldlM State.step ⟨[], .value⟩).bind State.finish

/-- The tree of a text. -/
def parse? (s : String) : Option RawJson := (JsonToken.scan? s.toList).bind ofTokens?

/-! ### Properties of trees -/

mutual

/-- All strings and numbers of the tree have values. -/
def isSound : RawJson → Bool
  | null => true
  | bool _ => true
  | number n => n.value?.isSome
  | string parts => (StringPart.decode? parts).isSome
  | array items => areSound items
  | object entries => areSoundEntries entries

/-- All strings and numbers of some trees have values. -/
def areSound : List RawJson → Bool
  | [] => true
  | j :: js => isSound j && areSound js

/-- All strings and numbers of some entries have values. -/
def areSoundEntries : List (List StringPart × RawJson) → Bool
  | [] => true
  | (key, j) :: es => (StringPart.decode? key).isSome && isSound j && areSoundEntries es

end

mutual

/-- How deep arrays and objects are nested. -/
def depth : RawJson → Nat
  | array items => depthOf items + 1
  | object entries => depthOfEntries entries + 1
  | _ => 0

/-- The greatest depth of some trees. -/
def depthOf : List RawJson → Nat
  | [] => 0
  | j :: js => max (depth j) (depthOf js)

/-- The greatest depth of some entries. -/
def depthOfEntries : List (List StringPart × RawJson) → Nat
  | [] => 0
  | (_, j) :: es => max (depth j) (depthOfEntries es)

end

/-! ### Values of leaves -/

/-- The text of a string that has one. -/
def text? : RawJson → Option String
  | string parts => StringPart.decode? parts
  | _ => none

/-- The truth value of a literal. -/
def bool? : RawJson → Option Bool
  | bool b => some b
  | _ => none

/-- The value of a number that has one. -/
def number? : RawJson → Option Json
  | number n => n.value?
  | _ => none

/-- The word that a whole number is. -/
def word? (j : RawJson) : Option UInt64 :=
  match j.number? with
  | some (.integer n) => if 0 ≤ n.val then some (.ofNat n.val.toNat) else none
  | _ => none

/-- The number of 32 bits nearest to a number. -/
def single? (j : RawJson) : Option Single :=
  match j.number? with
  | some (.integer n) => some (Binary.ofInt .single n.val)
  | some (.float x) => some (Binary.convert .single (.finite x))
  | _ => none

/-- The entries of an object, if all its keys are texts. -/
def entries? : RawJson → Option (List (String × RawJson))
  | object entries => entries.mapM fun e => (StringPart.decode? e.1).map (·, e.2)
  | _ => none

/-- The name in a choice without contents: a string, or an object with one entry that is null. -/
def choice? (j : RawJson) : Option String :=
  match j with
  | object [(key, null)] => StringPart.decode? key
  | j => j.text?

/-- The values under a key, in order. -/
def valuesAt (key : String) (entries : List (String × RawJson)) : List RawJson :=
  (entries.filter fun e => e.1 == key).map Prod.snd

end RawJson

end QueryTree
