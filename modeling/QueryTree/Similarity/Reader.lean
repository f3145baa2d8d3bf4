import QueryTree.Json.Raw
import QueryTree.Similarity.Search

/-!
# Reading similarity settings

Metrics and wishes for diversity are read from JSON text.  The fields of a strategy stand beside
those of the wish, and an entry names the strategy.

* `Metric.read?`, `Diversity.read?` — the settings of a text.
-/

namespace QueryTree

/-! ### Metrics -/

/-- The metric of a text. -/
def Metric.read? (s : String) : Option Metric := do
  let name ← (← RawJson.parse? s).choice?
  Metric.all.find? fun m => m.name == name

namespace Diversity

/-! ### Strategies -/

/-- The only value under a key. -/
def only? (key : String) (entries : List (String × RawJson)) : Option RawJson :=
  match RawJson.valuesAt key entries with
  | [j] => some j
  | _ => none

/-- The name of a strategy, given as a text or as its position among the strategies. -/
def strategyName? (j : RawJson) : Option String :=
  match j.text?, j.word? with
  | some name, _ => some name
  | none, some n => ["hash", "min_distance", "mmr"][n.toNat]?
  | none, none => none

/-- The strategy of some entries. -/
def strategy? (entries : List (String × RawJson)) : Option Strategy := do
  match ← strategyName? (← only? "strategy" entries) with
  | "hash" => return .hash (← (← only? "field" entries).text?)
  | "min_distance" => return .minDistance (← (← only? "min_distance" entries).single?)
  | "mmr" => return .mmr (← (← only? "lambda" entries).single?)
  | _ => none

/-! ### Wishes -/

/-- How deep the value of an entry of a strategy may be nested. -/
def maxDepth : Nat := 126

/-- The wish of some entries.  Beside its own fields all entries belong to the strategy; they must
be sound even where the strategy has no use for them. -/
def ofEntries? (entries : List (String × RawJson)) : Option Diversity := do
  let enabled ← (← only? "enabled" entries).bool?
  let overFetch ← (← only? "over_fetch" entries).word?
  let others := entries.filter fun e => e.1 != "enabled" && e.1 != "over_fetch"
  if others.all fun e => e.2.isSound && e.2.depth ≤ maxDepth then
    return ⟨enabled, ← strategy? others, overFetch⟩
  else none

/-- The wish of a text. -/
def read? (s : String) : Option Diversity := do ofEntries? (← (← RawJson.parse? s).entries?)

end Diversity

end QueryTree
