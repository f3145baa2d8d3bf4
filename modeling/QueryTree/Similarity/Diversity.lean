import QueryTree.Json.Printer

/-!
# Diversity of search results

A similarity search can ask for hits that differ from each other.  The backend does not do this
itself: more hits than wanted are fetched, and the caller ranks them again with a strategy.

* `Diversity` — the strategy and how many times the wanted number of hits is fetched.
* `Diversity.render` — its text, in the order of declaration.
-/

namespace QueryTree

/-- How hits are told apart. -/
inductive Diversity.Strategy where
  /-- No two hits have the same value of a field. -/
  | hash (field : String)
  /-- Every two hits are at least this far apart. -/
  | minDistance (distance : Single)
  /-- Relevance is weighed against novelty. -/
  | mmr (lambda : Single)

/-- The wish for diverse hits. -/
structure Diversity where
  /-- Whether the wish counts at all. -/
  enabled : Bool
  /-- How hits are told apart. -/
  strategy : Diversity.Strategy
  /-- How many times the wanted number of hits is fetched. -/
  overFetch : UInt64

namespace Diversity

/-- A strategy with the usual factor, five. -/
def new (strategy : Strategy) : Diversity := ⟨true, strategy, 5⟩

/-- Another factor; zero keeps the present one. -/
def withOverFetch (d : Diversity) (factor : UInt64) : Diversity :=
  if factor = 0 then d else { d with overFetch := factor }

/-- The same wish, switched off. -/
def disabled (d : Diversity) : Diversity := { d with enabled := false }

/-- The factor that a fetch is multiplied by: one unless the wish counts, and never zero. -/
def factor (d : Diversity) : UInt64 :=
  if d.enabled ∧ d.overFetch ≠ 0 then d.overFetch else 1

namespace Strategy

/-- The name under which settings refer to the strategy. -/
def name : Strategy → String
  | hash _ => "hash"
  | minDistance _ => "min_distance"
  | mmr _ => "mmr"

/-- The name of the strategy's parameter. -/
def parameterName : Strategy → String
  | hash _ => "field"
  | minDistance _ => "min_distance"
  | mmr _ => "lambda"

/-- The text of the strategy's parameter. -/
def parameterText : Strategy → String
  | hash field => Json.quoted field
  | minDistance x => Json.singleText x
  | mmr x => Json.singleText x

end Strategy

/-- One entry of an object, its value given as text. -/
def entryText (key value : String) : String := Json.quoted key ++ ":" ++ value

/-- The settings as JSON text, in the order of declaration; numbers keep their 32 bits. -/
def render (d : Diversity) : String :=
  "\x7b" ++ ",".intercalate
    [entryText "enabled" (if d.enabled then "true" else "false"),
      entryText "strategy" (Json.quoted d.strategy.name),
      entryText d.strategy.parameterName d.strategy.parameterText,
      entryText "over_fetch" (toString d.overFetch.toNat)] ++ "\x7d"

end Diversity

end QueryTree
