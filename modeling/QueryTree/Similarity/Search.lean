import QueryTree.Saturating
import QueryTree.Similarity.Diversity
import QueryTree.Similarity.Metric

/-!
# Similarity searches

The parameters of a search for the nearest neighbours of a vector, and those of a bound on the
distance to a vector.

* `Search.fetchLimit` — how many hits are asked for.
-/

namespace QueryTree

/-- A search for the nearest neighbours of a vector. -/
structure Search where
  vector : List Single
  /-- How many hits are wanted. -/
  limit : UInt64
  metric : Metric
  diversity : Option Diversity
  /-- How widely the index is searched, where the default does not do. -/
  hnswEf : Option UInt64
  /-- Whether the index is left aside. -/
  exact : Bool
  /-- Whether hits come with their payload. -/
  withPayload : Bool

namespace Search

/-- A search with the default settings. -/
def new (vector : List Single) (limit : UInt64) : Search :=
  ⟨vector, limit, .cosine, none, none, false, true⟩

/-- The search with another metric. -/
def withMetric (s : Search) (m : Metric) : Search := { s with metric := m }

/-- The search with diverse hits. -/
def withDiversity (s : Search) (d : Diversity) : Search := { s with diversity := some d }

/-- The search with another width; zero is the default width. -/
def withHnswEf (s : Search) (ef : UInt64) : Search :=
  { s with hnswEf := if ef = 0 then none else some ef }

/-- The search without the index. -/
def exactly (s : Search) : Search := { s with exact := true }

/-- The search without payload. -/
def withoutPayload (s : Search) : Search := { s with withPayload := false }

/-- How many hits are asked for: more than are wanted where they have to differ. -/
def fetchLimit (s : Search) : UInt64 :=
  match s.diversity with
  | some d => saturatingMul s.limit d.factor
  | none => s.limit

end Search

/-- A bound on the distance to a vector. -/
structure Distance where
  vector : List Single
  metric : Metric
  threshold : Single

namespace Distance

/-- A bound under the default metric. -/
def new (vector : List Single) (threshold : Single) : Distance := ⟨vector, .cosine, threshold⟩

/-- The bound under another metric. -/
def withMetric (d : Distance) (m : Metric) : Distance := { d with metric := m }

end Distance

end QueryTree
