/-!
# Distance metrics

How far apart two vectors are.
-/

namespace QueryTree

/-- A distance metric between vectors. -/
inductive Metric where
  | cosine
  | l2
  | innerProduct
  deriving DecidableEq, Inhabited

namespace Metric

/-- The operator that computes the distance in a statement. -/
def operator : Metric → String
  | cosine => "<=>"
  | l2 => "<->"
  | innerProduct => "<#>"

/-- The name under which settings refer to the metric. -/
def name : Metric → String
  | cosine => "cosine"
  | l2 => "l2"
  | innerProduct => "inner_product"

/-- All metrics. -/
def all : List Metric := [cosine, l2, innerProduct]

end Metric

end QueryTree
