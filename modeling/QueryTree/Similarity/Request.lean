import QueryTree.Similarity.Filter

/-!
# Similarity requests

A query as the request of a similarity backend: the vector of its first similarity search, the
window of rows, the filter of its conditions and whatever the backend is told beyond that.

* `Request.ofQuery` — the request.
* `Query.toVectorJson` — the request as JSON, with the extensions of the query.
-/

namespace QueryTree

/-- How many nodes of some trees have an operator; of several searches only the first is taken. -/
def Node.countOp (op : Op) (nodes : List Node) : Nat :=
  Node.visitAll (fun k n => if n.op == op then k + 1 else k) 0 nodes

/-- A request of a similarity backend. -/
structure Request where
  vector : Option (List Single)
  limit : Option UInt64
  offset : Option UInt64
  filter : Filter
  withPayload : Bool
  scoreThreshold : Option Single
  /-- The width of the search in the index, and whether the index is left aside. -/
  params : Option (Option UInt64 × Bool)

namespace Request

/-! ### The request of a query -/

/-- The settings of a search, where one of them is not the default. -/
def paramsOf (s : Search) : Option (Option UInt64 × Bool) :=
  if s.hnswEf.isSome || s.exact then some (s.hnswEf, s.exact) else none

/-- The threshold of the first bound on a distance. -/
def thresholdOf (conditions : List Node) : Option Single :=
  match Node.findIn? (fun n => n.op == .distance) conditions with
  | some ⟨_, _, some (.distance d), _⟩ => some d.threshold
  | _ => none

/-- The filter of the conditions under the bound of the paging. -/
def filterOf (q : Query) : Filter :=
  let f := Filter.ofNodes q.conditions
  match q.outline.bound? with
  | some b => f.withBound (Filter.boundClause b)
  | none => f

/-- The request of a query. -/
def ofQuery (q : Query) : Request :=
  let search := q.vectorSearch?.map Prod.snd
  let window := q.outline.window
  { vector := search.map Search.vector
    limit := search.elim window.limit fun s => some s.fetchLimit
    offset := window.offset
    filter := filterOf q
    withPayload := search.elim true Search.withPayload
    scoreThreshold := thresholdOf q.conditions
    params := search.bind paramsOf }

/-! ### JSON -/

/-- An entry for a value that may be missing. -/
def entry {α : Type} (key : String) (f : α → Json) : Option α → List (String × Json)
  | some a => [(key, f a)]
  | none => []

/-- The settings of a search as JSON. -/
def paramsToJson (params : Option UInt64 × Bool) : Json :=
  .ofEntries (entry "hnsw_ef" .ofUInt64 params.1 ++ [("exact", .bool params.2)])

/-- The fields of the request, in the order of their keys; what is missing is left out. -/
def fields (r : Request) : List (String × Json) :=
  insertEntries
    (entry "vector" (fun xs => .array (xs.map .ofSingle)) r.vector ++
      entry "limit" .ofUInt64 r.limit ++
      entry "offset" .ofUInt64 r.offset ++
      (if r.filter.isEmpty then [] else [("filter", r.filter.toJson)]) ++
      [("with_payload", .bool r.withPayload)] ++
      entry "score_threshold" .ofSingle r.scoreThreshold ++
      entry "params" paramsToJson r.params)
    []

end Request

namespace Query

/-- The extensions among the conditions, in the order of the tree. -/
def extensions (q : Query) : List (String × Json) :=
  (Node.walkAll q.conditions).filterMap fun
    | ⟨.extension, key, some (.json j), _⟩ => some (key, j)
    | _ => none

/-- The request of the query as JSON; extensions replace the fields of their keys. -/
def toVectorJson (q : Query) : Json :=
  .object (insertEntries q.extensions (Request.ofQuery q).fields)

end Query

end QueryTree
