import QueryTree.Similarity.Request

/-!
# Reading filters

What the filter of a similarity request says, read from its JSON.  A filter is passed if all clauses
under "must" are, none under "must_not" is and, where there are alternatives under "should", one of
them is.

* `Atom` — the conditions that the clauses of a filter state.
* `Json.passes` — the truth value of a filter in JSON, given those of its conditions.
* `Filter.holds` — the truth value of a filter before it becomes JSON.
* `Filter.passes_toJson` — JSON says what the filter says.
-/

namespace QueryTree

/-! ### Conditions of clauses -/

/-- A condition on a field, with its operand as the backend is given it. -/
inductive Atom where
  | compare (c : Comparison) (key : String) (operand : Json)
  | isIn (key : String) (members : List Json)
  | isNull (key : String)

namespace Atom

/-- The comparison that the name of a range stands for. -/
def comparison? (name : String) : Option Comparison :=
  if name = "gt" then some .gt
  else if name = "gte" then some .gte
  else if name = "lt" then some .lt
  else if name = "lte" then some .lte
  else none

/-- The condition of a match. -/
def ofMatch? (key : String) (entries : List (String × Json)) : Option Atom :=
  match entryAt? "value" entries, entryAt? "any" entries with
  | some j, none => some (.compare .eq key j)
  | none, some (.array js) => some (.isIn key js)
  | _, _ => none

/-- The condition of a range with one end. -/
def ofRange? (key : String) : List (String × Json) → Option Atom
  | [(name, j)] => (comparison? name).map fun c => .compare c key j
  | _ => none

/-- The condition of a clause that is no filter of its own. -/
def ofClause? (entries : List (String × Json)) : Option Atom :=
  match entryAt? "is_null" entries, entryAt? "key" entries, entryAt? "match" entries,
    entryAt? "range" entries with
  | some (.object [("key", .string key)]), none, none, none => some (.isNull key)
  | none, some (.string key), some (.object test), none => ofMatch? key test
  | none, some (.string key), none, some (.object test) => ofRange? key test
  | _, _, _, _ => none

end Atom

/-! ### Truth of JSON -/

namespace Json

section

variable (α : Atom → Bool)

mutual

/-- Whether a clause is passed: a condition, or a filter of its own. -/
def passes : Json → Bool
  | .object entries =>
    match Atom.ofClause? entries with
    | some a => α a
    | none => entriesPass entries
  | _ => false

/-- Whether all parts of a filter are passed; a part with another name never is. -/
def entriesPass : List (String × Json) → Bool
  | [] => true
  | (name, .array clauses) :: rest =>
    (if name = "must" then allPass clauses
      else if name = "must_not" then !anyPasses clauses
      else if name = "should" then clauses.isEmpty || anyPasses clauses
      else false) && entriesPass rest
  | _ :: _ => false

/-- Whether all of some clauses are passed. -/
def allPass : List Json → Bool
  | [] => true
  | c :: cs => passes c && allPass cs

/-- Whether one of some clauses is passed. -/
def anyPasses : List Json → Bool
  | [] => false
  | c :: cs => passes c || anyPasses cs

end

end

/-- The value of an entry of an object. -/
def entry? (key : String) : Json → Option Json
  | .object entries => entryAt? key entries
  | _ => none

/-- Whether a point passes a request; without a filter every point does. -/
def admits (α : Atom → Bool) (request : Json) : Bool := (request.entry? "filter").all (passes α)

end Json

/-! ### Truth of filters -/

/-- The condition of a test of a field. -/
def FieldTest.atom (key : String) : FieldTest → Atom
  | .value j => .compare .eq key j
  | .any js => .isIn key js
  | .range .gt j => .compare .gt key j
  | .range .gte j => .compare .gte key j
  | .range .lt j => .compare .lt key j
  | .range _ j => .compare .lte key j

section

variable (α : Atom → Bool)

mutual

/-- Whether a filter is passed. -/
def Filter.holds : Filter → Bool
  | ⟨must, mustNot, should⟩ =>
    Filter.allHold must && !Filter.anyHolds mustNot &&
      (should.isEmpty || Filter.anyHolds should)

/-- Whether a clause is passed. -/
def FilterClause.holds : FilterClause → Bool
  | .field key test => α (test.atom key)
  | .isNull key => α (.isNull key)
  | .nested f => f.holds

/-- Whether all of some clauses are passed. -/
def Filter.allHold : List FilterClause → Bool
  | [] => true
  | c :: cs => c.holds && Filter.allHold cs

/-- Whether one of some clauses is passed. -/
def Filter.anyHolds : List FilterClause → Bool
  | [] => false
  | c :: cs => c.holds || Filter.anyHolds cs

end

end

variable {α : Atom → Bool}

namespace Filter

theorem allHold_eq (cs : List FilterClause) :
    allHold α cs = cs.all (FilterClause.holds α) := by
  induction cs with
  | nil => rfl
  | cons c cs ih => rw [allHold, ih, List.all_cons]

theorem anyHolds_eq (cs : List FilterClause) :
    anyHolds α cs = cs.any (FilterClause.holds α) := by
  induction cs with
  | nil => rfl
  | cons c cs ih => rw [anyHolds, ih, List.any_cons]

theorem holds_mk (must mustNot should : List FilterClause) :
    holds α ⟨must, mustNot, should⟩ =
      (must.all (FilterClause.holds α) && !mustNot.any (FilterClause.holds α) &&
        (should.isEmpty || should.any (FilterClause.holds α))) := by
  rw [holds, allHold_eq, anyHolds_eq, anyHolds_eq]

/-! ### JSON says what the filter says -/

/-- The parts of a filter in JSON. -/
def parts (must mustNot should : List Json) : List (String × Json) :=
  clausesEntry "must" must ++ clausesEntry "must_not" mustNot ++ clausesEntry "should" should

theorem keys_clausesEntry (name : String) (clauses : List Json) :
    ((clausesEntry name clauses).map Prod.fst).Sublist [name] := by
  cases clauses with
  | nil => exact List.nil_sublist _
  | cons c cs => exact .refl _

theorem increasing_parts (must mustNot should : List Json) :
    Increasing (parts must mustNot should) := by
  have hkeys : ["must", "must_not", "should"].Pairwise (· < ·) := by decide
  refine List.pairwise_map.1 (hkeys.sublist ?_)
  rw [parts, List.map_append, List.map_append]
  exact ((keys_clausesEntry "must" must).append (keys_clausesEntry "must_not" mustNot)).append
    (keys_clausesEntry "should" should)

theorem ofClause?_parts (must mustNot should : List Json) :
    Atom.ofClause? (parts must mustNot should) = none := by
  cases must <;> cases mustNot <;> cases should <;>
    simp [parts, clausesEntry, Atom.ofClause?, entryAt?]

theorem passes_parts (must mustNot should : List Json) :
    Json.passes α (.ofEntries (parts must mustNot should)) =
      (Json.allPass α must && !Json.anyPasses α mustNot &&
        (should.isEmpty || Json.anyPasses α should)) := by
  rw [Json.ofEntries, insertEntries_of_increasing (increasing_parts must mustNot should),
    Json.passes, ofClause?_parts]
  cases must <;> cases mustNot <;> cases should <;>
    simp [parts, clausesEntry, Json.entriesPass, Json.allPass, Json.anyPasses, Bool.and_assoc]

end Filter

theorem Atom.ofRange?_rangeName (key : String) (c : Comparison) (j : Json) :
    ofRange? key [(Filter.rangeName c, j)] = some (FieldTest.atom key (.range c j)) := by
  cases c <;> simp [ofRange?, comparison?, Filter.rangeName, FieldTest.atom]

theorem Filter.increasing_testEntry (key : String) (test : FieldTest) :
    Increasing [("key", .string key), testEntry test] := by
  have hlt : "key" < (testEntry test).1 := by
    cases test with
    | range c j => exact (by decide : "key" < "range")
    | _ => exact (by decide : "key" < "match")
  exact List.pairwise_pair.2 hlt

theorem Atom.ofClause?_testEntry (key : String) (test : FieldTest) :
    ofClause? (insertEntries [("key", .string key), Filter.testEntry test] []) =
      some (test.atom key) := by
  rw [insertEntries_of_increasing (Filter.increasing_testEntry key test)]
  cases test with
  | value j => rfl
  | any js => rfl
  | range c j => exact ofRange?_rangeName key c j

namespace Filter

theorem isEmpty_clausesToJson (cs : List FilterClause) :
    (clausesToJson cs).isEmpty = cs.isEmpty := by
  cases cs <;> rfl

mutual

/-- **JSON says what the filter says.** -/
theorem passes_toJson (f : Filter) : Json.passes α f.toJson = f.holds α := by
  obtain ⟨must, mustNot, should⟩ := f
  rw [toJson, ← parts, passes_parts, isEmpty_clausesToJson, allPass_clausesToJson must,
    anyPasses_clausesToJson mustNot, anyPasses_clausesToJson should, holds]

theorem passes_clauseToJson (c : FilterClause) :
    Json.passes α (clauseToJson c) = c.holds α := by
  cases c with
  | field key test =>
    rw [clauseToJson, Json.ofEntries, Json.passes, Atom.ofClause?_testEntry]
    rfl
  | isNull key => rfl
  | nested f => exact passes_toJson f

theorem allPass_clausesToJson (cs : List FilterClause) :
    Json.allPass α (clausesToJson cs) = allHold α cs := by
  cases cs with
  | nil => rfl
  | cons c cs =>
    rw [clausesToJson, Json.allPass, allHold, passes_clauseToJson c, allPass_clausesToJson cs]

theorem anyPasses_clausesToJson (cs : List FilterClause) :
    Json.anyPasses α (clausesToJson cs) = anyHolds α cs := by
  cases cs with
  | nil => rfl
  | cons c cs =>
    rw [clausesToJson, Json.anyPasses, anyHolds, passes_clauseToJson c, anyPasses_clausesToJson cs]

end

end Filter

/-! ### The filter of a request -/

namespace Request

theorem forall_mem_entry {β : Type} {key other : String} (f : β → Json) (x : Option β)
    (h : key ≠ other) : ∀ e ∈ entry key f x, e.1 ≠ other := by
  cases x <;> simp [entry, h]

theorem entryAt?_fields (r : Request) :
    entryAt? "filter" r.fields = if r.filter.isEmpty then none else some r.filter.toJson := by
  -- no field before or behind the filter has its name
  have hb : ∀ e ∈ entry "vector" (fun xs => Json.array (xs.map .ofSingle)) r.vector ++
      entry "limit" .ofUInt64 r.limit ++ entry "offset" .ofUInt64 r.offset,
      e.1 ≠ "filter" := by
    simp only [List.forall_mem_append]
    exact ⟨⟨forall_mem_entry _ _ (by simp), forall_mem_entry _ _ (by simp)⟩,
      forall_mem_entry _ _ (by simp)⟩
  have ha : ∀ e ∈ [("with_payload", Json.bool r.withPayload)] ++
      (entry "score_threshold" .ofSingle r.scoreThreshold ++ entry "params" paramsToJson r.params),
      e.1 ≠ "filter" := by
    simp only [List.forall_mem_append]
    exact ⟨by simp, forall_mem_entry _ _ (by simp), forall_mem_entry _ _ (by simp)⟩
  rw [fields, List.append_assoc, List.append_assoc, insertEntries_append,
    entryAt?_insertEntries_of_forall_ne ha, insertEntries_append]
  split
  · exact entryAt?_insertEntries_of_forall_ne hb
  · exact entryAt?_insertEntry_self

end Request

theorem Filter.holds_of_isEmpty {f : Filter} (h : f.isEmpty = true) : f.holds α = true := by
  obtain ⟨must, mustNot, should⟩ := f
  simp only [isEmpty, Bool.and_eq_true, List.isEmpty_iff] at h
  obtain ⟨⟨rfl, rfl⟩, rfl⟩ := h
  rfl

/-- **The filter of a request in JSON is that of the request, unless an extension replaces it.** -/
theorem Query.admits_toVectorJson {q : Query} (h : ∀ e ∈ q.extensions, e.1 ≠ "filter") :
    q.toVectorJson.admits α = (Request.filterOf q).holds α := by
  have hq : q.toVectorJson.entry? "filter" =
      if (Request.filterOf q).isEmpty then none else some (Request.filterOf q).toJson := by
    rw [toVectorJson, Json.entry?, entryAt?_insertEntries_of_forall_ne h, Request.ofQuery]
    exact Request.entryAt?_fields _
  rw [Json.admits, hq]
  cases he : (Request.filterOf q).isEmpty with
  | true => simp [Filter.holds_of_isEmpty he]
  | false => simp [Filter.passes_toJson]

end QueryTree
