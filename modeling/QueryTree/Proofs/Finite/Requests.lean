import QueryTree.Proofs.Finite.Checked
import QueryTree.Proofs.Finite.Widening
import QueryTree.Proofs.Build.Conditions
import QueryTree.Proofs.Similarity.Reading

/-!
# Numbers of similarity requests

A number without a JSON form becomes null in a request.  The filter of a request holds values that
were brought into the form that their criterion asks for, so there is no null in it; the vector and
the threshold of a request are passed on as they were given.

* `Json.hasNull` — whether a number has got lost in JSON.
* `Filter.isWhole_ofNodes`, `Filter.IsWhole.hasNull_toJson` — no number of a filter gets lost.
* `Query.hasNull_toVectorJson` — which numbers of a request get lost.
-/

namespace QueryTree

/-! ### Nulls -/

namespace Json

mutual

/-- There is a null in the value, at any depth. -/
def hasNull : Json → Bool
  | null => true
  | array items => anyHasNull items
  | object entries => anyEntryHasNull entries
  | _ => false

/-- There is a null in one of the items. -/
def anyHasNull : List Json → Bool
  | [] => false
  | j :: js => hasNull j || anyHasNull js

/-- There is a null in one of the entries. -/
def anyEntryHasNull : List (String × Json) → Bool
  | [] => false
  | (_, j) :: es => hasNull j || anyEntryHasNull es

end

theorem anyHasNull_eq_any (js : List Json) : anyHasNull js = js.any hasNull := by
  induction js with
  | nil => rfl
  | cons j js ih => rw [anyHasNull, ih, List.any_cons]

theorem anyEntryHasNull_eq_any (es : List (String × Json)) :
    anyEntryHasNull es = es.any fun e => e.2.hasNull := by
  induction es with
  | nil => rfl
  | cons e es ih => rw [anyEntryHasNull, ih, List.any_cons]

theorem hasNull_array {js : List Json} (h : ∀ j ∈ js, j.hasNull = false) :
    (array js).hasNull = false := by
  rw [hasNull, anyHasNull_eq_any]
  simpa using h

theorem hasNull_ofEntries {es : List (String × Json)} (h : ∀ e ∈ es, e.2.hasNull = false) :
    (ofEntries es).hasNull = false := by
  rw [ofEntries, hasNull, anyEntryHasNull_eq_any, List.any_eq_false]
  intro e he
  rcases mem_of_mem_insertEntries he with he | he
  · simp [h e he]
  · cases he

theorem hasNull_ofEntry {name : String} {j : Json} (h : j.hasNull = false) :
    (ofEntries [(name, j)]).hasNull = false := hasNull_ofEntries (List.forall_mem_singleton.2 h)

theorem hasNull_ofSingle (x : Single) : (ofSingle x).hasNull = !x.isFinite := by
  rw [← Binary.isFinite_widen, ofSingle]
  cases x.convert .double <;> rfl

end Json

theorem Value.IsScalar.hasNull_toJson {v : Value} (h : v.IsScalar) : v.toJson.hasNull = false := by
  cases h with
  | @float x h =>
    cases x with
    | finite x => rfl
    | _ => cases h
  | _ => rfl

theorem Value.toJsonItems_eq_map (vs : List Value) : toJsonItems vs = vs.map toJson := by
  induction vs with
  | nil => rfl
  | cons v vs ih => rw [toJsonItems, ih, List.map_cons]

/-! ### Filters -/

/-- No number of the clause gets lost in JSON. -/
def FilterClause.IsWhole (c : FilterClause) : Prop := (Filter.clauseToJson c).hasNull = false

/-- No number of the literal gets lost in JSON. -/
def Literal.IsWhole (l : Literal) : Prop := l.clause.IsWhole

/-- No number of the filter gets lost in JSON. -/
structure Filter.IsWhole (f : Filter) : Prop where
  must : ∀ c ∈ f.must, c.IsWhole
  mustNot : ∀ c ∈ f.mustNot, c.IsWhole
  should : ∀ c ∈ f.should, c.IsWhole

theorem FilterClause.forall_isWhole_nil : ∀ c ∈ ([] : List FilterClause), c.IsWhole :=
  List.forall_mem_nil _

theorem FilterClause.isWhole_field {key : String} {test : FieldTest}
    (h : (Filter.testEntry test).2.hasNull = false) : (field key test).IsWhole :=
  Json.hasNull_ofEntries (List.forall_mem_cons.2 ⟨rfl, List.forall_mem_singleton.2 h⟩)

namespace Filter

theorem clausesToJson_eq_map (cs : List FilterClause) :
    clausesToJson cs = cs.map clauseToJson := by
  induction cs with
  | nil => rfl
  | cons c cs ih => rw [clausesToJson, ih, List.map_cons]

theorem IsWhole.hasNull_toJson {f : Filter} (h : f.IsWhole) : f.toJson.hasNull = false := by
  -- each of the three lists is left out or becomes one array
  have of_clauses {key : String} {cs : List FilterClause} (h : ∀ c ∈ cs, c.IsWhole) :
      ∀ e ∈ clausesEntry key (clausesToJson cs), e.2.hasNull = false := by
    rw [clausesEntry]
    split
    · exact List.forall_mem_nil _
    · rw [clausesToJson_eq_map]
      exact List.forall_mem_singleton.2 (Json.hasNull_array (List.forall_mem_map.2 h))
  obtain ⟨must, mustNot, should⟩ := f
  exact Json.hasNull_ofEntries (List.forall_mem_append.2
    ⟨List.forall_mem_append.2 ⟨of_clauses h.must, of_clauses h.mustNot⟩, of_clauses h.should⟩)

theorem IsWhole.nested {f : Filter} (h : f.IsWhole) : (FilterClause.nested f).IsWhole :=
  h.hasNull_toJson

theorem isWhole_must {cs : List FilterClause} (h : ∀ c ∈ cs, c.IsWhole) : IsWhole ⟨cs, [], []⟩ :=
  ⟨h, FilterClause.forall_isWhole_nil, FilterClause.forall_isWhole_nil⟩

theorem isWhole_should {cs : List FilterClause} (h : ∀ c ∈ cs, c.IsWhole) : IsWhole ⟨[], [], cs⟩ :=
  ⟨FilterClause.forall_isWhole_nil, FilterClause.forall_isWhole_nil, h⟩

theorem isWhole_toClause {l : Literal} (h : l.IsWhole) : l.toClause.IsWhole := by
  rw [Literal.toClause]
  split
  · exact h
  · exact IsWhole.nested ⟨FilterClause.forall_isWhole_nil, List.forall_mem_singleton.2 h,
      FilterClause.forall_isWhole_nil⟩

theorem isWhole_all {literals : List Literal} (h : ∀ l ∈ literals, l.IsWhole) :
    (all literals).IsWhole := by
  have of_filter (p : Literal → Bool) : ∀ c ∈ (literals.filter p).map Literal.clause, c.IsWhole :=
    List.forall_mem_map.2 fun l hl => h l (List.mem_of_mem_filter hl)
  exact ⟨of_filter _, of_filter _, FilterClause.forall_isWhole_nil⟩

theorem isWhole_any {literals : List Literal} (h : ∀ l ∈ literals, l.IsWhole) :
    (any literals).IsWhole := by
  have hc : ∀ c ∈ literals.map Literal.toClause, c.IsWhole :=
    List.forall_mem_map.2 fun l hl => isWhole_toClause (h l hl)
  rw [any]
  split
  · exact isWhole_must FilterClause.forall_isWhole_nil
  · next clause he => exact isWhole_must (he ▸ hc)
  · exact isWhole_should hc

theorem isWhole_chainClause {literals : List Literal} (h : ∀ l ∈ literals, l.IsWhole) :
    (chainClause literals).IsWhole := by
  rw [chainClause.eq_def]
  split
  · exact isWhole_toClause (h _ List.mem_cons_self)
  · exact (isWhole_all h).nested

/-- No number of some chains of literals gets lost in JSON. -/
def AreWhole (chains : List (List Literal)) : Prop := ∀ chain ∈ chains, ∀ l ∈ chain, l.IsWhole

theorem areWhole_nil : AreWhole [] := fun _ h => absurd h List.not_mem_nil

theorem AreWhole.ofChains {done : List (List Literal)} (h : AreWhole done) :
    (ofChains done).IsWhole := by
  -- reversing the chains moves the clauses and leaves them whole
  have hr : AreWhole (done.map List.reverse).reverse := by
    intro chain hc l hl
    obtain ⟨c, hmem, rfl⟩ := List.mem_map.1 (List.mem_reverse.1 hc)
    exact h c hmem l (List.mem_reverse.1 hl)
  rw [Filter.ofChains]
  generalize (done.map List.reverse).reverse = chains at hr
  rw [anyChain.eq_def]
  split
  · exact isWhole_all (hr _ List.mem_cons_self)
  · exact isWhole_should
      (List.forall_mem_map.2 fun chain hc => isWhole_chainClause (hr chain hc))

theorem AreWhole.addToChains {done : List (List Literal)} (h : AreWhole done) {l : Literal}
    (hl : l.IsWhole) (separate : Bool) : AreWhole (addToChains separate l done) := by
  have hsingle : ∀ l' ∈ [l], l'.IsWhole := List.forall_mem_singleton.2 hl
  cases done with
  | nil => exact List.forall_mem_singleton.2 hsingle
  | cons chain chains =>
    obtain ⟨hc, hcs⟩ := List.forall_mem_cons.1 h
    rw [Filter.addToChains]
    split
    · exact List.forall_mem_cons.2 ⟨hsingle, h⟩
    · exact List.forall_mem_cons.2 ⟨List.forall_mem_cons.2 ⟨hl, hc⟩, hcs⟩

theorem IsWhole.withBound {f : Filter} (h : f.IsWhole) {clause : FilterClause}
    (hc : clause.IsWhole) : (f.withBound clause).IsWhole := by
  rw [Filter.withBound]
  split
  · exact { h with must := List.forall_mem_cons.2 ⟨hc, h.must⟩ }
  · exact isWhole_must (List.forall_mem_cons.2 ⟨hc, List.forall_mem_singleton.2 h.nested⟩)

theorem isWhole_boundClause {b : Bound} (h : b.value.IsScalar) : (boundClause b).IsWhole :=
  FilterClause.isWhole_field (Json.hasNull_ofEntry h.hasNull_toJson)

/-! ### Conditions -/

/-- A test of a declared node is of values that have a JSON form. -/
theorem isWhole_of_leaf? {n : Node} (h : n.Declared) {l : Literal}
    (hl : leaf? n.op n.key n.operand = some l) : l.IsWhole := by
  have of_scalar {key : String} {c : Comparison} {v : Value} (hv : v.IsScalar)
      (hl : leaf? (.compare c) key (some (.value v)) = some l) : l.IsWhole := by
    have hj (name : String) : (Json.ofEntries [(name, v.toJson)]).hasNull = false :=
      Json.hasNull_ofEntry hv.hasNull_toJson
    cases c <;> cases hl <;> exact FilterClause.isWhole_field (hj _)
  cases h with
  | comparison c key hv => exact of_scalar (Value.of_asScalar hv).1 hl
  | truthValue key b => exact of_scalar (.bool b) hl
  | membership m key hv =>
    obtain ⟨kept, rfl, -, hk⟩ := Value.of_asMembers hv
    have hm : ∀ j ∈ members (Value.list kept).toJson, j.hasNull = false := by
      rw [Value.toJson, Value.toJsonItems_eq_map, members]
      exact List.forall_mem_map.2 fun v hv => (hk v hv).hasNull_toJson
    cases m <;> cases hl <;>
      exact FilterClause.isWhole_field (Json.hasNull_ofEntry (Json.hasNull_array hm))
  | null t key => cases t <;> cases hl <;> rfl
  -- the backend has no test for the other nodes
  | _ => cases hl

theorem isWhole_of_group {f : Filter} (h : f.IsWhole) {l : Literal}
    (hl : (if f.isEmpty then none else some ⟨true, .nested f⟩) = some l) : l.IsWhole := by
  split at hl
  · cases hl
  · cases hl
    exact h.nested

mutual

/-- **No number of a declared condition gets lost.** -/
theorem isWhole_of_literal? (n : Node) (h : n.Declared) {l : Literal} (hl : literal? n = some l) :
    l.IsWhole := by
  obtain ⟨op, key, operand, subs⟩ := n
  cases op with
  | group j =>
    cases j with
    | any => exact isWhole_of_group (isWhole_any (isWhole_of_literals subs h.subs)) hl
    | all =>
      exact isWhole_of_group (areWhole_chains areWhole_nil false subs h.subs).ofChains hl
  | _ => exact isWhole_of_leaf? h hl

theorem isWhole_of_literals (ns : List Node) (h : ∀ n ∈ ns, n.Declared) :
    ∀ l ∈ literals ns, l.IsWhole := by
  cases ns with
  | nil => exact List.forall_mem_nil _
  | cons n ns =>
    obtain ⟨hn, hns⟩ := List.forall_mem_cons.1 h
    rw [literals]
    exact List.forall_mem_append.2
      ⟨fun l hl => isWhole_of_literal? n hn (Option.mem_toList.1 hl), isWhole_of_literals ns hns⟩

theorem areWhole_chains {done : List (List Literal)} (hd : AreWhole done) (pendingOr : Bool)
    (ns : List Node) (h : ∀ n ∈ ns, n.Declared) : AreWhole (chains done pendingOr ns) := by
  cases ns with
  | nil => exact hd
  | cons n ns =>
    obtain ⟨hn, hns⟩ := List.forall_mem_cons.1 h
    rw [chains]
    split
    · exact areWhole_chains hd true ns hns
    · split
      · exact areWhole_chains hd pendingOr ns hns
      · next l hl =>
        exact areWhole_chains (hd.addToChains (isWhole_of_literal? n hn hl) _) false ns hns

end

theorem isWhole_ofNodes {nodes : List Node} (h : ∀ n ∈ nodes, n.Declared) :
    (ofNodes nodes).IsWhole := (areWhole_chains areWhole_nil false nodes h).ofChains

end Filter

/-! ### Requests -/

namespace Request

/-- The numbers under a key of the request that are passed on as they were given. -/
def numbersAt (r : Request) (key : String) : List Single :=
  if key = "vector" then r.vector.getD []
  else if key = "score_threshold" then r.scoreThreshold.toList
  else []

theorem entryAt?_fields_vector (r : Request) :
    entryAt? "vector" r.fields = r.vector.map fun xs => .array (xs.map .ofSingle) := by
  -- no entry behind the vector has its key
  have hb : ∀ e ∈ entry "limit" .ofUInt64 r.limit ++ (entry "offset" .ofUInt64 r.offset ++
      ((if r.filter.isEmpty then [] else [("filter", r.filter.toJson)]) ++
        ([("with_payload", Json.bool r.withPayload)] ++
          (entry "score_threshold" .ofSingle r.scoreThreshold ++
            entry "params" paramsToJson r.params)))), e.1 ≠ "vector" := by
    simp only [List.forall_mem_append]
    refine ⟨forall_mem_entry _ _ (by simp), forall_mem_entry _ _ (by simp), ?_, by simp,
      forall_mem_entry _ _ (by simp), forall_mem_entry _ _ (by simp)⟩
    split <;> simp
  simp only [fields, List.append_assoc]
  rw [insertEntries_append, entryAt?_insertEntries_of_forall_ne hb]
  cases r.vector <;> rfl

theorem entryAt?_fields_scoreThreshold (r : Request) :
    entryAt? "score_threshold" r.fields = r.scoreThreshold.map .ofSingle := by
  have hb : ∀ e ∈ entry "params" paramsToJson r.params, e.1 ≠ "score_threshold" :=
    forall_mem_entry _ _ (by simp)
  have ha : ∀ e ∈ entry "vector" (fun xs => Json.array (xs.map .ofSingle)) r.vector ++
      entry "limit" .ofUInt64 r.limit ++ entry "offset" .ofUInt64 r.offset ++
      (if r.filter.isEmpty then [] else [("filter", r.filter.toJson)]) ++
      [("with_payload", Json.bool r.withPayload)], e.1 ≠ "score_threshold" := by
    simp only [List.forall_mem_append]
    refine ⟨⟨⟨⟨forall_mem_entry _ _ (by simp), forall_mem_entry _ _ (by simp)⟩,
      forall_mem_entry _ _ (by simp)⟩, ?_⟩, by simp⟩
    split <;> simp
  rw [fields, insertEntries_append, entryAt?_insertEntries_of_forall_ne hb, insertEntries_append]
  cases r.scoreThreshold with
  | none => exact entryAt?_insertEntries_of_forall_ne ha
  | some x => exact entryAt?_insertEntry_self

theorem hasNull_paramsToJson (params : Option UInt64 × Bool) :
    (paramsToJson params).hasNull = false := by
  obtain ⟨width, exact⟩ := params
  refine Json.hasNull_ofEntries (List.forall_mem_append.2 ⟨?_, List.forall_mem_singleton.2 rfl⟩)
  cases width with
  | none => exact nofun
  | some n => exact List.forall_mem_singleton.2 rfl

/-- Beside the vector and the threshold, a request with a whole filter has no null. -/
theorem hasNull_of_mem_fields {r : Request} (h : r.filter.IsWhole) {key : String} {j : Json}
    (hj : (key, j) ∈ r.fields) (hv : key ≠ "vector") (ht : key ≠ "score_threshold") :
    j.hasNull = false := by
  have of_entry {β : Type} {name : String} {f : β → Json} {b : Option β}
      (hf : name = "vector" ∨ name = "score_threshold" ∨ ∀ b, (f b).hasNull = false)
      (hm : (key, j) ∈ entry name f b) : j.hasNull = false := by
    cases b with
    | none => cases hm
    | some b =>
      cases List.mem_singleton.1 hm
      exact (hf.resolve_left hv).resolve_left ht b
  rcases mem_of_mem_insertEntries hj with hj | hj
  · -- one case for each field, in the order in which they are listed
    simp only [List.mem_append, or_assoc] at hj
    rcases hj with hj | hj | hj | hj | hj | hj | hj
    · exact of_entry (.inl rfl) hj
    · exact of_entry (.inr (.inr fun _ => rfl)) hj
    · exact of_entry (.inr (.inr fun _ => rfl)) hj
    · split at hj
      · cases hj
      · cases List.mem_singleton.1 hj
        exact h.hasNull_toJson
    · cases List.mem_singleton.1 hj
      rfl
    · exact of_entry (.inr (.inl rfl)) hj
    · exact of_entry (.inr (.inr hasNull_paramsToJson)) hj
  · cases hj

/-- There is a null under a key exactly if a number under it is not finite. -/
theorem hasNull_entryAt?_fields {r : Request} (h : r.filter.IsWhole) (key : String) :
    (∃ j, entryAt? key r.fields = some j ∧ j.hasNull = true) ↔
      ∃ x ∈ r.numbersAt key, x.isFinite = false := by
  rw [numbersAt]
  split
  · next hv =>
    rw [hv, entryAt?_fields_vector]
    cases r.vector with
    | none => simp
    | some xs => simp [Json.hasNull, Json.anyHasNull_eq_any, Json.hasNull_ofSingle]
  · split
    · next ht =>
      rw [ht, entryAt?_fields_scoreThreshold]
      cases r.scoreThreshold with
      | none => simp
      | some x => simp [Json.hasNull_ofSingle]
    · -- under all other keys stands no number that can get lost
      next hv ht =>
      constructor
      · rintro ⟨j, hj, hn⟩
        rw [hasNull_of_mem_fields h (mem_of_entryAt? hj) hv ht] at hn
        cases hn
      · rintro ⟨x, hx, -⟩
        cases hx

/-- The filter of a query whose conditions are declared and whose page can be made. -/
theorem isWhole_filterOf {q : Query} (h : ∀ n ∈ q.conditions, n.Declared)
    (hp : q.outline.PageIsMade) : (filterOf q).IsWhole := by
  simp only [filterOf]
  split
  · next b hb =>
    obtain ⟨v, hv⟩ := Outline.exists_of_bound? hp hb
    exact (Filter.isWhole_ofNodes h).withBound
      (Filter.isWhole_boundClause (Value.of_asScalar hv).1)
  · exact Filter.isWhole_ofNodes h

end Request

/-- **The numbers of a request that get lost are those of the vector and the threshold that are not
finite.**  No number of the filter gets lost.  What an extension puts in place of a field is not
looked at. -/
theorem Query.hasNull_toVectorJson {q : Query} (h : ∀ n ∈ q.conditions, n.Declared)
    (hp : q.outline.PageIsMade) {key : String} (hk : ∀ e ∈ q.extensions, e.1 ≠ key) :
    (∃ j, q.toVectorJson.entry? key = some j ∧ j.hasNull = true) ↔
      ∃ x ∈ (Request.ofQuery q).numbersAt key, x.isFinite = false := by
  rw [toVectorJson, Json.entry?, entryAt?_insertEntries_of_forall_ne hk]
  exact Request.hasNull_entryAt?_fields (Request.isWhole_filterOf h hp) key

end QueryTree
