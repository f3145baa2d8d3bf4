import QueryTree.Proofs.Build.Misuse
import QueryTree.Proofs.Nesting.Places
import QueryTree.Proofs.Paging.Window
import QueryTree.Proofs.Similarity.First
import QueryTree.Proofs.Similarity.Reading

/-!
# The rows that are asked for

Which rows a query asks for is set by several calls, in any order: a limit, an offset, a page, its
rows and the value that it continues after.  It ends up in a statement, in a statement that looks
for what is nearest to a vector, and in a request.  All of them ask for the same rows, and which
ones can be told from the calls.

* `Clause.extent` — the rows that some calls ask for, each setting being that of its last call.
* `Clause.get_addAll` — a part of the outline that each call sets or leaves alone.
* `Query.extent_of_build` — the window of a query is what the calls ask for.
* `Query.asksAlike` — and so is what each of the three texts asks for.
-/

namespace QueryTree

/-- The extent with a limit of its own. -/
def Extent.withLimit (e : Extent) (n : Nat) : Extent := { e with limit := some n }

theorem toNat_ne_zero {n : UInt64} (h : n ≠ 0) : n.toNat ≠ 0 :=
  fun hz => h (UInt64.toNat_inj.1 hz)

/-! ### What the calls ask for -/

namespace Clause

/-- The last of what some calls set. -/
def lastSet {α : Type} (set? : Clause → Option α) (clauses : List Clause) : Option α :=
  clauses.reverse.findSome? set?

/-- The number of rows that a call sets; zero takes it back. -/
def limit? : Clause → Option Nat
  | .limit n => some n.toNat
  | _ => none

/-- The number of rows passed over that a call sets; zero takes it back. -/
def offset? : Clause → Option Nat
  | .offset n => some n.toNat
  | _ => none

/-- The number of rows of a page that a call sets. -/
def rows? : Clause → Option Nat
  | .rows n => some n.toNat
  | .paged p => some p.rows.toNat
  | _ => none

/-- The number of the page that a call sets. -/
def number? : Clause → Option Nat
  | .page n => some n.toNat
  | .paged p => some p.declared.toNat
  | _ => none

/-- Whether the page continues after a value, as far as a call sets it.  A last value that is not
set leaves it as it was. -/
def continues? : Clause → Option Bool
  | .paged p => some p.last.isSome
  | .last v => if v.asScalar.isPresent then some true else none
  | _ => none

/-- The rows that some calls ask for.  A page that has rows counts before limit and offset. -/
def extent (clauses : List Clause) : Extent :=
  let rows := (lastSet rows? clauses).getD 0
  let number := max ((lastSet number? clauses).getD 0) 1
  if rows = 0 then
    ⟨(lastSet limit? clauses).filter fun n => n != 0, (lastSet offset? clauses).getD 0⟩
  else
    ⟨some rows,
      if (lastSet continues? clauses).getD false then 0 else min ((number - 1) * rows) maxWord⟩

theorem lastSet_cons {α : Type} (set? : Clause → Option α) (c : Clause) (cs : List Clause) :
    lastSet set? (c :: cs) = (lastSet set? cs).or (set? c) := by
  rw [lastSet, List.reverse_cons, List.findSome?_append]
  cases h : set? c <;> simp [h, lastSet]

theorem lastSet_map {α β : Type} (f : α → β) (set? : Clause → Option α) (cs : List Clause) :
    lastSet (fun c => (set? c).map f) cs = (lastSet set? cs).map f := List.map_findSome?.symm

/-- A part of the outline that each clause sets or leaves alone is set by the last one that does. -/
theorem get_addAll {α : Type} (get : Outline → α) {set? : Clause → Option α}
    (h : ∀ o c, get (c.outline o) = (set? c).getD (get o)) (d : QueryDraft) (cs : List Clause) :
    get (addAll d cs).outline = (lastSet set? cs).getD (get d.outline) := by
  induction cs generalizing d with
  | nil => rfl
  | cons c cs ih =>
    rw [addAll, ih, outline_add, h, lastSet_cons]
    cases lastSet set? cs <;> rfl

end Clause

/-! ### Outlines -/

namespace Outline

/-- The page, or the one in which nothing is set. -/
def pageOrNew (o : Outline) : Page := o.page.getD (.new 0 0)

theorem activePage_eq (o : Outline) :
    o.activePage = if o.pageOrNew.rows = 0 then none else some o.pageOrNew := by
  rw [activePage, pageOrNew]
  cases o.page with
  | none => rfl
  | some p => by_cases h : p.rows = 0 <;> simp [Option.filter, Page.isActive, h]

end Outline

theorem Page.toNat_number (p : Page) : p.number.toNat = max p.declared.toNat 1 := by
  rw [number]
  split
  · next h => rw [h]; rfl
  · next h =>
    have h := toNat_ne_zero h
    omega

theorem Page.toNat_offset (p : Page) :
    p.offset.toNat = min ((max p.declared.toNat 1 - 1) * p.rows.toNat) maxWord := by
  have h : 1 ≤ p.number := by
    rw [UInt64.le_iff_toNat_le, toNat_number]
    exact Nat.le_max_right _ _
  rw [offset, toNat_saturatingMul, UInt64.toNat_sub_of_le _ _ h, toNat_number]
  rfl

/-- In an outline that does not lack an order, a page continues after a value exactly if it has
one. -/
theorem Outline.isSome_bound? {o : Outline} (h : QueryDraft.lacksOrder o = false) {p : Page}
    (hp : o.activePage = some p) : o.bound?.isSome = p.last.isSome := by
  obtain ⟨number, rows, last⟩ := p
  rw [bound?, hp]
  rw [QueryDraft.lacksOrder, hp] at h
  cases last with
  | none => rfl
  | some w =>
    cases hs : o.sorts with
    | nil =>
      -- a last value without a sort key is the lack of order that `h` rules out
      rw [hs] at h
      cases h
    | cons key keys => rfl

theorem Outline.extent_window {o : Outline} (h : QueryDraft.lacksOrder o = false) :
    o.window.extent =
      let p := o.pageOrNew
      if p.rows.toNat = 0 then ⟨o.limit.map UInt64.toNat, (o.offset.map UInt64.toNat).getD 0⟩
      else
        ⟨some p.rows.toNat,
          if p.last.isSome then 0
          else min ((max p.declared.toNat 1 - 1) * p.rows.toNat) maxWord⟩ := by
  have ha := o.activePage_eq
  -- a page without rows is none, so limit and offset are those that are declared
  by_cases hr : o.pageOrNew.rows = 0
  · rw [if_pos hr] at ha
    simp [window, ha, hr, Window.extent]
  · rw [if_neg hr] at ha
    have hn := toNat_ne_zero hr
    simp only [window, ha, isSome_bound? h ha, if_neg hn, ← Page.toNat_offset, Window.extent]
    cases o.pageOrNew.last.isSome with
    | true => rfl
    | false => by_cases hz : o.pageOrNew.offset = 0 <;> simp [hz]

/-! ### Calls -/

namespace Clause

theorem pageOrNew_outline (o : Outline) (c : Clause) :
    (c.outline o).pageOrNew.rows.toNat = (rows? c).getD o.pageOrNew.rows.toNat ∧
    (c.outline o).pageOrNew.declared.toNat = (number? c).getD o.pageOrNew.declared.toNat ∧
    (c.outline o).pageOrNew.last.isSome = (continues? c).getD o.pageOrNew.last.isSome := by
  rw [Outline.pageOrNew, page_outline]
  cases c with
  | last v =>
    rw [pageAfter, continues?]
    cases v.asScalar <;> exact ⟨rfl, rfl, rfl⟩
  | _ => exact ⟨rfl, rfl, rfl⟩

/-- What a clause sets outside the page.  A limit of zero takes the limit back, and an offset of
zero is none. -/
theorem bounds_outline (o : Outline) (c : Clause) :
    (c.outline o).limit.map UInt64.toNat =
      ((limit? c).map fun n => (some n).filter fun n => n != 0).getD
        (o.limit.map UInt64.toNat) ∧
    ((c.outline o).offset.map UInt64.toNat).getD 0 =
      (offset? c).getD ((o.offset.map UInt64.toNat).getD 0) := by
  cases c with
  | limit n =>
    by_cases h : n = 0
    · simp [outline, limit?, offset?, QueryDraft.nonZero, Option.filter, h]
    · have hn := toNat_ne_zero h
      simp [outline, limit?, offset?, QueryDraft.nonZero, Option.filter, h, hn]
  | offset n =>
    by_cases h : n = 0 <;> simp [outline, limit?, offset?, QueryDraft.nonZero, h]
  | column name =>
    rw [outline]
    split <;> exact ⟨rfl, rfl⟩
  | sort key =>
    rw [outline]
    split <;> exact ⟨rfl, rfl⟩
  | last v =>
    rw [outline]
    cases v.asScalar <;> exact ⟨rfl, rfl⟩
  | _ => exact ⟨rfl, rfl⟩

end Clause

namespace Query

theorem outline_of_build {clauses : List Clause} {q : Query} (h : Query.build clauses = .ok q) :
    q.outline = (Clause.addAll .empty clauses).outline ∧
      QueryDraft.lacksOrder q.outline = false := by
  obtain ⟨-, -, -, ho, rfl⟩ := QueryDraft.finish_eq_ok_iff.1 h
  rw [QueryDraft.eliminate]
  split <;> exact ⟨rfl, ho⟩

/-- **The window of a query is what the calls ask for.** -/
theorem extent_of_build {clauses : List Clause} {q : Query} (h : Query.build clauses = .ok q) :
    q.outline.window.extent = Clause.extent clauses := by
  obtain ⟨hq, ho⟩ := outline_of_build h
  -- each setting, by the last call that sets it
  have hr := Clause.get_addAll (fun o => o.pageOrNew.rows.toNat)
    (fun o c => (Clause.pageOrNew_outline o c).1) .empty clauses
  have hn := Clause.get_addAll (fun o => o.pageOrNew.declared.toNat)
    (fun o c => (Clause.pageOrNew_outline o c).2.1) .empty clauses
  have hc := Clause.get_addAll (fun o => o.pageOrNew.last.isSome)
    (fun o c => (Clause.pageOrNew_outline o c).2.2) .empty clauses
  have hf := Clause.get_addAll (fun o => (o.offset.map UInt64.toNat).getD 0)
    (fun o c => (Clause.bounds_outline o c).2) .empty clauses
  have hl : (Clause.addAll .empty clauses).outline.limit.map UInt64.toNat =
      (Clause.lastSet Clause.limit? clauses).filter fun n => n != 0 := by
    rw [Clause.get_addAll (fun o => o.limit.map UInt64.toNat)
      (fun o c => (Clause.bounds_outline o c).1), Clause.lastSet_map]
    cases Clause.lastSet Clause.limit? clauses <;> rfl
  rw [← hq] at hr hn hc hl hf
  rw [Outline.extent_window ho, Clause.extent]
  simp only [hr, hn, hc, hl, hf]
  rfl

end Query

/-! ### Statements -/

namespace Statement

/-- The rows of the query without a window. -/
def unwindowed (s : Statement) : Fragment :=
  s.ctes ++ .text "SELECT " :: s.items ++ s.body s.boundConditions ++ orderText s.order

/-- The rows nearest to a vector without a window. -/
def nearestUnwindowed (s : Statement) (field : String) (search : Search) : Fragment :=
  s.ctes ++ .text "SELECT " :: s.items ++ distanceItem field search ++
    s.body s.boundConditions ++ orderText ("distance" :: s.order)

end Statement

/-- A text is what a fragment is written as, followed by the text of a window of some extent. -/
def AsksFor (d : Dialect) (f : Fragment) (e : Extent) (sql : String) : Prop :=
  ∃ tail, sql = f.render d.placeholder .start ++ tail ∧ d.pagination.read? tail = some e

theorem asksFor_render (d : Dialect) (f : Fragment) (w : Window) :
    AsksFor d f w.extent
      (Fragment.render d.placeholder .start (f ++ [.text (d.pagination.text w)])) := by
  refine ⟨d.pagination.text w, ?_, d.pagination.read?_text w⟩
  rw [Fragment.render_append]
  exact congrArg _ (String.append_empty)

/-- How many hits a search asks for: as many as are wanted, and several times as many where they
have to differ. -/
def Search.fetched (s : Search) : Nat :=
  match s.diversity with
  | some d =>
    if d.enabled then min (s.limit.toNat * max d.overFetch.toNat 1) maxWord else s.limit.toNat
  | none => s.limit.toNat

theorem Diversity.toNat_factor (d : Diversity) :
    d.factor.toNat = if d.enabled then max d.overFetch.toNat 1 else 1 := by
  rw [factor]
  by_cases h : d.overFetch = 0
  · simp [h]
  · have hn := toNat_ne_zero h
    cases d.enabled with
    | true => simpa [h] using by omega
    | false => rfl

theorem Search.toNat_fetchLimit (s : Search) : s.fetchLimit.toNat = s.fetched := by
  rw [fetchLimit, fetched]
  cases s.diversity with
  | none => rfl
  | some d =>
    simp only [toNat_saturatingMul, d.toNat_factor]
    cases d.enabled with
    | true => rfl
    | false =>
      rw [if_neg Bool.false_ne_true, if_neg Bool.false_ne_true, Nat.mul_one]
      exact Nat.min_eq_left toNat_le_maxWord

/-! ### Requests -/

namespace Json

/-- The whole number that a value is, if it is one and is not negative. -/
def natural? : Json → Option Nat
  | integer n => if 0 ≤ n.val then some n.val.toNat else none
  | _ => none

/-- The number under a key, if there is an entry; there must not be anything else under it. -/
def numberAt? (key : String) (request : Json) : Option (Option Nat) :=
  match request.entry? key with
  | none => some none
  | some j => j.natural?.map some

/-- The rows that a request asks for. -/
def extent? (request : Json) : Option Extent :=
  (request.numberAt? "limit").bind fun limit =>
    (request.numberAt? "offset").map fun offset => ⟨limit, offset.getD 0⟩

theorem numberAt?_of_word {key : String} {request : Json} {x : Option UInt64}
    (h : request.entry? key = x.map .ofUInt64) :
    request.numberAt? key = some (x.map UInt64.toNat) := by
  rw [numberAt?, h]
  cases x with
  | none => rfl
  | some n => simp [natural?, ofUInt64]

end Json

namespace Request

theorem entryAt?_entry {β : Type} {key : String} {before behind : List (String × Json)}
    (hb : ∀ e ∈ before, e.1 ≠ key) (ha : ∀ e ∈ behind, e.1 ≠ key) (f : β → Json)
    (x : Option β) :
    entryAt? key (insertEntries (before ++ (entry key f x ++ behind)) []) = x.map f := by
  rw [← List.append_assoc, insertEntries_append, entryAt?_insertEntries_of_forall_ne ha,
    insertEntries_append]
  cases x with
  | none => exact entryAt?_insertEntries_of_forall_ne hb
  | some b => exact entryAt?_insertEntry_self

/-- The fields of a request behind the window. -/
def fieldsBehind (r : Request) : List (String × Json) :=
  (if r.filter.isEmpty then [] else [("filter", r.filter.toJson)]) ++
    ([("with_payload", .bool r.withPayload)] ++
      (entry "score_threshold" .ofSingle r.scoreThreshold ++
        entry "params" paramsToJson r.params))

theorem fields_eq (r : Request) :
    r.fields =
      insertEntries
        (entry "vector" (fun xs => .array (xs.map .ofSingle)) r.vector ++
          (entry "limit" .ofUInt64 r.limit ++
            (entry "offset" .ofUInt64 r.offset ++ r.fieldsBehind)))
        [] := by
  simp only [fields, fieldsBehind, List.append_assoc]

theorem forall_mem_fieldsBehind (r : Request) {key : String}
    (h : key ∉ ["filter", "with_payload", "score_threshold", "params"]) :
    ∀ e ∈ r.fieldsBehind, e.1 ≠ key := by
  simp only [List.mem_cons, List.not_mem_nil, or_false, not_or] at h
  obtain ⟨hf, hw, hs, hp⟩ := h
  simp only [fieldsBehind, List.forall_mem_append]
  refine ⟨?_, List.forall_mem_singleton.2 (Ne.symm hw), forall_mem_entry _ _ (Ne.symm hs),
    forall_mem_entry _ _ (Ne.symm hp)⟩
  split
  · exact List.forall_mem_nil _
  · exact List.forall_mem_singleton.2 (Ne.symm hf)

theorem entryAt?_fields_limit (r : Request) :
    entryAt? "limit" r.fields = r.limit.map .ofUInt64 := by
  rw [fields_eq]
  exact entryAt?_entry (forall_mem_entry _ _ (by simp))
    (List.forall_mem_append.2
      ⟨forall_mem_entry _ _ (by simp), r.forall_mem_fieldsBehind (by simp)⟩) _ _

theorem entryAt?_fields_offset (r : Request) :
    entryAt? "offset" r.fields = r.offset.map .ofUInt64 := by
  rw [fields_eq, ← List.append_assoc]
  exact entryAt?_entry
    (List.forall_mem_append.2
      ⟨forall_mem_entry _ _ (by simp), forall_mem_entry _ _ (by simp)⟩)
    (r.forall_mem_fieldsBehind (by simp)) _ _

end Request

namespace Query

/-- A request asks for the rows that its fields name, unless an extension replaces one of them. -/
theorem extent?_toVectorJson {q : Query}
    (h : ∀ e ∈ q.extensions, e.1 ≠ "limit" ∧ e.1 ≠ "offset") :
    q.toVectorJson.extent? =
      some (Window.extent ⟨(Request.ofQuery q).limit, (Request.ofQuery q).offset⟩) := by
  -- no extension has the key of the limit or of the offset
  have hl : q.toVectorJson.entry? "limit" = (Request.ofQuery q).limit.map .ofUInt64 := by
    rw [toVectorJson, Json.entry?, entryAt?_insertEntries_of_forall_ne fun e he => (h e he).1,
      Request.entryAt?_fields_limit]
  have ho : q.toVectorJson.entry? "offset" = (Request.ofQuery q).offset.map .ofUInt64 := by
    rw [toVectorJson, Json.entry?, entryAt?_insertEntries_of_forall_ne fun e he => (h e he).2,
      Request.entryAt?_fields_offset]
  rw [Json.extent?, Json.numberAt?_of_word hl, Json.numberAt?_of_word ho]
  rfl

/-- **Everything that is made of a query asks for the same rows,** those that the calls ask for; a
search for what is nearest to a vector asks for its own number of hits. -/
theorem asksAlike {clauses : List Clause} {q : Query} (h : Query.build clauses = .ok q) :
    (∀ d, AsksFor d (q.statement d).unwindowed (Clause.extent clauses) (q.toSelect d).sql) ∧
    match (Clause.searches clauses).head? with
    | some (field, s) =>
      (∀ d, ∃ c, q.toVectorSearch d = .ok c ∧
        AsksFor d ((q.statement d).nearestUnwindowed field s)
          ((Clause.extent clauses).withLimit s.fetched) c.sql) ∧
      ((∀ e ∈ q.extensions, e.1 ≠ "limit" ∧ e.1 ≠ "offset") →
        q.toVectorJson.extent? = some ((Clause.extent clauses).withLimit s.fetched))
    | none =>
      (∀ e ∈ q.extensions, e.1 ≠ "limit" ∧ e.1 ≠ "offset") →
        q.toVectorJson.extent? = some (Clause.extent clauses) := by
  have hw := extent_of_build h
  have hs := vectorSearch?_of_build h
  refine ⟨fun d => ?_, ?_⟩
  · rw [← hw, ← window_statement d]
    exact asksFor_render d (q.statement d).unwindowed (q.statement d).window
  · cases hh : (Clause.searches clauses).head? with
    | none =>
      intro he
      rw [hh] at hs
      rw [extent?_toVectorJson he, ← hw, Request.ofQuery, hs]
      rfl
    | some e =>
      obtain ⟨field, s⟩ := e
      -- the search takes the place of the limit, and the offset stays
      have hf : (Clause.extent clauses).withLimit s.fetched =
          Window.extent { q.outline.window with limit := some s.fetchLimit } := by
        rw [← hw, ← s.toNat_fetchLimit]
        rfl
      rw [hh] at hs
      dsimp only
      rw [hf]
      refine ⟨fun d => ?_, fun he => ?_⟩
      · refine ⟨_, by rw [toVectorSearch, hs], ?_⟩
        rw [← window_statement d]
        exact asksFor_render d ((q.statement d).nearestUnwindowed field s)
          { (q.statement d).window with limit := some s.fetchLimit }
      · rw [extent?_toVectorJson he, Request.ofQuery, hs]
        rfl

/-- The third page of ten rows, whatever limit and offset are declared around it; the search asks
for three times the four hits that it wants. -/
theorem asksAlike_of_page :
    let search : Search := (Search.new [.ofInt .single 1] 4).withDiversity ⟨true, .hash "brand", 3⟩
    let clauses : List Clause :=
      [.source "item", .limit 5, .page 3, .sort ⟨"id", .asc⟩, .rows 10, .offset 7,
        .criterion (.search "embedding" search), .limit 0]
    ∃ q, Query.build clauses = .ok q ∧
      (∀ d, AsksFor d (q.statement d).unwindowed ⟨some 10, 20⟩ (q.toSelect d).sql) ∧
      (∀ d, ∃ c, q.toVectorSearch d = .ok c ∧
        AsksFor d ((q.statement d).nearestUnwindowed "embedding" search) ⟨some 12, 20⟩ c.sql) ∧
      q.toVectorJson.extent? = some ⟨some 12, 20⟩ := by
  intro search clauses
  have hb : ∃ q, Query.build clauses = .ok q ∧ q.extensions = [] := ⟨_, rfl, rfl⟩
  obtain ⟨q, hq, he⟩ := hb
  obtain ⟨hs, hv, hj⟩ := asksAlike hq
  have hx : ∀ e ∈ q.extensions, e.1 ≠ "limit" ∧ e.1 ≠ "offset" := by
    rw [he]
    exact nofun
  exact ⟨q, hq, hs, hv, hj hx⟩

end Query

end QueryTree
