import QueryTree.Proofs.Finite.Statements
import QueryTree.Proofs.Join.Constraint
import QueryTree.Proofs.Value.Normalized

/-!
# Checked values are finite

What a criterion, the paging or an assignment takes in is brought into the form that its place asks
for, and an infinity or not-a-number has none.  So whatever is built, those of its values are
finite that have been through such a form, at any depth of nested queries.

* `Value.isFinite` — no number in the value is an infinity or not-a-number.
* `Checked` — the values that were brought into a form are finite.
* `Page.IsMade`, `Clause.pages` — the last value of a page has been brought into its form when it
  was set.
* `Criterion.checked_effect`, `Clause.checked_change` — what one declaration adds is checked.
* `Query.checked_of_build` — what is built is checked.
-/

namespace QueryTree

/-! ### Finite values -/

namespace Value

mutual

/-- No number in the value is an infinity or not-a-number.  JSON has finite numbers only. -/
def isFinite : Value → Bool
  | float x => x.isFinite
  | list items => areFinite items
  | vector xs => xs.all Binary.isFinite
  | _ => true

/-- No number in the values is an infinity or not-a-number. -/
def areFinite : List Value → Bool
  | [] => true
  | v :: vs => isFinite v && areFinite vs

end

theorem areFinite_iff {vs : List Value} : areFinite vs = true ↔ ∀ v ∈ vs, v.isFinite = true := by
  induction vs with
  | nil => simp [areFinite]
  | cons v vs ih => simp [areFinite, ih]

theorem IsScalar.isFinite {v : Value} (h : v.IsScalar) : v.isFinite = true := by
  cases h with
  | float h => exact h
  | _ => rfl

theorem isFinite_of_asScalar {v w : Value} (h : v.asScalar = .present w) : w.isFinite = true :=
  (of_asScalar h).1.isFinite

theorem isFinite_of_asMembers {v w : Value} (h : v.asMembers = .present w) :
    w.isFinite = true := by
  obtain ⟨kept, rfl, -, hk⟩ := of_asMembers h
  exact areFinite_iff.2 fun m hm => (hk m hm).isFinite

end Value

/-! ### Checked values -/

/-- The values that were brought into the form that their place asks for are finite. -/
def Checked (shown : List Shown) : Prop := ∀ s ∈ shown, s.way ≠ .given → s.value.isFinite = true

theorem checked_nil : Checked [] := nofun

theorem checked_given {v : Value} : Checked [⟨.given, v⟩] :=
  List.forall_mem_singleton.2 fun h => absurd rfl h

theorem checked_singleton {way : Way} {v : Value} (h : v.isFinite = true) : Checked [⟨way, v⟩] :=
  List.forall_mem_singleton.2 fun _ => h

theorem checked_append {shown shown' : List Shown} :
    Checked (shown ++ shown') ↔ Checked shown ∧ Checked shown' := List.forall_mem_append

theorem checked_flatMap {α : Type} {f : α → List Shown} {as : List α} :
    Checked (as.flatMap f) ↔ ∀ a ∈ as, Checked (f a) := by
  simp only [Checked, List.mem_flatMap]
  grind

/-- The values of the node are checked. -/
def Node.IsChecked (n : Node) : Prop := Checked n.shown

theorem Node.checked_nodeShown {nodes : List Node} :
    Checked (nodeShown nodes) ↔ ∀ n ∈ nodes, n.IsChecked := by
  rw [nodeShown_eq_flatMap, checked_flatMap]
  rfl

/-! ### Pages -/

/-- A page as it can be made: the last value, if there is one, was brought into the form of a
scalar when it was set. -/
def Page.IsMade (p : Page) : Prop := ∀ w, p.last = some w → ∃ v : Value, v.asScalar = .present w

theorem Page.isMade_new (number rows : UInt64) : (Page.new number rows).IsMade := nofun

mutual

/-- The pages that are set as a whole in a criterion, at any depth. -/
def Criterion.pages : Criterion → List Page
  | .group _ body => Criterion.pagesAll body
  | .when _ (some body) => Criterion.pagesAll body
  | .subquery _ body => Clause.pagesAll body
  | _ => []

/-- The pages that are set as a whole in some criteria. -/
def Criterion.pagesAll : List Criterion → List Page
  | [] => []
  | c :: cs => c.pages ++ Criterion.pagesAll cs

/-- The pages that are set as a whole in the rule of a join. -/
def JoinRule.pages : JoinRule → List Page
  | .on body => Criterion.pagesAll body
  | _ => []

/-- The pages that are set as a whole in a clause. -/
def Clause.pages : Clause → List Page
  | .criterion c => c.pages
  | .nested _ body => Clause.pagesAll body
  | .join _ _ rule => rule.pages
  | .joinNested _ _ body rule => Clause.pagesAll body ++ rule.pages
  | .having body => Criterion.pagesAll body
  | .paged p => [p]
  | .cte _ _ body => Clause.pagesAll body
  | .union _ body => Clause.pagesAll body
  | _ => []

/-- The pages that are set as a whole in some clauses. -/
def Clause.pagesAll : List Clause → List Page
  | [] => []
  | c :: cs => c.pages ++ Clause.pagesAll cs

end

/-- The page of an outline is one that can be made. -/
def Outline.PageIsMade (o : Outline) : Prop := ∀ p, o.page = some p → p.IsMade

theorem Outline.exists_of_bound? {o : Outline} (h : o.PageIsMade) {b : Bound}
    (hb : o.bound? = some b) : ∃ v : Value, v.asScalar = .present b.value := by
  unfold bound? at hb
  split at hb
  · next declared rows last key keys ha _ =>
    cases hb
    exact h _ (Option.filter_eq_some_iff.1 ha).1 last rfl
  · cases hb

theorem Outline.checked_boundShown {o : Outline} (h : o.PageIsMade) : Checked (boundShown o) := by
  rw [boundShown]
  cases hb : o.bound? with
  | none => exact checked_nil
  | some b =>
    obtain ⟨v, hv⟩ := exists_of_bound? h hb
    exact checked_singleton (Value.isFinite_of_asScalar hv)

theorem Clause.pageIsMade_outline {o : Outline} (h : o.PageIsMade) (c : Clause)
    (hp : ∀ p ∈ c.pages, p.IsMade) : (c.outline o).PageIsMade := by
  -- a page that is set piece by piece starts from the one before, or from one without a last value
  have hlast (w : Value) (hw : (o.page.getD (.new 0 0)).last = some w) :
      ∃ v : Value, v.asScalar = .present w := by
    revert w
    cases hpage : o.page with
    | none => exact Page.isMade_new 0 0
    | some p => exact h p hpage
  have of_page {o' : Outline} (ho : o'.page = o.page) : o'.PageIsMade :=
    fun p hp => h p (ho ▸ hp)
  cases c with
  | paged p =>
    intro p' hp'
    cases hp'
    exact hp p (List.mem_singleton_self p)
  | page n =>
    intro p' hp'
    cases hp'
    exact hlast
  | rows n =>
    intro p' hp'
    cases hp'
    exact hlast
  | last v =>
    rw [outline]
    split
    · next w hv =>
      intro p' hp'
      cases hp'
      rintro w' hw
      cases hw
      exact ⟨v, hv⟩
    · exact h
  | column name =>
    rw [outline]
    split <;> exact of_page rfl
  | sort key =>
    rw [outline]
    split <;> exact of_page rfl
  | _ => exact of_page rfl

/-! ### Drafts -/

/-- What can be told of every node that an effect adds, and of a bare "or", can be told of the
draft. -/
theorem Draft.All.apply {P : Node → Prop} {d : Draft} (h : d.All P) {e : Effect}
    (he : ∀ n, e = .node n → P n) (hm : P .orMark) : (d.apply e).All P := by
  cases e with
  | node n => exact h.push (he n rfl)
  | mark => exact h.pushOr hm
  | nothing => exact h
  | misuse cause => exact h.fail cause

/-- What is in a draft is checked. -/
structure QueryDraft.IsChecked (d : QueryDraft) : Prop where
  conditions : d.conditions.All Node.IsChecked
  having : d.having.All Node.IsChecked
  sources : ∀ s ∈ d.sources, Checked s.shown
  ctes : ∀ c ∈ d.ctes, Checked c.query.shown
  unions : ∀ u ∈ d.unions, Checked u.query.shown
  page : d.outline.PageIsMade

/-- What is in a query is checked, and the page is one that can be made. -/
structure Query.IsChecked (q : Query) : Prop where
  ctes : Checked (cteShown q.ctes)
  sources : Checked (sourceShown q.sources)
  conditions : Checked (nodeShown q.conditions)
  having : Checked (nodeShown q.having)
  unions : Checked (unionShown q.unions)
  page : q.outline.PageIsMade

namespace Query.IsChecked

variable {q : Query}

theorem rows (h : q.IsChecked) : Checked q.shown := by
  obtain ⟨outline, sources, conditions, having, ctes, unions⟩ := q
  simp only [shown, checked_append]
  exact ⟨⟨⟨⟨⟨h.ctes, h.sources⟩, Outline.checked_boundShown h.page⟩, h.conditions⟩, h.having⟩,
    h.unions⟩

theorem count (h : q.IsChecked) : Checked q.shownCount := by
  simp only [shownCount, checked_append]
  exact ⟨⟨⟨⟨h.ctes, h.sources⟩, h.conditions⟩, h.having⟩, h.unions⟩

theorem nearest (h : q.IsChecked) (search : Search) : Checked (q.shownNearest search) := by
  simp only [shownNearest, checked_append]
  exact ⟨⟨⟨⟨⟨⟨h.ctes, checked_given⟩, h.sources⟩, Outline.checked_boundShown h.page⟩,
    h.conditions⟩, h.having⟩, h.unions⟩

end Query.IsChecked

/-- What a change adds is checked. -/
def Change.IsChecked : Change → Prop
  | outline f => ∀ o : Outline, o.PageIsMade → (f o).PageIsMade
  | source s => Checked s.shown
  | criterion c => ∀ n, c.effect = .node n → n.IsChecked
  | having body => ∀ d : Draft, d.All Node.IsChecked → (Criterion.addAll d body).All Node.IsChecked
  | cte c => Checked c.query.shown
  | union u => Checked u.query.shown
  | misuse _ => True

theorem Change.isChecked_ofBuilt {α : Type} {built : Except Misuse α} {use : α → Change}
    (h : ∀ a, built = .ok a → (use a).IsChecked) : (ofBuilt built use).IsChecked := by
  cases built with
  | ok a => exact h a rfl
  | error cause => trivial

namespace QueryDraft

theorem isChecked_empty : empty.IsChecked :=
  ⟨Draft.all_empty, Draft.all_empty, nofun, nofun, nofun, nofun⟩

theorem IsChecked.apply {d : QueryDraft} (h : d.IsChecked) {x : Change} (hx : x.IsChecked) :
    (d.apply x).IsChecked := by
  cases x with
  | outline f => exact { h with page := hx _ h.page }
  | source s =>
    exact { h with sources := List.forall_mem_append.2 ⟨h.sources, List.forall_mem_singleton.2 hx⟩ }
  | criterion c =>
    -- a bare "or" shows nothing, and what the criterion adds is checked
    refine { h with conditions := ?_ }
    rw [QueryDraft.apply, Criterion.add_eq_apply]
    exact h.conditions.apply hx checked_nil
  | having body => exact { h with having := hx _ h.having }
  | cte c =>
    exact { h with ctes := List.forall_mem_append.2 ⟨h.ctes, List.forall_mem_singleton.2 hx⟩ }
  | union u =>
    exact { h with unions := List.forall_mem_append.2 ⟨h.unions, List.forall_mem_singleton.2 hx⟩ }
  | misuse cause => exact { h with }

theorem IsChecked.of_finish {d : QueryDraft} (h : d.IsChecked) {q : Query}
    (hq : d.finish = .ok q) : q.IsChecked := by
  obtain ⟨-, -, -, -, rfl⟩ := finish_eq_ok_iff.1 hq
  -- finishing drops sources and changes nothing else
  generalize hg : eliminate _ = q
  have hs : q.sources ⊆ d.sources := hg ▸ sources_eliminate_subset _
  obtain ⟨ho, hc, hh, ht, hu⟩ : q.outline = d.outline ∧ q.conditions = d.conditions.nodes ∧
      q.having = d.having.nodes ∧ q.ctes = d.ctes ∧ q.unions = d.unions := by
    rw [← hg]
    unfold eliminate
    split <;> exact ⟨rfl, rfl, rfl, rfl, rfl⟩
  refine ⟨?_, ?_, ?_, ?_, ?_, ho ▸ h.page⟩
  · rw [ht, cteShown_eq_flatMap, checked_flatMap]
    exact h.ctes
  · rw [sourceShown_eq_flatMap, checked_flatMap]
    exact fun s hm => h.sources s (hs hm)
  · exact hc ▸ Node.checked_nodeShown.2 h.conditions
  · exact hh ▸ Node.checked_nodeShown.2 h.having
  · rw [hu, unionShown_eq_flatMap, checked_flatMap]
    exact h.unions

end QueryDraft

/-! ### Declarations -/

theorem Node.isChecked_group {j : Junction} {body : List Criterion} {subs : List Node}
    (hb : Node.build body = .ok subs) (h : (Criterion.addAll .empty body).All Node.IsChecked) :
    (Node.group j subs).IsChecked := by
  obtain ⟨-, rfl⟩ := Draft.finish_eq_ok_iff.1 hb
  exact Node.checked_nodeShown.2 h

theorem Source.checked_joined {s t : Source} {j : Join} {c : Option Constraint}
    (hn : Checked (nestedShown s.nested)) (hc : Checked (constraintShown c))
    (h : s.joined j c = .ok t) : Checked t.shown := by
  -- a constraint without effect is dropped, and shows nothing then
  have heffective : Checked (constraintShown (c.bind Constraint.effective?)) := by
    cases c with
    | none => exact checked_nil
    | some c =>
      cases c with
      | condition nodes =>
        rw [Option.bind_some, Constraint.effective?]
        split
        · exact hc
        · exact checked_nil
      | columns names =>
        rw [Option.bind_some, Constraint.effective?]
        split <;> exact checked_nil
  simp only [joined] at h
  split at h
  · cases h
  · cases h
    refine checked_append.2 ⟨hn, ?_⟩
    split
    · exact checked_nil
    · exact heffective

namespace Source

theorem checked_nested_parse (spec : String) : Checked (nestedShown (parse spec).nested) := by
  obtain ⟨name, nickname, h⟩ := exists_parse_eq spec
  rw [h]
  exact checked_nil

theorem checked_parse (spec : String) : Checked (parse spec).shown := by
  obtain ⟨name, nickname, h⟩ := exists_parse_eq spec
  rw [h]
  exact checked_nil

theorem checked_ofQuery {q : Query} (h : Checked q.shown) (nickname : String) :
    Checked (ofQuery q nickname).shown := checked_append.2 ⟨h, checked_nil⟩

theorem checked_bind {s t : Source} {j : Join} {built : Except Misuse (Option Constraint)}
    (hn : Checked (nestedShown s.nested))
    (hc : ∀ {c}, built = .ok c → Checked (constraintShown c))
    (h : (built.bind fun c => s.joined j c) = .ok t) : Checked t.shown := by
  cases hb : built with
  | error cause =>
    rw [hb] at h
    cases h
  | ok c =>
    rw [hb] at h
    exact checked_joined hn (hc hb) h

end Source

theorem Node.Declared.isChecked_of_leaf {n : Node} (h : n.Declared) (hg : n.op.isGroup = false)
    (hq : n.op ≠ .subquery) : n.IsChecked := by
  cases h with
  | comparison c key hv => exact checked_singleton (Value.isFinite_of_asScalar hv)
  | truthValue key b => exact checked_singleton rfl
  | pattern p key hv =>
    obtain ⟨s, rfl, -⟩ := Value.of_asPattern hv
    exact checked_singleton (by cases p <;> rfl)
  | membership m key hv => exact checked_singleton (Value.isFinite_of_asMembers hv)
  -- what is passed on as given need not be finite
  | raw args ht => exact List.forall_mem_map.2 fun v _ hw => absurd rfl hw
  | distance field hv => exact List.forall_mem_cons.2 ⟨fun hw => absurd rfl hw, checked_given⟩
  | group j hs hc => cases hg
  | subquery body ht hb => exact absurd rfl hq
  | _ => exact checked_nil

mutual

/-- **The node that a criterion adds is checked.** -/
theorem Criterion.checked_effect (c : Criterion) (hp : ∀ p ∈ c.pages, p.IsMade) {n : Node}
    (h : c.effect = .node n) : n.IsChecked := by
  cases c with
  | group j body =>
    obtain ⟨subs, hb, -, rfl⟩ := Effect.ofGroup_eq_node_iff.1 h
    exact Node.isChecked_group hb (Criterion.checked_addAll Draft.all_empty body hp)
  | when test body =>
    cases test with
    | none => cases h
    | some test =>
      cases body with
      | none => cases h
      | some body =>
        cases test with
        | false => cases h
        | true =>
          obtain ⟨subs, hb, -, rfl⟩ := Effect.ofGroup_eq_node_iff.1 h
          exact Node.isChecked_group hb (Criterion.checked_addAll Draft.all_empty body hp)
  | subquery text body =>
    rw [Criterion.effect] at h
    split at h
    · cases h
    · obtain ⟨q, hq, rfl⟩ := Effect.ofQuery_eq_node_iff.1 h
      exact ((Clause.checked_addAll QueryDraft.isChecked_empty body hp).of_finish hq).rows
  | _ =>
    -- the other criteria add nodes without nodes or queries in them
    refine (Criterion.declared_of_effect h).isChecked_of_leaf ?_ ?_
    · rw [Criterion.op_of_effect h]
      rfl
    · rw [Criterion.op_of_effect h]
      nofun

theorem Criterion.checked_addAll {d : Draft} (h : d.All Node.IsChecked) (cs : List Criterion)
    (hp : ∀ p ∈ Criterion.pagesAll cs, p.IsMade) :
    (Criterion.addAll d cs).All Node.IsChecked := by
  cases cs with
  | nil => exact h
  | cons c cs =>
    obtain ⟨hc, hcs⟩ := List.forall_mem_append.1 hp
    rw [Criterion.addAll, Criterion.add_eq_apply]
    exact Criterion.checked_addAll
      (h.apply (fun n hn => Criterion.checked_effect c hc hn) checked_nil) cs hcs

theorem JoinRule.checked_constraint (rule : JoinRule) (hp : ∀ p ∈ rule.pages, p.IsMade)
    {c : Option Constraint} (h : rule.constraint = .ok c) : Checked (constraintShown c) := by
  cases rule with
  | on body =>
    rw [JoinRule.constraint] at h
    cases hb : Node.build body with
    | error cause =>
      rw [← Node.build, hb] at h
      cases h
    | ok nodes =>
      rw [← Node.build, hb] at h
      cases h
      obtain ⟨-, rfl⟩ := Draft.finish_eq_ok_iff.1 hb
      exact Node.checked_nodeShown.2 (Criterion.checked_addAll Draft.all_empty body hp)
  | columns names =>
    cases h
    exact checked_nil
  | none =>
    cases h
    exact checked_nil

/-- **What a clause adds is checked.** -/
theorem Clause.checked_change (started : Bool) (c : Clause) (hp : ∀ p ∈ c.pages, p.IsMade) :
    (c.change started).IsChecked := by
  cases c with
  | criterion c => exact fun n hn => Criterion.checked_effect c hp hn
  | having body => exact fun d hd => Criterion.checked_addAll hd body hp
  | source spec =>
    refine Change.isChecked_ofBuilt fun s hs => ?_
    split at hs
    · exact Source.checked_joined (c := none) (Source.checked_nested_parse spec) checked_nil hs
    · cases hs
      exact Source.checked_parse spec
  | nested nickname body =>
    refine Change.isChecked_ofBuilt fun q hq => ?_
    have hb := (Clause.checked_addAll QueryDraft.isChecked_empty body hp).of_finish hq
    exact Source.checked_ofQuery hb.rows nickname
  | join j spec rule =>
    rw [Clause.change]
    split
    · exact Change.isChecked_ofBuilt fun s hs =>
        Source.checked_bind (Source.checked_nested_parse spec)
          (JoinRule.checked_constraint rule hp) hs
    · trivial
  | joinNested j nickname body rule =>
    -- the pages of the body and those of the rule stand in one list
    obtain ⟨hbody, hrule⟩ := List.forall_mem_append.1 hp
    rw [Clause.change]
    split
    · refine Change.isChecked_ofBuilt fun s hs => ?_
      cases hq : Query.build body with
      | error cause =>
        rw [hq] at hs
        cases hs
      | ok q =>
        have hb := (Clause.checked_addAll QueryDraft.isChecked_empty body hbody).of_finish hq
        rw [hq] at hs
        exact Source.checked_bind (s := .ofQuery q nickname) hb.rows
          (JoinRule.checked_constraint rule hrule) hs
    · trivial
  | cte name recursive body =>
    rw [Clause.change]
    split
    · trivial
    · exact Change.isChecked_ofBuilt fun q hq =>
        ((Clause.checked_addAll QueryDraft.isChecked_empty body hp).of_finish hq).rows
  | union keepsDuplicates body =>
    exact Change.isChecked_ofBuilt fun q hq =>
      ((Clause.checked_addAll QueryDraft.isChecked_empty body hp).of_finish hq).rows
  | last v =>
    rw [Clause.change]
    split
    · trivial
    · exact fun o ho => Clause.pageIsMade_outline ho (.last v) hp
  | _ => exact fun o ho => Clause.pageIsMade_outline ho _ hp

theorem Clause.checked_addAll {d : QueryDraft} (h : d.IsChecked) (cs : List Clause)
    (hp : ∀ p ∈ Clause.pagesAll cs, p.IsMade) : (Clause.addAll d cs).IsChecked := by
  cases cs with
  | nil => exact h
  | cons c cs =>
    obtain ⟨hc, hcs⟩ := List.forall_mem_append.1 hp
    rw [Clause.addAll, Clause.add_eq_apply]
    exact Clause.checked_addAll (h.apply (Clause.checked_change _ c hc)) cs hcs

end

/-- **What is built is checked.** -/
theorem Query.checked_of_build {clauses : List Clause} {q : Query}
    (h : Query.build clauses = .ok q) (hp : ∀ p ∈ Clause.pagesAll clauses, p.IsMade) :
    q.IsChecked :=
  (Clause.checked_addAll QueryDraft.isChecked_empty clauses hp).of_finish h

end QueryTree
