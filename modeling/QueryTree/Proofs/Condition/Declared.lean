import QueryTree.Build

/-!
# What a declared condition tree holds

The nodes that declarations can put into a condition tree, each with what its declaration has
checked of it.

* `Node.Declared` — the nodes of a declared tree.
* `Criterion.declared_addAll` — no other node gets into a draft.
* `Node.Declared.walk` — and none is hidden in a group.
-/

namespace QueryTree

/-! ### Declared nodes -/

/-- A node that a declaration can put into a tree. -/
inductive Node.Declared : Node → Prop
  | comparison (c : Comparison) (key : String) {v w : Value} (h : v.asScalar = .present w) :
    Declared (ofValue (.compare c) key w)
  | truthValue (key : String) (b : Bool) : Declared (ofValue (.compare .eq) key (.bool b))
  | pattern (p : Pattern) (key : String) {v w : Value} (h : v.asPattern = .present w) :
    Declared (ofValue (.pattern p) key (Draft.wildcards p w))
  | membership (m : Membership) (key : String) {v w : Value} (h : v.asMembers = .present w) :
    Declared (ofValue (.member m) key w)
  | null (t : NullTest) (key : String) : Declared (bare (.null t) key)
  | raw {text : String} (args : List Value) (h : Text.isBlank text = false) :
    Declared ⟨.raw, text, some (.args args), []⟩
  | orMark : Declared orMark
  | group (j : Junction) {subs : List Node} (hs : ∀ n ∈ subs, Declared n)
    (h : hasContent subs = true) : Declared (group j subs)
  | subquery {text : String} {q : Query} (body : List Clause) (h : Text.isBlank text = false)
    (hq : Query.build body = .ok q) : Declared ⟨.subquery, text, some (.query q), []⟩
  | search (field : String) {s : Search} (hv : s.vector ≠ []) (hl : s.limit ≠ 0) :
    Declared ⟨.search, field, some (.search s), []⟩
  | distance (field : String) {bound : Distance} (hv : bound.vector ≠ []) :
    Declared ⟨.distance, field, some (.distance bound), []⟩
  | extension {key : String} {j : Json} (hk : key.isEmpty = false) (hj : j.isNull = false) :
    Declared ⟨.extension, key, some (.json j), []⟩

/-! ### Steps of a draft -/

namespace Draft

/-- All nodes of the draft have a property. -/
def All (P : Node → Prop) (d : Draft) : Prop := ∀ n ∈ d.nodes, P n

variable {P : Node → Prop} {d : Draft}

theorem all_empty : empty.All P := fun _ h => absurd h List.not_mem_nil

theorem All.fail (h : d.All P) (cause : Misuse) : (d.fail cause).All P := h

theorem All.push (h : d.All P) {n : Node} (hn : P n) : (d.push n).All P := by
  intro m hm
  unfold Draft.push at hm
  split at hm
  · exact h m hm
  · rcases List.mem_append.1 hm with hm | hm
    · exact h m hm
    · rwa [List.mem_singleton.1 hm]

theorem All.pushNormalized (h : d.All P) {op : Op} {key : String} {v : Normalized}
    (hv : ∀ w, v = .present w → P (.ofValue op key w)) : (d.pushNormalized op key v).All P := by
  cases v with
  | present w => exact h.push (hv w rfl)
  | absent => exact h
  | invalid why => exact h.fail _

theorem All.pushPattern (h : d.All P) {p : Pattern} {key : String} {v : Value}
    (hv : ∀ w, v.asPattern = .present w → P (.ofValue (.pattern p) key (wildcards p w))) :
    (d.pushPattern p key v).All P := by
  unfold Draft.pushPattern
  split
  · exact h.push (hv _ ‹_›)
  · exact h
  · exact h.fail _

theorem All.pushRequired (h : d.All P) {key : String} {v : Value}
    (hv : ∀ w, v.asMembers = .present w → P (.ofValue (.member .isIn) key w)) :
    (d.pushRequired key v).All P := by
  unfold Draft.pushRequired
  split
  · exact h.push (hv _ ‹_›)
  · exact h.fail _
  · exact h.fail _

theorem All.pushOr (h : d.All P) (hm : P .orMark) : d.pushOr.All P := by
  unfold Draft.pushOr
  split
  · exact h
  · split
    · exact h
    · exact h.push hm

theorem All.pushGroup (h : d.All P) {j : Junction} {inner : Draft}
    (hg : Node.hasContent inner.nodes = true → P (.group j inner.nodes)) :
    (d.pushGroup j inner).All P := by
  unfold Draft.pushGroup
  split
  · exact h
  · split
    · exact h.fail _
    · next subs hs =>
      obtain ⟨-, rfl⟩ := finish_eq_ok_iff.1 hs
      split
      · exact h.push (hg ‹_›)
      · exact h

theorem All.pushRaw (h : d.All P) {text : String} {args : List Value}
    (hr : Text.isBlank text = false → P ⟨.raw, text, some (.args args), []⟩) :
    (d.pushRaw text args).All P := by
  unfold Draft.pushRaw
  split
  · exact h
  · exact h.push (hr (eq_false_of_ne_true ‹_›))

theorem All.pushSubquery (h : d.All P) {text : String} {built : Except Misuse Query}
    (hq : ∀ q, built = .ok q → Text.isBlank text = false →
      P ⟨.subquery, text, some (.query q), []⟩) : (d.pushSubquery text built).All P := by
  unfold Draft.pushSubquery
  split
  · exact h.fail _
  · split
    · exact h.push (hq _ rfl (eq_false_of_ne_true ‹_›))
    · exact h.fail _

theorem All.pushSearch (h : d.All P) {field : String} {s : Search}
    (hs : s.vector ≠ [] → s.limit ≠ 0 → P ⟨.search, field, some (.search s), []⟩) :
    (d.pushSearch field s).All P := by
  unfold Draft.pushSearch
  split
  · exact h
  · next hv =>
    split
    · exact h.fail _
    · exact h.push (hs (by simpa using hv) ‹_›)

theorem All.pushDistance (h : d.All P) {field : String} {bound : Distance}
    (hb : bound.vector ≠ [] → P ⟨.distance, field, some (.distance bound), []⟩) :
    (d.pushDistance field bound).All P := by
  unfold Draft.pushDistance
  split
  · exact h
  · next hv => exact h.push (hb (by simpa using hv))

theorem All.pushExtension (h : d.All P) {key : String} {j : Json}
    (hj : key.isEmpty = false → j.isNull = false → P ⟨.extension, key, some (.json j), []⟩) :
    (d.pushExtension key j).All P := by
  unfold Draft.pushExtension
  split
  · exact h
  · next hk =>
    simp only [Bool.or_eq_true, not_or, Bool.not_eq_true] at hk
    exact h.push (hj hk.1 hk.2)

end Draft

/-! ### Declarations -/

mutual

/-- What one declaration adds is declared. -/
theorem Criterion.declared_add {d : Draft} (h : d.All Node.Declared) (c : Criterion) :
    (Criterion.add d c).All Node.Declared := by
  cases c with
  | compare c key v => exact h.pushNormalized fun w hw => .comparison c key hw
  | eqBool key b => exact h.push (.truthValue key b)
  | pattern p key v => exact h.pushPattern fun w hw => .pattern p key hw
  | member m key v => exact h.pushNormalized fun w hw => .membership m key hw
  | inRequired key v => exact h.pushRequired fun w hw => .membership .isIn key hw
  | null t key => exact h.push (.null t key)
  | raw text args => exact h.pushRaw fun ht => .raw args ht
  | or => exact h.pushOr .orMark
  -- the body is built from an empty draft, to which the induction applies
  | group j body =>
    exact h.pushGroup fun hc => .group j (Criterion.declared_addAll Draft.all_empty body) hc
  | when test body =>
    cases test with
    | none => exact h.fail _
    | some test =>
      cases body with
      | none => exact h.fail _
      | some body =>
        cases test with
        | false => exact h
        | true =>
          exact h.pushGroup fun hc =>
            .group .all (Criterion.declared_addAll Draft.all_empty body) hc
  | subquery text body => exact h.pushSubquery fun q hq ht => .subquery body ht hq
  | search field s => exact h.pushSearch fun hv hl => .search field hv hl
  | distance field bound => exact h.pushDistance fun hv => .distance field hv
  | extension key j => exact h.pushExtension fun hk hj => .extension hk hj

/-- **No other node gets into a draft.** -/
theorem Criterion.declared_addAll {d : Draft} (h : d.All Node.Declared) (cs : List Criterion) :
    (Criterion.addAll d cs).All Node.Declared := by
  cases cs with
  | nil => exact h
  | cons c cs => exact Criterion.declared_addAll (Criterion.declared_add h c) cs

end

/-! ### Nodes at any depth -/

namespace Node

theorem Declared.subs {n : Node} (h : n.Declared) : ∀ m ∈ n.subs, m.Declared := by
  cases h with
  | group j hs hc => exact hs
  | _ => exact fun _ hm => absurd hm List.not_mem_nil

mutual

/-- **The nodes of a declared tree are declared at any depth.** -/
theorem Declared.walk (n : Node) (h : n.Declared) : ∀ m ∈ n.walk, m.Declared := by
  obtain ⟨op, key, operand, subs⟩ := n
  intro m hm
  rcases List.mem_cons.1 hm with hm | hm
  · exact hm ▸ h
  · exact Declared.walkAll subs h.subs m hm

theorem Declared.walkAll (ns : List Node) (h : ∀ n ∈ ns, n.Declared) :
    ∀ m ∈ Node.walkAll ns, m.Declared := by
  cases ns with
  | nil => exact fun _ hm => absurd hm List.not_mem_nil
  | cons n ns =>
    intro m hm
    rcases List.mem_append.1 hm with hm | hm
    · exact Declared.walk n (h n List.mem_cons_self) m hm
    · exact Declared.walkAll ns (fun m hm => h m (List.mem_cons_of_mem _ hm)) m hm

end

end Node

end QueryTree
