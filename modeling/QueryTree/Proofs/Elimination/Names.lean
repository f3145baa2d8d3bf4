import QueryTree.Proofs.Elimination.Dropped
import QueryTree.Proofs.Elimination.References

/-!
# Which source a reference can denote

By the rules of names of the language, an unqualified column can belong to any source.  A qualified
one belongs to the source that goes by the qualifier: by its nickname or, without one, by the name
of its table, of which the last component is enough.  The elimination of joins compares texts
instead, so it can drop a source that a reference denotes.

* `Source.knownAs?` — what a source goes by.
* `Reference.canDenote` — whether a reference can denote a source.
* `Reference.Evades` — how a qualified reference denotes a source without mentioning it.
* `Query.denotes_dropped_iff` — which references can denote a dropped source.
-/

namespace QueryTree

/-! ### What a source goes by -/

/-- What a source goes by. -/
inductive KnownAs where
  | nickname (i : Identifier)
  /-- A table, its name first, then what the name is qualified with, from the inside out. -/
  | table (inner : Identifier) (outer : List Identifier)

/-- The identifiers that a source goes by, the innermost first. -/
def KnownAs.chain : KnownAs → List Identifier
  | nickname i => [i]
  | table inner outer => inner :: outer

/-- The identifiers at the start of some parts, with points between them, behind others; the
innermost is the first.  What is behind them follows. -/
def chainFrom (outer : List Identifier) : List Token → List Identifier × List Token
  | [] => (outer, [])
  | [t] => (t.identifier?.toList ++ outer, [])
  | t :: u :: rest =>
    match t.identifier? with
    | some i => if u.isMark '.' then chainFrom (i :: outer) rest else (i :: outer, u :: rest)
    | none => (outer, t :: u :: rest)

/-- The nickname at the start of what is behind the name of a table, perhaps behind "AS". -/
def nicknameFrom? (rules : NameRules) : List Token → Option Identifier
  | [] => none
  | t :: rest =>
    if t.isWord rules ['a', 's'] then rest.head?.bind Token.identifier?
    else t.identifier?.filter fun i => i.quoted || !rules.reserved i.text

/-- What a source goes by.  Where the declaration found no nickname, there may still be one behind
the name of the table. -/
def Source.knownAs? (rules : NameRules) (s : Source) : Option KnownAs :=
  match s.nickname with
  | some n => (Identifier.ofName? n).map .nickname
  | none =>
    -- the first part of a text is the white space in front of it
    match chainFrom [] (Token.scan s.name).tail with
    | (chain, rest) =>
      match nicknameFrom? rules rest, chain with
      | some i, _ => some (.nickname i)
      | none, inner :: outer => some (.table inner outer)
      | none, [] => none

/-! ### What a reference can denote -/

/-- Identifiers agree from the inside out, as far as both reach. -/
def agreeOutward (rules : NameRules) : List Identifier → List Identifier → Bool
  | a :: as, b :: bs => a.agrees rules b && agreeOutward rules as bs
  | _, _ => true

/-- The names that a column is qualified with are what a source goes by.  A table can be qualified
further, and its name can stand alone. -/
def KnownAs.fits (rules : NameRules) (names : List Identifier) : KnownAs → Bool
  | nickname i =>
    match names with
    | [a] => a.agrees rules i
    | _ => false
  | table inner outer =>
    match names with
    | a :: as => a.agrees rules inner && agreeOutward rules as outer
    | [] => false

/-- A reference can denote a source: it is not qualified, or qualified with what the source goes
by. -/
def Reference.canDenote (rules : NameRules) (s : Source) (r : Reference) : Bool :=
  r.qualifiers.isEmpty || (s.knownAs? rules).any (KnownAs.fits rules r.names)

/-! ### Mentions -/

/-- Identifiers without quotes, each with a point behind it, the innermost last. -/
def pointed (chain : List Identifier) : List Char :=
  (chain.map Identifier.text).reverse.flatMap (· ++ ['.'])

theorem pointed_cons (i : Identifier) (outer : List Identifier) :
    pointed (i :: outer) = pointed outer ++ i.text ++ ['.'] := by
  simp [pointed]

theorem pointed_suffix {chain names : List Identifier}
    (h : chain.map Identifier.text <+: names.map Identifier.text) :
    pointed chain <:+ pointed names := by
  obtain ⟨rest, h⟩ := h
  rw [pointed, pointed, ← h, List.reverse_append, List.flatMap_append]
  exact List.suffix_append _ _

/-- There is white space between the first qualifier and the last point, other than in quotes. -/
def Reference.isSpaced (r : Reference) : Bool :=
  match r.qualifiers with
  | x :: outer => !x.before.isEmpty || outer.any fun y => !(y.before.isEmpty && y.behind.isEmpty)
  | [] => false

theorem withoutQuotes_append (as bs : List Char) :
    withoutQuotes (as ++ bs) = withoutQuotes as ++ withoutQuotes bs := List.filter_append ..

theorem Qualifier.withoutQuotes_written {x : Qualifier} (h : x.before = []) :
    withoutQuotes x.written = x.name.text ++ '.' :: withoutQuotes x.behind := by
  rw [written, h, List.append_nil, withoutQuotes_append]
  rfl

theorem withoutQuotes_written_of_tight {qualifiers : List Qualifier}
    (h : ∀ y ∈ qualifiers, y.before = [] ∧ y.behind = []) :
    withoutQuotes (Reference.written qualifiers) = pointed (qualifiers.map Qualifier.name) := by
  induction qualifiers with
  | nil => rfl
  | cons x outer ih =>
    obtain ⟨⟨hb, hn⟩, ho⟩ := List.forall_mem_cons.1 h
    rw [Reference.written_cons, withoutQuotes_append, ih ho, Qualifier.withoutQuotes_written hb, hn,
      List.map_cons, pointed_cons, List.append_assoc]
    rfl

/-- Without white space, the names stand in front of the column, each with its point. -/
theorem Reference.pointed_prefix_written {r : Reference} (h : r.isSpaced = false) :
    pointed r.names <+: withoutQuotes (written r.qualifiers) := by
  unfold isSpaced at h
  unfold names
  split at h
  · next x outer hq =>
    rw [Bool.or_eq_false_iff, Bool.not_eq_false', List.isEmpty_iff, List.any_eq_false] at h
    -- no white space stands around a qualifier, so each ends with its point
    have ho : ∀ y ∈ outer, y.before = [] ∧ y.behind = [] := fun y hy => by simpa using h.2 y hy
    rw [hq, written_cons, withoutQuotes_append, withoutQuotes_written_of_tight ho,
      Qualifier.withoutQuotes_written h.1, List.map_cons, pointed_cons, List.append_assoc]
    simp
  · next hq =>
    rw [hq]
    exact List.nil_prefix

theorem withoutQuotes_within {as bs : List Char} (h : as <:+: bs) :
    withoutQuotes as <:+: withoutQuotes bs := List.IsInfix.filter _ h

/-- What a source goes by is one of its names, if its declaration was read apart. -/
theorem Source.exists_mem_names {rules : NameRules} {s : Source} {k : KnownAs}
    (hk : s.knownAs? rules = some k)
    (h : s.nickname = none → pointed k.chain = unquote s.name ++ ['.']) :
    ∃ n ∈ s.names, n ++ ['.'] = pointed k.chain := by
  rw [knownAs?.eq_def] at hk
  split at hk
  · next n hn =>
    -- a declared nickname is one of the names
    obtain ⟨i, hi, rfl⟩ := Option.map_eq_some_iff.1 hk
    have ht : i.text = unquote n := by
      rw [Identifier.text, Identifier.eq_of_of? hi, unquote_eq]
    refine ⟨unquote n, List.mem_filter.2 ⟨?_, ?_⟩, ?_⟩
    · simp [hn]
    · rw [← ht]
      simpa using i.text_ne_nil
    · rw [KnownAs.chain, pointed_cons, ht]
      rfl
  · next hn =>
    -- without one, the only name is the text of the table
    obtain ⟨i, outer, hc⟩ : ∃ i outer, k.chain = i :: outer := by
      cases k with
      | nickname i => exact ⟨i, [], rfl⟩
      | table inner outer => exact ⟨inner, outer, rfl⟩
    have hp := h hn
    refine ⟨unquote s.name, List.mem_filter.2 ⟨List.mem_cons_self, ?_⟩, hp.symm⟩
    rw [hc, pointed_cons] at hp
    rw [← List.append_cancel_right hp]
    simp [i.text_ne_nil]

/-! ### Dropped sources -/

/-- How a qualified reference can denote a source without mentioning it: there is white space in
front of a point, the name of a table stands without what it is qualified with, a letter stands in
another case, or the declaration of the source was not read apart. -/
def Reference.Evades (rules : NameRules) (s : Source) (r : Reference) : Prop :=
  ∃ k, s.knownAs? rules = some k ∧ k.fits rules r.names = true ∧
    (r.isSpaced = true ∨ r.names.length < k.chain.length ∨
      (∃ (j : Nat) (a b : Identifier), r.names[j]? = some a ∧ k.chain[j]? = some b ∧
        a.text ≠ b.text) ∨
      s.nickname = none ∧ pointed k.chain ≠ unquote s.name ++ ['.'])

theorem prefix_of_texts_eq {chain names : List Identifier} (hl : chain.length ≤ names.length)
    (h : ∀ (j : Nat) (a b : Identifier), names[j]? = some a → chain[j]? = some b →
      a.text = b.text) : chain.map Identifier.text <+: names.map Identifier.text := by
  rw [List.prefix_iff_getElem?]
  intro j hj
  rw [List.length_map] at hj
  have hj' : j < names.length := Nat.lt_of_lt_of_le hj hl
  rw [List.getElem?_map, List.getElem?_eq_getElem hj', Option.map_some, List.getElem_map,
    h j _ _ (List.getElem?_eq_getElem hj') (List.getElem?_eq_getElem hj)]

/-- A qualified reference in a text that does not mention a source can denote it in no other way. -/
theorem Reference.evades_of_fits {rules : NameRules} {s : Source} {k : KnownAs} {t : String}
    {r : Reference} (hr : r ∈ references rules t) (hk : s.knownAs? rules = some k)
    (hf : k.fits rules r.names = true) (hm : s.isMentionedIn t = false) : r.Evades rules s := by
  refine ⟨k, hk, hf, ?_⟩
  refine Classical.byContradiction fun hn => ?_
  simp only [not_or, Nat.not_lt, not_exists, not_and, Classical.not_not, Bool.not_eq_true] at hn
  obtain ⟨hspaced, hlength, htexts, hplain⟩ := hn
  -- otherwise a name of the source stands in the text, in front of a point
  obtain ⟨n, hmem, hpoint⟩ := Source.exists_mem_names hk hplain
  refine Bool.false_ne_true (hm.symm.trans (Source.isMentionedIn_iff.2 ⟨n, hmem, ?_⟩))
  have hnames : pointed k.chain <:+: pointed r.names :=
    (pointed_suffix (prefix_of_texts_eq hlength htexts)).isInfix
  have hwritten : pointed r.names <:+: withoutQuotes (written r.qualifiers) :=
    (pointed_prefix_written hspaced).isInfix
  rw [hpoint, unquote_eq]
  exact (hnames.trans hwritten).trans (withoutQuotes_within (written_infix_of_mem_references hr))

namespace Query

/-- The texts that are judged before a source is dropped: those that are collected from the query
and those of the sources behind it that stay. -/
def textsJudged (q : Query) (behind : List Source) : List String :=
  q.fragments ++ behind.flatMap Source.backwardFragments

/-- **Which references can denote a dropped source.**  The sources that are kept are left.  None of
the texts that are judged mentions a dropped one, and those of the query itself have a point.  So of
the references in these texts, exactly those can denote it that are not qualified, or are qualified
with what it goes by in a way that does not mention it. -/
theorem denotes_dropped_iff (rules : NameRules) (q : Query) {s : Source} {i : Nat}
    (hs : q.sources[i]? = some s) (hk : q.keeps[i]? = some false) :
    q.neededSources = Source.marked q.sources q.keeps ∧
    (∀ t ∈ q.fragments, isUnqualified t = false) ∧
    ∀ t ∈ q.textsJudged (q.keptBehind i), s.isMentionedIn t = false ∧
      ∀ r ∈ references rules t,
        (r.canDenote rules s = true ↔ r.qualifiers = [] ∨ r.Evades rules s) := by
  obtain ⟨hq, hb⟩ := not_isMentionedIn_of_keeps hs hk
  have hpoint := List.any_eq_false.1 (exists_judged_of_keeps hs hk).1
  refine ⟨q.neededSources_eq, fun t ht => eq_false_of_ne_true (hpoint t ht), fun t ht => ?_⟩
  -- neither the texts of the query nor those of a source that stays mention `s`
  have hm : s.isMentionedIn t = false := by
    rcases List.mem_append.1 ht with ht | ht
    · exact hq t ht
    · obtain ⟨l, hl, ht⟩ := List.mem_flatMap.1 ht
      exact (hb l hl).2 t ht
  refine ⟨hm, fun r hr => ?_⟩
  rw [Reference.canDenote, Bool.or_eq_true, List.isEmpty_iff, Option.any_eq_true]
  refine or_congr_right ⟨?_, ?_⟩
  · rintro ⟨k, hk, hf⟩
    exact Reference.evades_of_fits hr hk hf hm
  · rintro ⟨k, hk, hf, -⟩
    exact ⟨k, hk, hf⟩

/-- A joined table is dropped although one condition names a column that can be its own, and another
one calls it by its nickname in another letter case. -/
theorem denotes_dropped_of_column :
    let rules : NameRules := ⟨Char.toLower, fun _ => false⟩
    let dogs : Source := ⟨"dog", some "d", some .cross, none, none⟩
    let q : Query :=
      ⟨{ Outline.empty with results := ["c.id"] }, [⟨"cat", some "c", none, none, none⟩, dogs],
        [⟨.raw, "c.owner = dog_owner", some (.args []), []⟩,
          ⟨.raw, "D.age > c.age", some (.args []), []⟩], [], [], []⟩
    q.sources[1]? = some dogs ∧ q.keeps[1]? = some false ∧
      (∃ r ∈ references rules "c.owner = dog_owner",
        r.qualifiers = [] ∧ r.canDenote rules dogs = true) ∧
      ∃ r ∈ references rules "D.age > c.age", r.Evades rules dogs := by
  intro rules dogs q
  have hs : q.sources[1]? = some dogs := rfl
  have hk : q.keeps[1]? = some false := by decide +kernel
  have h := (q.denotes_dropped_iff rules hs hk).2.2
  have hfirst : "c.owner = dog_owner" ∈ q.textsJudged (q.keptBehind 1) := by decide +kernel
  have hsecond : "D.age > c.age" ∈ q.textsJudged (q.keptBehind 1) := by decide +kernel
  refine ⟨hs, hk, ?_, ?_⟩
  · have hany : (references rules "c.owner = dog_owner").any (·.qualifiers.isEmpty) = true := by
      decide +kernel
    obtain ⟨r, hr, he⟩ := List.any_eq_true.1 hany
    have he := List.isEmpty_iff.1 he
    exact ⟨r, hr, he, ((h _ hfirst).2 r hr).2 (.inl he)⟩
  · have hany : (references rules "D.age > c.age").any
        (fun r => r.canDenote rules dogs && !r.qualifiers.isEmpty) = true := by decide +kernel
    obtain ⟨r, hr, hd⟩ := List.any_eq_true.1 hany
    rw [Bool.and_eq_true, Bool.not_eq_true', List.isEmpty_eq_false_iff] at hd
    exact ⟨r, hr, (((h _ hsecond).2 r hr).1 hd.1).resolve_left hd.2⟩

end Query

end QueryTree
