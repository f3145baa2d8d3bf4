import QueryTree.Proofs.Nesting.Renumbering

/-!
# Names of select items

A select item has the name that its text declares, or is given the next free name.  Free names are
counted over the whole statement, whatever is nested in it, so no two of them are the same.  Nothing
keeps a declared name from being one of them.

* `Given` — a name, the expression that it stands for, and whether it is a free name.
* `Fragment.given` — the names that a fragment gives, in order.
* `Fragment.nodup_free` — free names are pairwise distinct.
* `Fragment.distinguished_iff` — when the free names of a part differ from all its other names.
* `KeyMap.get?_ofList` — a map of entries has the last one of each key.
* `Query.names_distinguished_iff` — the names of a statement, of each select list in it and of its
  map.
-/

namespace QueryTree

/-- The name of a select item. -/
structure Given where
  name : String
  /-- What the name stands for. -/
  expression : String
  /-- It is a free name, and not a declared one. -/
  free : Bool
  deriving DecidableEq

/-- The name that a piece gives. -/
def Piece.given? (n : Numbering) : Piece → Option Given
  | item expression => some ⟨freeName n.names, expression, true⟩
  | labelled expression label => some ⟨label, expression, false⟩
  | _ => none

/-! ### Free names -/

theorem freeName_injective {i j : Nat} (h : freeName i = freeName j) : i = j := by
  have hs : (toString i).toList = (toString j).toList :=
    congrArg String.toList ((String.append_right_inj _).1 h)
  simp only [Nat.toString_eq_repr, Nat.toList_repr] at hs
  have hn := congrArg (fun ds => Nat.ofDigitChars 10 ds 0) hs
  simpa only [Nat.ofDigitChars_ten_toDigits] using hn

namespace Fragment

/-- The names that a fragment gives, in order. -/
def given (n : Numbering) : Fragment → List Given
  | [] => []
  | piece :: rest => (piece.given? n).toList ++ given (n.after piece) rest

theorem given_append (n : Numbering) (f g : Fragment) :
    given n (f ++ g) = given n f ++ given (n.afterAll f) g := by
  induction f generalizing n with
  | nil => rfl
  | cons piece rest ih =>
    rw [List.cons_append, given, given, ih, List.append_assoc]
    rfl

theorem labels_eq_map (n : Numbering) (f : Fragment) :
    labels n f = (given n f).map fun g => (g.name, g.expression) := by
  induction f generalizing n with
  | nil => rfl
  | cons piece rest ih =>
    rw [labels, given, ih, List.map_append]
    cases piece <;> rfl

theorem map_name_free (n : Numbering) (f : Fragment) :
    ((given n f).filter Given.free).map Given.name =
      (List.range' n.names f.freeNames).map freeName := by
  induction f generalizing n with
  | nil => rfl
  | cons piece rest ih =>
    rw [given, List.filter_append, List.map_append, ih]
    cases piece with
    | item expression => rw [freeNames, List.range'_succ, List.map_cons]; rfl
    | _ => rfl

/-- **Free names are pairwise distinct.** -/
theorem nodup_free (n : Numbering) (f : Fragment) :
    (((given n f).filter Given.free).map Given.name).Nodup := by
  rw [map_name_free]
  exact List.pairwise_map.2
    ((List.nodup_range' 1).imp fun hne he => hne (freeName_injective he))

theorem exists_render_of_given {p : Placeholder} {n : Numbering} {f : Fragment} {g : Given}
    (h : g ∈ given n f) :
    ∃ lead tail, f.render p n = lead ++ (g.expression ++ " AS " ++ g.name) ++ tail := by
  induction f generalizing n with
  | nil => cases h
  | cons piece rest ih =>
    rw [given, List.mem_append] at h
    rw [render]
    rcases h with h | h
    · refine ⟨"", render p (n.after piece) rest, ?_⟩
      have hp : piece.render p n = g.expression ++ " AS " ++ g.name := by
        cases piece with
        | text s => cases h
        | argument v => cases h
        | _ =>
          cases List.mem_singleton.1 h
          rfl
      rw [hp, String.empty_append]
    · obtain ⟨lead, tail, h⟩ := ih h
      refine ⟨piece.render p n ++ lead, tail, ?_⟩
      rw [h]
      simp only [String.append_assoc]

end Fragment

/-! ### Names that can be told apart -/

/-- Each free name differs from all other names, be they free or declared. -/
def Distinguished (gs : List Given) : Prop :=
  gs.Pairwise fun g g' => (g.free || g'.free) = true → g.name ≠ g'.name

instance (gs : List Given) : Decidable (Distinguished gs) :=
  inferInstanceAs (Decidable (List.Pairwise _ gs))

/-- Where free names are distinct, only a declared name can be the same as a free one. -/
theorem distinguished_iff {gs : List Given} (h : ((gs.filter Given.free).map Given.name).Nodup) :
    Distinguished gs ↔
      ∀ g ∈ gs, g.free = false → g.name ∉ (gs.filter Given.free).map Given.name := by
  have : Std.Symm fun g g' : Given => (g.free || g'.free) = true → g.name ≠ g'.name :=
    ⟨fun g g' h hf => (h (Bool.or_comm _ _ ▸ hf)).symm⟩
  constructor
  · intro hd g hg hfree hmem
    obtain ⟨g', hg', hname⟩ := List.mem_map.1 hmem
    obtain ⟨hg', hfree'⟩ := List.mem_filter.1 hg'
    have hne : g ≠ g' := fun he => by
      rw [he, hfree'] at hfree
      cases hfree
    exact hd.forall hg hg' hne (by rw [hfree', Bool.or_true]) hname.symm
  · intro hd
    -- a free and a declared name, whichever comes first
    have hne {g g' : Given} (hg : g ∈ gs) (hg' : g' ∈ gs) (hf : g.free = false)
        (hf' : g'.free = true) : g.name ≠ g'.name := fun he =>
      hd g hg hf (he ▸ List.mem_map_of_mem (List.mem_filter.2 ⟨hg', hf'⟩))
    refine (List.pairwise_filter.1 (List.pairwise_map.1 h)).imp_of_mem fun hg hg' hb hf => ?_
    rename_i g g'
    cases hgf : g.free with
    | true =>
      cases hgf' : g'.free with
      | true => exact hb hgf hgf'
      | false => exact (hne hg' hg hgf' hgf).symm
    | false =>
      rw [hgf, Bool.false_or] at hf
      exact hne hg hg' hgf hf

/-- **The free names of a part differ from all its other names exactly if no declared name in it is
one of the free names that it uses.** -/
theorem Fragment.distinguished_iff (n : Numbering) (f : Fragment) :
    Distinguished (f.given n) ↔
      ∀ g ∈ f.given n, g.free = false →
        ∀ k, n.names ≤ k → k < n.names + f.freeNames → g.name ≠ freeName k := by
  rw [QueryTree.distinguished_iff (nodup_free n f), map_name_free]
  simp only [List.mem_map, List.mem_range'_1, not_exists, not_and, and_imp]
  exact forall₃_congr fun g hg hf => forall₃_congr fun k _ _ => ne_comm

example :
    ¬Distinguished
      ((selectItems { Outline.empty with results := ["a.b", "x AS c0"] }).given .start) := by
  decide

/-! ### Maps -/

theorem KeyMap.get?_foldl_insert {α : Type} (entries : List (String × α)) (m : KeyMap α)
    (key : String) :
    (entries.foldl (fun m e => m.insert e.1 e.2) m).get? key =
      ((entries.reverse.find? fun e => e.1 == key).map Prod.snd).or (m.get? key) := by
  induction entries generalizing m with
  | nil => rfl
  | cons e entries ih =>
    rw [List.foldl_cons, ih, List.reverse_cons, List.find?_append, List.find?_singleton]
    -- a later entry of the key hides `e`
    cases entries.reverse.find? fun e => e.1 == key with
    | some e' => rfl
    | none =>
      by_cases h : e.1 = key
      · simp [h, get?_insert_self]
      · simp [h, get?_insert_of_ne (Ne.symm h)]

theorem KeyMap.get?_ofList {α : Type} (entries : List (String × α)) (key : String) :
    (ofList entries).get? key = (entries.reverse.find? fun e => e.1 == key).map Prod.snd := by
  rw [ofList, get?_foldl_insert]
  exact Option.or_none

/-- The last of some names that is spelled in this way. -/
def lastNamed? (name : String) (gs : List Given) : Option Given :=
  gs.reverse.find? fun g => g.name == name

/-- The map of a statement has, under each name, what the last item of that name stands for. -/
theorem Fragment.get?_labels {d : Dialect} {f : Fragment} {gs gs' : List Given} {g : Given}
    (h : f.given .start = gs ++ g :: gs') :
    (f.compileSelect d).labels.get? g.name =
      some ((lastNamed? g.name gs').getD g).expression := by
  have hg : List.find? (fun g' => g'.name == g.name) [g] = some g := by simp
  -- searched from the end, the item itself is found unless a later one has its name
  have hfind : (f.given .start).reverse.find? (fun g' => g'.name == g.name) =
      some ((lastNamed? g.name gs').getD g) := by
    rw [h, List.reverse_append, List.reverse_cons, List.find?_append, List.find?_append, hg,
      lastNamed?]
    cases gs'.reverse.find? fun g' => g'.name == g.name <;> rfl
  rw [compileSelect, KeyMap.get?_ofList, labels_eq_map, ← List.map_reverse, List.find?_map]
  show (((f.given .start).reverse.find? fun g' => g'.name == g.name).map _).map _ = _
  rw [hfind]
  rfl

/-- So it has what an item stands for unless a later item of the same name stands for something
else. -/
theorem Fragment.get?_labels_eq_iff {d : Dialect} {f : Fragment} {gs gs' : List Given} {g : Given}
    (h : f.given .start = gs ++ g :: gs') :
    (f.compileSelect d).labels.get? g.name = some g.expression ↔
      ∀ g', lastNamed? g.name gs' = some g' → g'.expression = g.expression := by
  rw [get?_labels h]
  cases lastNamed? g.name gs' <;> simp

/-! ### Statements -/

namespace Query

theorem exists_pieces_eq (d : Dialect) (q : Query) :
    ∃ rest, q.pieces d =
      (q.statement d).ctes ++ .text "SELECT " :: selectItems q.outline ++ rest :=
  ⟨_, by rw [pieces_eq_framed, Statement.framed, List.append_assoc]⟩

/-- In a statement around a query, the names of the query's select list stand behind those in front
of the query and those in its named queries. -/
theorem exists_given_eq (d : Dialect) (q : Query) (before behind : Fragment) :
    ∃ rest, (before ++ q.pieces d ++ behind).given .start =
      (before ++ (q.statement d).ctes).given .start ++
        (selectItems q.outline).given (Numbering.start.afterAll (before ++ (q.statement d).ctes)) ++
          rest := by
  obtain ⟨rest, hq⟩ := q.exists_pieces_eq d
  have hw : before ++ q.pieces d ++ behind = before ++ (q.statement d).ctes ++
      (.text "SELECT " :: selectItems q.outline) ++ (rest ++ behind) := by
    rw [hq]
    simp only [List.append_assoc]
  rw [hw, Fragment.given_append, Fragment.given_append]
  exact ⟨_, rfl⟩

/-- **Free names are distinct over a whole statement, but a declared name can be one of them.**  For
every query that is written in a statement, at any depth: the free names of its select list, counted
on from those in front of it, differ from all other names of the list unless one of these is
declared as a free name that the list uses.  A name stands in the map of the statement for the
expression in front of it unless the last item behind it that has the same name stands for something
else. -/
theorem names_distinguished_iff (d : Dialect) {places : List Place}
    (h : places.all Place.isWritten = true) :
    ∃ before behind, (∀ q, (fillAll places q).pieces d = before ++ q.pieces d ++ behind) ∧
      ∀ q,
        let names := ((fillAll places q).pieces d).given .start
        let front := before ++ (q.statement d).ctes
        let list := (selectItems q.outline).given (Numbering.start.afterAll front)
        ((names.filter Given.free).map Given.name).Nodup ∧
        (∃ rest, names = front.given .start ++ list ++ rest) ∧
        (Distinguished list ↔
          ∀ g ∈ list, g.free = false → ∀ k, front.freeNames ≤ k →
            k < front.freeNames + (selectItems q.outline).freeNames → g.name ≠ freeName k) ∧
        ∀ gs g gs', names = gs ++ g :: gs' →
          (∃ lead tail, ((fillAll places q).toSelect d).sql =
            lead ++ (g.expression ++ " AS " ++ g.name) ++ tail) ∧
          (((fillAll places q).toSelect d).labels.get? g.name = some g.expression ↔
            ∀ g', lastNamed? g.name gs' = some g' → g'.expression = g.expression) := by
  obtain ⟨before, behind, hs⟩ := surrounds_fillAll d h
  refine ⟨before, behind, hs, fun q => ⟨Fragment.nodup_free _ _, ?_, ?_,
    fun gs g gs' hg => ⟨Fragment.exists_render_of_given (hg ▸ ?_), ?_⟩⟩⟩
  · have hw : (fillAll places q).pieces d = before ++ q.pieces d ++ behind := hs q
    rw [hw]
    exact q.exists_given_eq d before behind
  · -- a statement counts its free names from zero
    have hn : (Numbering.start.afterAll (before ++ (q.statement d).ctes)).names =
        Fragment.freeNames (before ++ (q.statement d).ctes) := by
      rw [Fragment.names_afterAll]
      exact Nat.zero_add _
    rw [Fragment.distinguished_iff, hn]
  · exact List.mem_append_right _ List.mem_cons_self
  · exact Fragment.get?_labels_eq_iff hg

/-- In the map, a name that a nested query declares takes the place of a free name of the query
around it. -/
theorem names_distinguished_iff_of_declared :
    let select (column : String) : Query := ⟨{ Outline.empty with results := [column] },
      [⟨"t", none, none, none, none⟩], [], [], [], []⟩
    let places : List Place := [.source (select "a.b") [] ⟨"", some "s", none, none, none⟩ []]
    let q := select "x AS c0"
    places.all Place.isWritten = true ∧
      ((fillAll places q).pieces .default).given .start =
        [⟨"c0", "a.b", true⟩, ⟨"c0", "x", false⟩] ∧
      ((fillAll places q).toSelect .default).labels.get? "c0" ≠ some "a.b" := by
  intro select places q
  have hp : places.all Place.isWritten = true := rfl
  have hn : ((fillAll places q).pieces .default).given .start =
      [⟨"c0", "a.b", true⟩, ⟨"c0", "x", false⟩] := by decide
  obtain ⟨before, behind, -, hq⟩ := names_distinguished_iff .default hp
  obtain ⟨-, -, -, hl⟩ := hq q
  have hget := (hl [] ⟨"c0", "a.b", true⟩ [⟨"c0", "x", false⟩] hn).2
  refine ⟨hp, hn, fun he => ?_⟩
  have hx := hget.1 he _ rfl
  exact absurd hx (by decide)

end Query

end QueryTree
