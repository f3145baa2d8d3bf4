import QueryTree.Proofs.Condition.Declared
import QueryTree.Proofs.Condition.Grammar
import QueryTree.Proofs.Condition.Meaning
import QueryTree.Sql.Select

/-!
# Rendering keeps the meaning

The text of a condition tree is written in one pass from left to right, with a flag for a bare "or"
that has been passed.  Read back by the grammar, it has the truth value of the tree.

* `exists_formula_of_started` — what one pass adds to a formula is what the level adds to its truth.
* `Node.spelt`, `Node.levelSpelt` — the text of a node and of a level.
* `Node.declared_level`, `nodeLexemes_reads` — what the text of declared conditions says.
-/

namespace QueryTree

variable {d : Dialect}

/-! ### The text of a node -/

theorem Node.lexemes_of_leaf {n : Node} (h : n.op.isGroup = false) :
    n.lexemes d = if (n.text d).isVoid then [] else [.leaf n (n.text d)] := by
  obtain ⟨op, key, operand, subs⟩ := n
  cases op with
  | group j => cases h
  | _ => rfl

theorem Node.lexemes_group {j : Junction} {key : String} {operand : Option Operand}
    {subs : List Node} :
    lexemes d ⟨.group j, key, operand, subs⟩ =
      if (nodeLexemes d (j == .any) false false subs).isEmpty then []
      else .opening :: nodeLexemes d (j == .any) false false subs ++ [.closing] := rfl

/-! ### The truth of a formula in one pass -/

namespace Formula

/-- What is known of a formula when its end is reached. -/
def running (ν : Node → Bool) : Formula → Running
  | .one c => ⟨false, c.holds ν⟩
  | .or e c => ⟨e.holds ν, c.holds ν⟩

theorem truth_running (ν : Node → Bool) (e : Formula) : (e.running ν).truth = e.holds ν := by
  cases e with
  | one c => exact Bool.false_or _
  | or e c => rfl

theorem running_extend (ν : Node → Bool) (or : Bool) (f : Factor) (e : Formula) :
    (e.extend or f).running ν = (e.running ν).next or (f.holds ν) := by
  cases e <;> cases or <;>
    simp [extend, running, Running.next, Running.truth, holds, Chain.holds]

end Formula

/-! ### Levels -/

namespace Node

/-- The truth value of a leaf that has a text, under an assignment of truth values to leaves. -/
def writtenTruth? (d : Dialect) (ν : Node → Bool) (n : Node) : Option Bool :=
  if (n.text d).isVoid then none else some (ν n)

/-- The text of a node is an operand with its truth value, or node and text vanish. -/
def Spelt (d : Dialect) (n : Node) : Prop :=
  (n.lexemes d = [] ∧ ∀ ν, n.meaning (writtenTruth? d ν) = none) ∨
    ∃ f : Factor, n.lexemes d = f.lexemes ∧
      ∀ ν, n.meaning (writtenTruth? d ν) = some (f.holds ν)

theorem meaning_of_isConnective (ν : Node → Bool) {n : Node} (h : n.isConnective = true) :
    n.meaning (writtenTruth? d ν) = none := by
  rw [eq_orMark_of_isConnective h]
  rfl

/-- What one pass adds to a formula is what the level adds to its truth. -/
theorem exists_formula_of_started (alternatives : Bool) {ns : List Node}
    (h : ∀ n ∈ ns, n.Spelt d) (e : Formula) (pendingOr : Bool) (passed : List Sibling)
    (hp : passed.any Sibling.isMark = pendingOr) :
    ∃ e' : Formula, e.lexemes ++ nodeLexemes d alternatives true pendingOr ns = e'.lexemes ∧
      ∀ ν, e'.holds ν =
        ((e.running ν).afterAll alternatives (standing (writtenTruth? d ν) passed ns)).truth := by
  induction ns generalizing e pendingOr passed with
  | nil => exact ⟨e, List.append_nil _, fun ν => (e.truth_running ν).symm⟩
  | cons n ns ih =>
    have ih := ih fun m hm => h m (List.mem_cons_of_mem _ hm)
    rw [nodeLexemes]
    by_cases hc : n.isConnective = true
    · -- a bare "or" leaves the formula as it is and raises the flag
      obtain ⟨e', he, ht⟩ := ih e true (⟨n.isConnective, n.op.isGroup, none⟩ :: passed)
        (by simp [hc])
      refine ⟨e', by rwa [if_pos hc], ?_⟩
      intro ν
      rw [ht, standing_cons_of_none (meaning_of_isConnective ν hc)]
    · rcases h n List.mem_cons_self with ⟨hn, hm⟩ | ⟨f, hn, hm⟩
      · -- a node that vanishes leaves the flag as it is, too
        obtain ⟨e', he, ht⟩ := ih e pendingOr (⟨n.isConnective, n.op.isGroup, none⟩ :: passed)
          (by simp [hc, hp])
        refine ⟨e', by rwa [if_neg hc, hn, if_pos rfl], ?_⟩
        intro ν
        rw [ht, standing_cons_of_none (hm ν)]
      · -- an operand extends the formula and lowers the flag
        obtain ⟨e', he, ht⟩ :=
          ih (e.extend (alternatives || (pendingOr && !n.op.isGroup)) f) false [] rfl
        refine ⟨e', ?_, fun ν => ?_⟩
        · rw [if_neg hc, hn, if_neg (by simp [f.lexemes_ne_nil]), if_pos rfl, ← he,
            Formula.lexemes_extend]
          simp [joining, connective]
        · rw [ht, standing_cons_of_some (hm ν), hp, Formula.running_extend, Running.afterAll,
            Running.afterAll, List.foldl_cons, Bool.and_comm pendingOr]

/-- The text of a level is a formula with its truth value, or level and text vanish. -/
def LevelSpelt (d : Dialect) (alternatives : Bool) (ns : List Node) : Prop :=
  (nodeLexemes d alternatives false false ns = [] ∧
      ∀ ν, Sibling.meaning alternatives (siblings (writtenTruth? d ν) ns) = none) ∨
    ∃ e : Formula, nodeLexemes d alternatives false false ns = e.lexemes ∧
      ∀ ν, Sibling.meaning alternatives (siblings (writtenTruth? d ν) ns) = some (e.holds ν)

theorem spelt_or_vanishes (alternatives : Bool) {ns : List Node} (h : ∀ n ∈ ns, n.Spelt d)
    (pendingOr : Bool) (passed : List Sibling) :
    (nodeLexemes d alternatives false pendingOr ns = [] ∧
        ∀ ν, standing (writtenTruth? d ν) passed ns = []) ∨
      ∃ e : Formula, nodeLexemes d alternatives false pendingOr ns = e.lexemes ∧
        ∀ ν, Standing.meaning alternatives (standing (writtenTruth? d ν) passed ns) =
          some (e.holds ν) := by
  induction ns generalizing pendingOr passed with
  | nil => exact .inl ⟨rfl, fun _ => rfl⟩
  | cons n ns ih =>
    have hs : ∀ m ∈ ns, m.Spelt d := fun m hm => h m (List.mem_cons_of_mem _ hm)
    rw [nodeLexemes]
    by_cases hc : n.isConnective = true
    · rw [if_pos hc]
      have hst : ∀ ν, standing (writtenTruth? d ν) passed (n :: ns) =
          standing (writtenTruth? d ν) (_ :: passed) ns :=
        fun ν => standing_cons_of_none (meaning_of_isConnective ν hc)
      simp only [hst]
      exact ih hs true _
    · rw [if_neg hc]
      rcases h n List.mem_cons_self with ⟨hn, hm⟩ | ⟨f, hn, hm⟩
      · rw [hn, if_pos (by rfl)]
        have hst : ∀ ν, standing (writtenTruth? d ν) passed (n :: ns) =
            standing (writtenTruth? d ν) (_ :: passed) ns :=
          fun ν => standing_cons_of_none (hm ν)
        simp only [hst]
        exact ih hs pendingOr _
      · -- nothing joins the first operand, whatever the flag says
        obtain ⟨e, he, ht⟩ := exists_formula_of_started alternatives hs (.ofFactor f) false [] rfl
        refine .inr ⟨e, ?_, fun ν => ?_⟩
        · rw [hn, if_neg (by simp [f.lexemes_ne_nil]), ← he]
          rfl
        · rw [ht, standing_cons_of_some (hm ν), Standing.meaning_cons]
          rfl

theorem levelSpelt_of_forall (alternatives : Bool) {ns : List Node}
    (h : ∀ n ∈ ns, n.Spelt d) : LevelSpelt d alternatives ns := by
  rcases spelt_or_vanishes alternatives h false [] with ⟨hn, hs⟩ | h
  · refine .inl ⟨hn, ?_⟩
    intro ν
    rw [Sibling.meaning, ← standing, hs]
    rfl
  · exact .inr h

theorem spelt_of_leaf {n : Node} (h : n.op.isGroup = false) : n.Spelt d := by
  have hm := fun ν => meaning_of_leaf (writtenTruth? d ν) h
  -- a leaf vanishes if its text is void, and else stands for itself
  by_cases hv : (n.text d).isVoid = true
  · left
    constructor
    · rw [lexemes_of_leaf h, if_pos hv]
    · intro ν
      rw [hm, writtenTruth?, if_pos hv]
  · right
    refine ⟨.leaf n (n.text d), ?_, ?_⟩
    · rw [lexemes_of_leaf h, if_neg hv]
      rfl
    · intro ν
      rw [hm, writtenTruth?, if_neg hv]
      rfl

theorem spelt_group {j : Junction} {key : String} {operand : Option Operand} {subs : List Node}
    (h : LevelSpelt d (j == .any) subs) : Spelt d ⟨.group j, key, operand, subs⟩ := by
  rcases h with ⟨hn, hm⟩ | ⟨e, he, hm⟩
  · refine .inl ⟨?_, hm⟩
    rw [lexemes_group, hn]
    rfl
  · refine .inr ⟨.group e, ?_, hm⟩
    rw [lexemes_group, he, if_neg (by simp [e.lexemes_ne_nil])]
    rfl

mutual

/-- **The text of a node is an operand with the truth value of the node.** -/
theorem spelt (d : Dialect) (n : Node) : n.Spelt d := by
  obtain ⟨op, key, operand, subs⟩ := n
  cases op with
  | group j => exact spelt_group (levelSpelt_of_forall _ (spelt_of_mem d subs))
  | _ => exact spelt_of_leaf rfl

theorem spelt_of_mem (d : Dialect) (ns : List Node) : ∀ n ∈ ns, n.Spelt d := by
  cases ns with
  | nil => simp
  | cons n ns =>
    intro m hm
    rcases List.mem_cons.1 hm with hm | hm
    · exact hm ▸ spelt d n
    · exact spelt_of_mem d ns m hm

end

/-- **The text of a level is a formula with the truth value of the level.** -/
theorem levelSpelt (d : Dialect) (alternatives : Bool) (ns : List Node) :
    LevelSpelt d alternatives ns :=
  levelSpelt_of_forall alternatives (spelt_of_mem d ns)

end Node

/-! ### Declared trees -/

namespace Fragment

@[simp] theorem isVoid_text (s : String) (f : Fragment) :
    isVoid (.text s :: f) = (s.isEmpty && isVoid f) := rfl

@[simp] theorem isVoid_argument (v : Value) (f : Fragment) :
    isVoid (.argument v :: f) = false := rfl

end Fragment

theorem isVoid_infixed (key symbol : String) (v : Value) (f : Fragment) :
    Fragment.isVoid (infixed key symbol v ++ f) = false := by
  simp [infixed]

theorem eq_nil_of_isVoid_rawPieces {chunk cs : List Char} {vs : List Value}
    (h : Fragment.isVoid (rawPieces chunk cs vs) = true) : chunk = [] ∧ cs = [] := by
  induction cs generalizing chunk vs with
  | nil => simpa [rawPieces, Fragment.isVoid] using h
  | cons c cs ih =>
    cases vs with
    | nil => exact absurd (ih h).1 (List.cons_ne_nil _ _)
    | cons v vs =>
      unfold rawPieces at h
      split at h
      · simp at h
      · exact absurd (ih h).1 (List.cons_ne_nil _ _)

namespace Node

/-- A declared leaf has a text, unless no statement shows its operator. -/
theorem Declared.writtenTruth? {n : Node} (h : n.Declared) (ν : Node → Bool)
    (hg : n.op.isGroup = false) : n.writtenTruth? d ν = n.truth? ν := by
  -- a leaf that is shown is worth something as soon as its text is not void
  have of_text : (n.text d).isVoid = false → n.writtenTruth? d ν = some (ν n) := by
    intro hv
    rw [Node.writtenTruth?, hv]
    rfl
  cases h with
  | comparison c key hv => exact of_text (isVoid_infixed key c.symbol _ [])
  | truthValue key b => exact of_text (isVoid_infixed key "=" _ [])
  | pattern p key hv => exact of_text (isVoid_infixed key _ _ _)
  | membership m key hv => exact of_text (by simp [text, leafText, ofValue, leafPieces])
  | null t key => exact of_text (by simp [text, leafText, bare, leafPieces])
  | raw args ht =>
    refine of_text (eq_false_of_ne_true ?_)
    intro hv
    have hnil := (eq_nil_of_isVoid_rawPieces hv).2
    rw [Text.isBlank, hnil] at ht
    cases ht
  | subquery body ht hq => exact of_text (by simp [text, leafText])
  | distance field hv => exact of_text (isVoid_infixed field _ _ _)
  | orMark => rfl
  | search field hv hl => rfl
  | extension hk hj => rfl
  | group j hs hc => cases hg

theorem meaning_writtenTruth? {n : Node} (h : n.Declared) (ν : Node → Bool) :
    n.meaning (Node.writtenTruth? d ν) = n.meaning (truth? ν) :=
  n.meaning_congr fun m hm hg => (h.walk n m hm).writtenTruth? ν hg

theorem levelMeaning_writtenTruth? {ns : List Node} (h : ∀ n ∈ ns, n.Declared)
    (ν : Node → Bool) (alternatives : Bool) :
    Sibling.meaning alternatives (siblings (Node.writtenTruth? d ν) ns) =
      levelMeaning ν alternatives ns := by
  refine congrArg (Sibling.meaning alternatives) (siblings_congr ns ?_)
  intro m hm hg
  exact (Declared.walkAll ns h m hm).writtenTruth? ν hg

theorem Declared.lexemes_eq_nil_iff {n : Node} (h : n.Declared) :
    n.lexemes d = [] ↔ n.vanishes = true := by
  -- any assignment tells whether a node vanishes
  have hm : ∀ ν, n.meaning (Node.writtenTruth? d ν) = none ↔ n.vanishes = true := fun ν => by
    rw [meaning_writtenTruth? h, meaning_eq_none_iff]
  rcases spelt d n with ⟨ht, hn⟩ | ⟨f, ht, hn⟩
  · exact ⟨fun _ => (hm fun _ => true).1 (hn _), fun _ => ht⟩
  · constructor
    · intro h
      exact absurd (ht ▸ h) f.lexemes_ne_nil
    · intro h
      have := (hm fun _ => true).2 h
      rw [hn] at this
      cases this

theorem declared_level (d : Dialect) (alternatives : Bool) {ns : List Node}
    (h : ∀ n ∈ ns, n.Declared) :
    (nodeLexemes d alternatives false false ns = [] ∧ allVanish ns = true) ∨
      ∃ e : Formula, nodeLexemes d alternatives false false ns = e.lexemes ∧
        allVanish ns = false ∧ ∀ ν, levelMeaning ν alternatives ns = some (e.holds ν) := by
  have hm := levelMeaning_writtenTruth? (d := d) h
  -- any assignment tells whether the level vanishes
  have hv := levelMeaning_eq_none_iff (fun _ => true) alternatives ns
  rcases levelSpelt d alternatives ns with ⟨ht, hn⟩ | ⟨e, ht, hn⟩
  · exact .inl ⟨ht, hv.1 ((hm _ alternatives).symm.trans (hn _))⟩
  · have hmeaning (ν : Node → Bool) : levelMeaning ν alternatives ns = some (e.holds ν) :=
      (hm ν alternatives).symm.trans (hn ν)
    refine .inr ⟨e, ht, eq_false_of_ne_true ?_, hmeaning⟩
    intro hall
    rw [← hv, hmeaning] at hall
    cases hall

end Node

/-- **The text of declared conditions says what they mean.**  It is empty if all of them vanish.
Otherwise it is spelt as the grammar demands: it is the SQL text of a formula, which has the truth
value of the conditions, whatever the leaves are worth.  At every depth, the nodes without text are
those that vanish. -/
theorem nodeLexemes_reads (d : Dialect) (alternatives : Bool) (criteria : List Criterion) :
    let nodes := (Criterion.addAll .empty criteria).nodes
    let text := nodeLexemes d alternatives false false nodes
    (text = [] ↔ ∀ n ∈ nodes, n.vanishes = true) ∧
    (text ≠ [] → ∃ e, Formula.read? text = some e ∧
      (∀ p n, Fragment.render p n (text.flatMap Lexeme.pieces) = e.sql p n) ∧
      ∀ ν, Node.levelMeaning ν alternatives nodes = some (e.holds ν)) ∧
    ∀ n ∈ Node.walkAll nodes, n.lexemes d = [] ↔ n.vanishes = true := by
  intro nodes text
  have hd : ∀ n ∈ nodes, n.Declared := Criterion.declared_addAll Draft.all_empty criteria
  have hw : ∀ n ∈ Node.walkAll nodes, n.lexemes d = [] ↔ n.vanishes = true :=
    fun n hn => (Node.Declared.walkAll nodes hd n hn).lexemes_eq_nil_iff
  -- the level has no text and vanishes, or a formula that means what it means
  rcases Node.declared_level d alternatives hd with ⟨ht, hv⟩ | ⟨e, ht, hv, hm⟩
  · exact ⟨⟨fun _ => Node.allVanish_iff.1 hv, fun _ => ht⟩, fun h => absurd ht h, hw⟩
  · have hne : text ≠ [] := fun h => e.lexemes_ne_nil (ht.symm.trans h)
    refine ⟨⟨fun h => absurd h hne, fun h => ?_⟩, fun _ => ⟨e, ?_, fun p n => ?_, hm⟩, hw⟩
    · rw [← Node.allVanish_iff, hv] at h
      cases h
    · exact Formula.read?_eq_some_iff.2 ht
    · exact (congrArg (fun ts => Fragment.render p n (ts.flatMap Lexeme.pieces)) ht).trans
        (Formula.render_lexemes n e)

end QueryTree
