import Mathlib.Data.List.SplitBy
import QueryTree.Query.Basic

/-!
# The meaning of condition trees

What a condition tree asks for, said without its text.  A level of the tree is a list of siblings.
Some of them vanish; the others are cut into pieces by the bare "or"s between them, and the level
asks for one of the pieces, a piece for all its members.

* `Sibling.meaning` — the truth value of a level, if anything is left of it.
* `Node.meaning` — the truth value of a node, given those of the leaves.
* `Standing.meaning_cons` — the truth value of a level, found in one pass over it.
-/

namespace QueryTree

/-! ### One level -/

/-- A node of a level, as the level sees it. -/
structure Sibling where
  /-- It is a bare "or". -/
  isMark : Bool
  isGroup : Bool
  /-- Its truth value; a node that vanishes has none. -/
  truth : Option Bool

/-- A sibling that does not vanish. -/
structure Standing where
  /-- Whether the level is cut before it. -/
  cut : Bool
  truth : Bool

/-- The siblings that do not vanish, given those that did since the last one that does not.  The
level is cut before a sibling if it is no group and there is a bare "or" among the vanished ones
directly before it. -/
def Sibling.standing (passed : List Sibling) : List Sibling → List Standing
  | [] => []
  | s :: rest =>
    match s.truth with
    | none => standing (s :: passed) rest
    | some b => ⟨!s.isGroup && passed.any Sibling.isMark, b⟩ :: standing [] rest

/-- The pieces into which a level is cut. -/
def Standing.pieces (members : List Standing) : List (List Standing) :=
  members.splitBy fun _ s => !s.cut

/-- The truth value of some members, if there are any: among alternatives one of them has to hold,
otherwise all members of one of the pieces. -/
def Standing.meaning (alternatives : Bool) (members : List Standing) : Option Bool :=
  if members.isEmpty then none
  else if alternatives then some (members.any truth)
  else some ((pieces members).any fun piece => piece.all truth)

/-- The truth value of a level; if all its nodes vanish, so does the level. -/
def Sibling.meaning (alternatives : Bool) (siblings : List Sibling) : Option Bool :=
  Standing.meaning alternatives (standing [] siblings)

/-! ### Trees -/

section

variable (leaf? : Node → Option Bool)

mutual

/-- The truth value of a node, given those of the leaves that do not vanish. -/
def Node.meaning : Node → Option Bool
  | ⟨op, key, operand, subs⟩ =>
    match op with
    | .group j => Sibling.meaning (j == .any) (siblings subs)
    | op => leaf? ⟨op, key, operand, subs⟩

/-- The nodes of a level as the level sees them. -/
def Node.siblings : List Node → List Sibling
  | [] => []
  | n :: ns => ⟨n.isConnective, n.op.isGroup, n.meaning⟩ :: siblings ns

end

end

theorem Node.eq_orMark_of_isConnective {n : Node} (h : n.isConnective = true) : n = orMark := by
  obtain ⟨op, key, operand, subs⟩ := n
  simp only [isConnective, Bool.and_eq_true, beq_iff_eq, String.isEmpty_iff,
    Option.isNone_iff_eq_none, List.isEmpty_iff] at h
  obtain ⟨⟨⟨rfl, rfl⟩, rfl⟩, rfl⟩ := h
  rfl

theorem Node.eq_orMark_of_not_hasContent {n : Node} {ns : List Node}
    (h : hasContent (n :: ns) = false) : n = orMark ∧ hasContent ns = false := by
  rw [hasContent, List.any_cons, Bool.or_eq_false_iff, Bool.not_eq_false'] at h
  exact ⟨eq_orMark_of_isConnective h.1, h.2⟩

theorem Node.meaning_of_leaf (leaf? : Node → Option Bool) {n : Node}
    (h : n.op.isGroup = false) : n.meaning leaf? = leaf? n := by
  obtain ⟨op, key, operand, subs⟩ := n
  cases op with
  | group j => cases h
  | _ => rfl

/-- What stands of a level depends on what vanished before it only by the bare "or"s there. -/
theorem Sibling.standing_congr {passed passed' : List Sibling}
    (h : passed.any isMark = passed'.any isMark) (siblings : List Sibling) :
    standing passed siblings = standing passed' siblings := by
  induction siblings generalizing passed passed' with
  | nil => rfl
  | cons s rest ih =>
    unfold standing
    cases s.truth with
    | none => exact ih (by rw [List.any_cons, List.any_cons, h])
    | some b => rw [h]

theorem Sibling.cut_of_mem_standing {passed siblings : List Sibling}
    (hp : passed.any isMark = false) (hs : siblings.any isMark = false) :
    ∀ s ∈ standing passed siblings, s.cut = false := by
  induction siblings generalizing passed with
  | nil => exact fun s h => absurd h List.not_mem_nil
  | cons s rest ih =>
    rw [List.any_cons, Bool.or_eq_false_iff] at hs
    unfold standing
    cases s.truth with
    | none => exact ih (by rw [List.any_cons, hs.1, hp]; rfl) hs.2
    | some b =>
      -- a standing node ends what was passed, so the next one looks back no further
      refine List.forall_mem_cons.2 ⟨?_, ih rfl hs.2⟩
      rw [hp, Bool.and_false]

theorem Node.any_isMark_siblings (leaf? : Node → Option Bool) (ns : List Node) :
    (siblings leaf? ns).any Sibling.isMark = ns.any isConnective := by
  induction ns with
  | nil => rfl
  | cons n ns ih => rw [siblings, List.any_cons, List.any_cons, ih]

theorem Sibling.standing_eq_nil_iff {passed siblings : List Sibling} :
    standing passed siblings = [] ↔ ∀ s ∈ siblings, s.truth = none := by
  induction siblings generalizing passed with
  | nil => simp [standing]
  | cons s rest ih =>
    unfold standing
    cases hs : s.truth with
    | none => simp [ih, hs]
    | some b => simp [hs]

theorem Sibling.meaning_eq_none_iff {alternatives : Bool} {siblings : List Sibling} :
    meaning alternatives siblings = none ↔ ∀ s ∈ siblings, s.truth = none := by
  rw [← standing_eq_nil_iff, meaning, Standing.meaning]
  split
  · next h => simpa using h
  · next h =>
    cases alternatives <;> simpa using h

namespace Node

variable {leaf? : Node → Option Bool} {passed : List Sibling} {n : Node} {ns : List Node}

/-- What stands of a level, given the siblings that vanished directly before it. -/
def standing (leaf? : Node → Option Bool) (passed : List Sibling) (ns : List Node) :
    List Standing :=
  Sibling.standing passed (siblings leaf? ns)

theorem standing_cons_of_none (h : n.meaning leaf? = none) :
    standing leaf? passed (n :: ns) =
      standing leaf? (⟨n.isConnective, n.op.isGroup, none⟩ :: passed) ns := by
  rw [standing, siblings, Sibling.standing, h]
  rfl

theorem standing_cons_of_some {b : Bool} (h : n.meaning leaf? = some b) :
    standing leaf? passed (n :: ns) =
      ⟨!n.op.isGroup && passed.any Sibling.isMark, b⟩ :: standing leaf? [] ns := by
  rw [standing, siblings, Sibling.standing, h]
  rfl

end Node

/-! ### Leaves that matter -/

section

variable {f g : Node → Option Bool}

mutual

theorem Node.meaning_congr (n : Node) (h : ∀ m ∈ n.walk, m.op.isGroup = false → f m = g m) :
    n.meaning f = n.meaning g := by
  obtain ⟨op, key, operand, subs⟩ := n
  cases op with
  | group j =>
    have hs := Node.siblings_congr subs fun m hm => h m (List.mem_cons_of_mem _ hm)
    exact congrArg (Sibling.meaning (j == .any)) hs
  | _ => exact h _ List.mem_cons_self rfl

theorem Node.siblings_congr (ns : List Node)
    (h : ∀ m ∈ walkAll ns, m.op.isGroup = false → f m = g m) :
    siblings f ns = siblings g ns := by
  cases ns with
  | nil => rfl
  | cons n ns =>
    have hn := Node.meaning_congr n fun m hm => h m (List.mem_append_left _ hm)
    have hs := Node.siblings_congr ns fun m hm => h m (List.mem_append_right _ hm)
    rw [siblings, siblings, hn, hs]

end

end

/-! ### Trees for statements -/

section

variable (ν : Node → Bool)

/-- The truth value of a leaf in a statement.  A bare "or", a similarity search and an extension
have none. -/
def Node.truth? (n : Node) : Option Bool :=
  match n.op with
  | .orMark => none
  | .search => none
  | .extension => none
  | _ => some (ν n)

/-- The truth value of a level in a statement. -/
def Node.levelMeaning (alternatives : Bool) (ns : List Node) : Option Bool :=
  Sibling.meaning alternatives (siblings (truth? ν) ns)

end

mutual

/-- A node that leaves nothing in a statement: a bare "or", a similarity search, an extension, or a
group of nodes that leave nothing. -/
def Node.vanishes : Node → Bool
  | ⟨op, _, _, subs⟩ =>
    match op with
    | .orMark => true
    | .search => true
    | .extension => true
    | .group _ => allVanish subs
    | _ => false

/-- All of some nodes leave nothing. -/
def Node.allVanish : List Node → Bool
  | [] => true
  | n :: ns => n.vanishes && allVanish ns

end

theorem Node.allVanish_iff {ns : List Node} :
    allVanish ns = true ↔ ∀ n ∈ ns, n.vanishes = true := by
  induction ns with
  | nil => simp [allVanish]
  | cons n ns ih => simp [allVanish, ih]

mutual

theorem Node.meaning_eq_none_iff (ν : Node → Bool) (n : Node) :
    n.meaning (truth? ν) = none ↔ n.vanishes = true := by
  obtain ⟨op, key, operand, subs⟩ := n
  cases op with
  | group j => exact Node.levelMeaning_eq_none_iff ν (j == .any) subs
  | _ => simp [meaning, truth?, vanishes]

theorem Node.levelMeaning_eq_none_iff (ν : Node → Bool) (alternatives : Bool) (ns : List Node) :
    levelMeaning ν alternatives ns = none ↔ allVanish ns = true := by
  cases ns with
  | nil => simp [levelMeaning, siblings, Sibling.meaning, Sibling.standing, Standing.meaning,
      allVanish]
  | cons n ns =>
    have hn := Node.meaning_eq_none_iff ν n
    -- a level means nothing if no sibling of it does, group or leaf
    have hs := Node.levelMeaning_eq_none_iff ν alternatives ns
    rw [levelMeaning, Sibling.meaning_eq_none_iff] at hs ⊢
    rw [siblings, allVanish, Bool.and_eq_true, List.forall_mem_cons, hn, hs]

end

/-! ### One pass -/

/-- What is known of a level while it is read from left to right. -/
structure Running where
  /-- Whether one of the closed pieces holds. -/
  earlier : Bool
  /-- Whether the open piece holds so far. -/
  current : Bool

namespace Running

/-- The truth value if nothing follows. -/
def truth (r : Running) : Bool := r.earlier || r.current

/-- The state behind a further operand, which starts a piece or continues the open one. -/
def next (cut b : Bool) (r : Running) : Running :=
  if cut then ⟨r.truth, b⟩ else ⟨r.earlier, r.current && b⟩

/-- The state behind further members of a level. -/
def afterAll (alternatives : Bool) (r : Running) (members : List Standing) : Running :=
  members.foldl (fun r s => r.next (alternatives || s.cut) s.truth) r

theorem truth_next_true (b : Bool) (r : Running) : (r.next true b).truth = (r.truth || b) := rfl

theorem truth_afterAll_true (r : Running) (members : List Standing) :
    (r.afterAll true members).truth = (r.truth || members.any Standing.truth) := by
  induction members generalizing r with
  | nil => simp [afterAll]
  | cons s members ih =>
    have := ih (r.next true s.truth)
    simp only [afterAll, List.foldl_cons, Bool.true_or] at this ⊢
    rw [this, truth_next_true, List.any_cons, Bool.or_assoc]

theorem afterAll_of_not_cut (r : Running) {members : List Standing}
    (h : ∀ s ∈ members, s.cut = false) :
    r.afterAll false members = ⟨r.earlier, r.current && members.all Standing.truth⟩ := by
  induction members generalizing r with
  | nil => simp [afterAll]
  | cons s members ih =>
    obtain ⟨hs, hm⟩ := List.forall_mem_cons.1 h
    rw [afterAll, List.foldl_cons, ← afterAll, ih _ hm]
    simp [next, hs, Bool.and_assoc]

/-- The pieces of a level hold as the state says in which one pass over it ends. -/
theorem any_all_loop (members : List Standing) (s : Standing) (piece : List Standing)
    (done : List (List Standing)) :
    ((List.splitBy.loop (fun _ s => !s.cut) members s piece done).any fun p =>
        p.all Standing.truth) =
      (afterAll false ⟨done.any fun p => p.all Standing.truth, (s :: piece).all Standing.truth⟩
        members).truth := by
  -- the open piece is `s :: piece` and the closed ones are `done`, both in reverse
  induction members generalizing s piece done with
  | nil => simp [List.splitBy.loop, afterAll, truth, Bool.or_comm, Bool.and_comm]
  | cons m members ih =>
    rw [List.splitBy.loop]
    cases hm : m.cut with
    | true =>
      simp only [Bool.not_true, ih]
      simp [afterAll, next, truth, hm, Bool.or_comm, Bool.and_comm]
    | false =>
      simp only [Bool.not_false, ih]
      simp [afterAll, next, hm, Bool.and_comm]

end Running

theorem Standing.meaning_cons (alternatives : Bool) (s : Standing) (members : List Standing) :
    meaning alternatives (s :: members) =
      some (Running.afterAll alternatives ⟨false, s.truth⟩ members).truth := by
  rw [meaning, if_neg (by simp)]
  cases alternatives with
  | true =>
    rw [if_pos rfl, Running.truth_afterAll_true, List.any_cons]
    rfl
  -- the first piece starts at `s`, cut or not, so the pass starts inside it
  | false =>
    rw [if_neg Bool.false_ne_true, pieces, List.splitBy, Running.any_all_loop]
    simp

/-- A level that is nowhere cut asks for all its members. -/
theorem Standing.getD_meaning_of_not_cut {members : List Standing}
    (h : ∀ s ∈ members, s.cut = false) :
    (meaning false members).getD true = members.all truth := by
  cases members with
  | nil => rfl
  | cons s members =>
    rw [meaning_cons, Running.afterAll_of_not_cut _ (List.forall_mem_cons.1 h).2]
    simp [Running.truth]

end QueryTree
