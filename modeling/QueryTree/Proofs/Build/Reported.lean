import Mathlib.Data.List.MinMax
import QueryTree.Proofs.Build.Conditions

/-!
# The misuse that is reported

A builder keeps the first misuse in each of its parts, and the parts do not know of each other.
When a query or an update is built they are asked in a fixed order, so what is reported is the first
misuse in the part that is asked first.  That is the first misuse of all unless a part that is asked
earlier keeps a later one.

* `Keeper`, `Finding` — the parts that keep misuses, and a misuse with the part that it is kept in.
* `Clause.findings`, `Update.findings` — the misuses of a description, call by call.
* `Finding.leading?` — the one that is reported.
* `Query.reported_iff`, `Update.reported_iff` — when the first one is, and when later calls do not
  change it.
-/

namespace QueryTree

/-! ### Findings -/

/-- A part of a builder that keeps the first misuse in it. -/
inductive Keeper where
  /-- A query apart from its conditions. -/
  | outside
  /-- The conditions on the rows, of a query or an update. -/
  | conditions
  /-- The conditions on the groups. -/
  | having
  | assignments
  deriving DecidableEq

/-- The place of a part in the order in which the parts are asked. -/
def Keeper.rank : Keeper → Nat
  | outside => 0
  | conditions => 1
  | having => 2
  | assignments => 3

/-- The first misuse among what the parts keep, in the order in which they are asked. -/
def Keeper.reported? (kept : Keeper → Option Misuse) : Option Misuse :=
  (kept outside).or ((kept conditions).or ((kept having).or (kept assignments)))

theorem Keeper.reported?_of {kept : Keeper → Option Misuse} {k : Keeper} {cause : Misuse}
    (h : kept k = some cause) (hbefore : ∀ l : Keeper, l.rank < k.rank → kept l = none) :
    reported? kept = some cause := by
  cases k with
  | outside => simp [reported?, h]
  | conditions => simp [reported?, h, hbefore outside (by decide)]
  | having => simp [reported?, h, hbefore outside (by decide), hbefore conditions (by decide)]
  | assignments =>
    simp [reported?, h, hbefore outside (by decide), hbefore conditions (by decide),
      hbefore having (by decide)]

/-- A misuse with the part that it is kept in. -/
structure Finding where
  keeper : Keeper
  cause : Misuse

namespace Finding

/-- The misuse in a finding, if a part keeps it. -/
def within (f : Finding) (k : Keeper) : Option Misuse :=
  if f.keeper = k then some f.cause else none

/-- The first misuse that is kept in a part. -/
def firstIn (k : Keeper) (fs : List Finding) : Option Misuse :=
  fs.findSome? fun f => f.within k

/-- The first finding in the part that is asked first. -/
def leading? (fs : List Finding) : Option Finding :=
  fs.argmin fun f => f.keeper.rank

/-- Whether another misuse is reported once there are later findings. -/
def Overtaken (fs later : List Finding) : Prop :=
  ∃ f g, leading? fs = some f ∧ leading? later = some g ∧
    g.keeper.rank < f.keeper.rank ∧ g.cause ≠ f.cause

theorem within_self (f : Finding) : f.within f.keeper = some f.cause := if_pos rfl

theorem within_eq_none_of_lt {f : Finding} {k : Keeper} (h : k.rank < f.keeper.rank) :
    f.within k = none :=
  if_neg fun he => absurd (he ▸ h) (Nat.lt_irrefl _)

theorem firstIn_cons (k : Keeper) (f : Finding) (fs : List Finding) :
    firstIn k (f :: fs) = (f.within k).or (firstIn k fs) := by
  rw [firstIn, List.findSome?_cons]
  cases f.within k <;> rfl

theorem firstIn_toList_append (k : Keeper) (f : Option Finding) (fs : List Finding) :
    firstIn k (f.toList ++ fs) = (f.bind fun g => g.within k).or (firstIn k fs) := by
  cases f with
  | none => rfl
  | some f => exact firstIn_cons k f fs

theorem leading?_cons (f : Finding) (fs : List Finding) :
    leading? (f :: fs) =
      some ((leading? fs).elim f fun g => if g.keeper.rank < f.keeper.rank then g else f) := by
  rw [leading?, List.argmin_cons, ← leading?]
  cases leading? fs with
  | none => rfl
  | some g =>
    show (if g.keeper.rank < f.keeper.rank then some g else some f) = _
    exact (apply_ite some _ _ _).symm

/-- Among more findings the same one leads, unless one of them is in a part that is asked
earlier. -/
theorem leading?_append {fs : List Finding} {f : Finding} (h : leading? fs = some f)
    (more : List Finding) :
    leading? (fs ++ more) =
      some ((leading? more).elim f fun g => if g.keeper.rank < f.keeper.rank then g else f) := by
  induction fs generalizing f with
  | nil => cases h
  | cons a fs ih =>
    rw [leading?_cons, Option.some.injEq] at h
    rw [List.cons_append, leading?_cons]
    -- either the first finding leads alone, or it is compared with what leads the rest
    cases hfs : leading? fs with
    | none =>
      rw [hfs] at h
      obtain rfl : a = f := h
      obtain rfl : fs = [] := List.argmin_eq_none.1 hfs
      rfl
    | some b =>
      rw [hfs] at h
      rw [ih hfs]
      cases leading? more with
      | none => exact congrArg some h
      | some g =>
        simp only [Option.elim_some] at h ⊢
        subst h
        grind

/-- The leading finding is the first in its part, and the parts that are asked before it keep
nothing. -/
theorem firstIn_of_leading {fs : List Finding} {f : Finding} (h : leading? fs = some f) :
    firstIn f.keeper fs = some f.cause ∧
      ∀ k : Keeper, k.rank < f.keeper.rank → firstIn k fs = none := by
  induction fs generalizing f with
  | nil => cases h
  | cons a fs ih =>
    rw [leading?_cons, Option.some.injEq] at h
    simp only [firstIn_cons]
    cases hfs : leading? fs with
    | none =>
      rw [hfs] at h
      obtain rfl : a = f := h
      obtain rfl : fs = [] := List.argmin_eq_none.1 hfs
      refine ⟨by rw [within_self, Option.some_or], fun k hk => ?_⟩
      rw [within_eq_none_of_lt hk, Option.none_or]
      rfl
    | some b =>
      obtain ⟨hfirst, hbefore⟩ := ih hfs
      rw [hfs, Option.elim_some] at h
      -- `a` leads unless what leads the rest is in a part that is asked earlier
      split at h
      · next hlt =>
        subst h
        refine ⟨by rw [within_eq_none_of_lt hlt, Option.none_or, hfirst], fun k hk => ?_⟩
        rw [within_eq_none_of_lt (Nat.lt_trans hk hlt), Option.none_or, hbefore k hk]
      · next hle =>
        subst h
        refine ⟨by rw [within_self, Option.some_or], fun k hk => ?_⟩
        rw [within_eq_none_of_lt hk, Option.none_or]
        exact hbefore k (Nat.lt_of_lt_of_le hk (Nat.le_of_not_lt hle))

theorem reported?_of_leading {fs : List Finding} {f : Finding} (h : leading? fs = some f) :
    Keeper.reported? (fun k => firstIn k fs) = some f.cause :=
  have ⟨hfirst, hbefore⟩ := firstIn_of_leading h
  Keeper.reported?_of hfirst hbefore

/-- **What leads is the same misuse among more findings, unless it is overtaken.** -/
theorem exists_leading_append {fs : List Finding} {f : Finding} (h : leading? fs = some f)
    (more : List Finding) :
    ∃ g, leading? (fs ++ more) = some g ∧ (g.cause = f.cause ↔ ¬ Overtaken fs more) := by
  refine ⟨_, leading?_append h more, ?_⟩
  cases hmore : leading? more with
  | none => simp [Overtaken, hmore]
  | some g =>
    rw [Option.elim_some]
    split
    · next hlt => simp [Overtaken, h, hmore, hlt]
    · next hle => simp [Overtaken, h, hmore, hle]

/-- What a builder makes of a first finding, of those behind it and of still more, if it reports
the leading one and tells misuses apart. -/
theorem reports {α ε : Type} {wrap : Misuse → ε} (hwrap : Function.Injective wrap) {f : Finding}
    {fs more : List Finding} {built extended : Except ε α}
    (hb : ∀ g, leading? (f :: fs) = some g → built = .error (wrap g.cause))
    (he : ∀ g, leading? (f :: fs ++ more) = some g → extended = .error (wrap g.cause)) :
    (∃ g, leading? (f :: fs) = some g ∧ built = .error (wrap g.cause)) ∧
      (built = .error (wrap f.cause) ↔ ¬ Overtaken [f] fs) ∧
      (∃ cause, extended = .error (wrap cause)) ∧
      (extended = built ↔ ¬ Overtaken (f :: fs) more) := by
  have hf : leading? [f] = some f := rfl
  obtain ⟨g, hg, hfirst⟩ := exists_leading_append hf fs
  rw [List.singleton_append] at hg
  obtain ⟨g', hg', hmore⟩ := exists_leading_append hg more
  rw [he g' hg', hb g hg]
  simp only [Except.error.injEq, hwrap.eq_iff]
  exact ⟨⟨g, hg, rfl⟩, hfirst, ⟨g'.cause, rfl⟩, hmore⟩

end Finding

/-! ### Queries -/

theorem Criterion.misuse_add (d : Draft) (c : Criterion) :
    (Criterion.add d c).misuse = d.misuse.or c.effect.misuse? := by
  rw [add_eq_apply, Draft.misuse_apply]

/-- What a change finds to be misused. -/
def Change.finding? : Change → Option Finding
  | criterion c => c.effect.misuse?.map (⟨.conditions, ·⟩)
  | having body => (body.findSome? fun c => c.effect.misuse?).map (⟨.having, ·⟩)
  | misuse cause => some ⟨.outside, cause⟩
  | _ => none

/-- What the parts of a query in the making keep. -/
def QueryDraft.kept (d : QueryDraft) : Keeper → Option Misuse
  | .outside => d.misuse
  | .conditions => d.conditions.misuse
  | .having => d.having.misuse
  | .assignments => none

theorem QueryDraft.kept_apply (d : QueryDraft) (x : Change) (k : Keeper) :
    (d.apply x).kept k = (d.kept k).or (x.finding?.bind fun f => f.within k) := by
  cases x with
  | criterion c =>
    have hc := Criterion.misuse_add d.conditions c
    cases k <;> cases hm : c.effect.misuse? <;>
      simp [apply, kept, Change.finding?, Finding.within, hc, hm]
  | having body =>
    have hb := Criterion.misuse_addAll d.having body
    cases k <;> cases hm : (body.findSome? fun c => c.effect.misuse?) <;>
      simp [apply, kept, Change.finding?, Finding.within, hb, hm]
  | misuse cause =>
    cases k <;> cases hm : d.misuse <;>
      simp [apply, kept, Change.finding?, Finding.within, fail, hm]
  | _ => cases k <;> simp [apply, kept, Change.finding?, mapOutline, addSource]

theorem QueryDraft.finish_of_reported {d : QueryDraft} {cause : Misuse}
    (h : Keeper.reported? d.kept = some cause) : d.finish = .error cause := by
  obtain ⟨outline, sources, ⟨conditions, inConditions⟩, ⟨having, inHaving⟩, ctes, unions, misuse⟩ :=
    d
  cases misuse <;> cases inConditions <;> cases inHaving <;>
    simp_all [Keeper.reported?, kept, finish, Draft.finish, Except.bind]

namespace Clause

/-- The misuses that clauses are found to be, in the order of the calls. -/
def findings (d : QueryDraft) : List Clause → List Finding
  | [] => []
  | c :: cs => (c.change (!d.sources.isEmpty)).finding?.toList ++ findings (add d c) cs

theorem findings_append (d : QueryDraft) (cs more : List Clause) :
    findings d (cs ++ more) = findings d cs ++ findings (addAll d cs) more := by
  induction cs generalizing d with
  | nil => rfl
  | cons c cs ih => rw [List.cons_append, findings, ih, findings, addAll, List.append_assoc]

theorem kept_addAll (d : QueryDraft) (cs : List Clause) (k : Keeper) :
    (addAll d cs).kept k = (d.kept k).or (Finding.firstIn k (findings d cs)) := by
  induction cs generalizing d with
  | nil => exact Option.or_none.symm
  | cons c cs ih =>
    rw [addAll, ih, add_eq_apply, QueryDraft.kept_apply, Option.or_assoc, findings,
      Finding.firstIn_toList_append, add_eq_apply]

end Clause

namespace Query

/-- The misuses in a description, in the order of the calls. -/
def findings (clauses : List Clause) : List Finding := Clause.findings .empty clauses

/-- A query is not built for the leading misuse in its description. -/
theorem build_of_leading {clauses : List Clause} {f : Finding}
    (h : Finding.leading? (findings clauses) = some f) : build clauses = .error f.cause := by
  refine QueryDraft.finish_of_reported ?_
  rw [← Finding.reported?_of_leading h]
  congr 1
  funext k
  rw [Clause.kept_addAll, findings]
  cases k <;> exact Option.none_or

end Query

/-! ### Updates -/

/-- What is wrong with a write to a column. -/
def Write.misuse? : Write → Option Misuse
  | set column v =>
    match v.asAssignment with
    | .invalid why => some (.unusableAssignment column why)
    | _ => none
  | _ => none

theorem Assignments.misuse_assign (a : Assignments) (column : String) (x : Assigned) :
    (a.assign column x).misuse = a.misuse := by
  rw [assign]
  split <;> rfl

theorem Assignments.misuse_add (a : Assignments) (w : Write) :
    (a.add w).misuse = a.misuse.or w.misuse? := by
  cases w with
  | set column v =>
    rw [add, Write.misuse?]
    cases v.asAssignment with
    | present w => rw [misuse_assign, Option.or_none]
    | absent => rw [Option.or_none]
    | invalid why => cases h : a.misuse <;> simp
  | setNull column => exact (a.misuse_assign column .null).trans Option.or_none.symm
  | setExpression column text =>
    exact (a.misuse_assign column (.expression text)).trans Option.or_none.symm

namespace Update

/-- What a declaration about an update is found to be misused for. -/
def Clause.finding? : Clause → Option Finding
  | .write w => w.misuse?.map (⟨.assignments, ·⟩)
  | .criterion c => c.effect.misuse?.map (⟨.conditions, ·⟩)

/-- The misuses in the description of an update, in the order of the calls. -/
def findings (clauses : List Clause) : List Finding := clauses.filterMap Clause.finding?

/-- What the parts of an update in the making keep. -/
def Draft.kept (d : Draft) : Keeper → Option Misuse
  | .conditions => d.conditions.misuse
  | .assignments => d.assignments.misuse
  | _ => none

theorem Draft.kept_add (d : Draft) (c : Clause) (k : Keeper) :
    (d.add c).kept k = (d.kept k).or (c.finding?.bind fun f => f.within k) := by
  cases c with
  | write w =>
    have hw := d.assignments.misuse_add w
    cases k <;> cases hm : w.misuse? <;>
      simp [add, kept, Clause.finding?, Finding.within, hw, hm]
  | criterion c =>
    have hc := Criterion.misuse_add d.conditions c
    cases k <;> cases hm : c.effect.misuse? <;>
      simp [add, kept, Clause.finding?, Finding.within, hc, hm]

theorem Draft.kept_foldl (d : Draft) (clauses : List Clause) (k : Keeper) :
    (clauses.foldl Draft.add d).kept k = (d.kept k).or (Finding.firstIn k (findings clauses)) := by
  induction clauses generalizing d with
  | nil => exact Option.or_none.symm
  | cons c clauses ih =>
    have hc : findings (c :: clauses) = c.finding?.toList ++ findings clauses := by
      rw [findings, List.filterMap_cons]
      cases c.finding? <;> rfl
    rw [List.foldl_cons, ih, kept_add, Option.or_assoc, hc, Finding.firstIn_toList_append]

/-- An update is not built for the leading misuse in its description. -/
theorem build_of_leading {table : String} {clauses : List Clause} {f : Finding}
    (h : Finding.leading? (findings clauses) = some f) :
    build table clauses = .error (.misuse f.cause) := by
  have hr : Keeper.reported? (clauses.foldl Draft.add ⟨.empty, .empty⟩).kept = some f.cause := by
    rw [← Finding.reported?_of_leading h]
    congr 1
    funext k
    rw [Draft.kept_foldl]
    cases k <;> exact Option.none_or
  rw [build]
  generalize clauses.foldl Draft.add ⟨.empty, .empty⟩ = d at hr
  obtain ⟨⟨items, inAssignments⟩, ⟨conditions, inConditions⟩⟩ := d
  cases inAssignments <;> cases inConditions <;>
    simp_all [Keeper.reported?, Draft.kept, Assignments.finish, QueryTree.Draft.finish, ofMisuse,
      Except.bind, Except.map]

end Update

/-! ### The first misuse -/

theorem Query.reported_iff {clauses : List Clause} {f : Finding} {fs : List Finding}
    (h : findings clauses = f :: fs) (more : List Clause) :
    (∃ g, Finding.leading? (f :: fs) = some g ∧ build clauses = .error g.cause) ∧
      (build clauses = .error f.cause ↔ ¬ Finding.Overtaken [f] fs) ∧
      (∃ cause, build (clauses ++ more) = .error cause) ∧
      (build (clauses ++ more) = build clauses ↔
        ¬ Finding.Overtaken (f :: fs) (Clause.findings (Clause.addAll .empty clauses) more)) := by
  refine Finding.reports Function.injective_id (fun g hg => ?_) fun g hg => ?_
  · exact build_of_leading (h ▸ hg)
  · refine build_of_leading ?_
    rw [findings, Clause.findings_append, ← findings, h]
    exact hg

theorem Update.reported_iff (table : String) {clauses : List Clause} {f : Finding}
    {fs : List Finding} (h : findings clauses = f :: fs) (more : List Clause) :
    (∃ g, Finding.leading? (f :: fs) = some g ∧
        build table clauses = .error (.misuse g.cause)) ∧
      (build table clauses = .error (.misuse f.cause) ↔ ¬ Finding.Overtaken [f] fs) ∧
      (∃ cause, build table (clauses ++ more) = .error (.misuse cause)) ∧
      (build table (clauses ++ more) = build table clauses ↔
        ¬ Finding.Overtaken (f :: fs) (findings more)) := by
  refine Finding.reports (fun _ _ => Error.misuse.inj) (fun g hg => ?_) fun g hg => ?_
  · exact build_of_leading (h ▸ hg)
  · refine build_of_leading ?_
    -- what an update finds does not depend on what is before it
    rw [findings, List.filterMap_append, ← findings, ← findings, h]
    exact hg

/-- **The first misuse is reported unless a later one is kept in a part that is asked earlier.**
For queries and for updates in whose descriptions the misuses `f`, `fs` are found: what is reported
is the leading one of them; it is the first one unless that is overtaken by those behind it; and
further calls, which cannot undo the failure, leave what is reported unless it is overtaken by
theirs. -/
theorem first_misuse_reported_iff (f : Finding) (fs : List Finding) :
    (∀ clauses : List Clause, Query.findings clauses = f :: fs → ∀ more : List Clause,
      (∃ g, Finding.leading? (f :: fs) = some g ∧ Query.build clauses = .error g.cause) ∧
      (Query.build clauses = .error f.cause ↔ ¬ Finding.Overtaken [f] fs) ∧
      (∃ cause, Query.build (clauses ++ more) = .error cause) ∧
      (Query.build (clauses ++ more) = Query.build clauses ↔
        ¬ Finding.Overtaken (f :: fs) (Clause.findings (Clause.addAll .empty clauses) more))) ∧
    ∀ (table : String) (clauses : List Update.Clause), Update.findings clauses = f :: fs →
      ∀ more : List Update.Clause,
      (∃ g, Finding.leading? (f :: fs) = some g ∧
        Update.build table clauses = .error (.misuse g.cause)) ∧
      (Update.build table clauses = .error (.misuse f.cause) ↔ ¬ Finding.Overtaken [f] fs) ∧
      (∃ cause, Update.build table (clauses ++ more) = .error (.misuse cause)) ∧
      (Update.build table (clauses ++ more) = Update.build table clauses ↔
        ¬ Finding.Overtaken (f :: fs) (Update.findings more)) :=
  ⟨fun _ h more => Query.reported_iff h more,
    fun table _ h more => Update.reported_iff table h more⟩

/-- A required set without members comes first, but the join behind it is reported; behind an
assignment that cannot be made, the required set is. -/
theorem first_misuse_reported_iff_of_join :
    (Query.findings [.source "a", .criterion (.inRequired "id" (.list [])),
        .join .inner "b" .none] =
      [⟨.conditions, .emptyRequiredSet "id"⟩, ⟨.outside, .unconstrainedJoin .inner "b"⟩] ∧
      Update.findings [.write (.set "v" (.list [])), .criterion (.inRequired "id" (.list []))] =
        [⟨.assignments, .unusableAssignment "v" .notScalar⟩,
          ⟨.conditions, .emptyRequiredSet "id"⟩]) ∧
    (Query.build [.source "a", .criterion (.inRequired "id" (.list [])), .join .inner "b" .none] ≠
      .error (.emptyRequiredSet "id") ∧
      Update.build "t" [.write (.set "v" (.list [])),
          .criterion (.inRequired "id" (.list []))] ≠
        .error (.misuse (.unusableAssignment "v" .notScalar))) := by
  have hq : Query.findings [.source "a", .criterion (.inRequired "id" (.list [])),
      .join .inner "b" .none] =
        [⟨.conditions, .emptyRequiredSet "id"⟩, ⟨.outside, .unconstrainedJoin .inner "b"⟩] := by
    rfl
  have hu : Update.findings [.write (.set "v" (.list [])),
      .criterion (.inRequired "id" (.list []))] =
        [⟨.assignments, .unusableAssignment "v" .notScalar⟩,
          ⟨.conditions, .emptyRequiredSet "id"⟩] := by
    rfl
  obtain ⟨-, hquery, -⟩ := (first_misuse_reported_iff _ _).1 _ hq []
  obtain ⟨-, hupdate, -⟩ := (first_misuse_reported_iff _ _).2 "t" _ hu []
  refine ⟨⟨hq, hu⟩, fun h => hquery.1 h ?_, fun h => hupdate.1 h ?_⟩
  · exact ⟨_, _, rfl, rfl, by decide, by decide⟩
  · exact ⟨_, _, rfl, rfl, by decide, by decide⟩

end QueryTree
