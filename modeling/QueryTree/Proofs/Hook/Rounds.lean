import Mathlib.Data.List.Basic
import QueryTree.Hook

/-!
# Rounds of hooks

A build asks the registered hooks twice: once around before the query is finished and once around
after it.  Who belongs to a round is settled when the round begins, so what a hook does to the
registry counts from the next round on, and whatever the hooks do, each one is asked once and in
order, up to the first that stops the build.

* `RegistryCall.takesOut`, `RegistryCall.survivors` — the hooks that no later call has taken out
  again.
* `Conduct.Passes` — hooks that are asked one after the other and let the build go on.
* `Conduct.askAll_eq_iff` — a round ends when a hook fails, or else when all have passed.
* `Conduct.Builds` — the four ways in which a build with hooks can go.
* `Conduct.build_eq_iff` — a build goes in just one of them.
-/

namespace QueryTree

/-! ### The registry -/

section

variable {η : Type} (name : η → String)

/-- Whether a call takes a hook out of the registry. -/
def RegistryCall.takesOut (h : η) : RegistryCall η → Bool
  | register _ => false
  | unregister n => name h == n
  | clear => true

/-- The hooks that are registered by some calls and not taken out by a later one. -/
def RegistryCall.survivors : List (RegistryCall η) → List η
  | [] => []
  | .register h :: later =>
    if later.any (takesOut name h) then survivors later else h :: survivors later
  | _ :: later => survivors later

namespace RegistryCall

theorem apply_eq (hooks : List η) (call : RegistryCall η) :
    apply name hooks call =
      (hooks.filter fun h => !takesOut name h call) ++ survivors name [call] := by
  cases call with
  | register h =>
    have hkept : (hooks.filter fun g => !takesOut name g (register h)) = hooks :=
      List.filter_eq_self.2 fun _ _ => rfl
    rw [hkept]
    rfl
  | unregister n =>
    simp only [apply, withoutName, takesOut, survivors, List.append_nil]
    rfl
  | clear => simp [apply, takesOut, survivors]

theorem survivors_cons (call : RegistryCall η) (later : List (RegistryCall η)) :
    survivors name (call :: later) =
      ((survivors name [call]).filter fun h => !later.any (takesOut name h)) ++
        survivors name later := by
  cases call with
  | register h =>
    rw [survivors, survivors, List.any_nil, if_neg Bool.false_ne_true, survivors]
    cases hl : later.any (takesOut name h) <;> simp [hl]
  | _ => rfl

/-- **The registered hooks are those that no later call has taken out,** in the order of their
registration. -/
theorem applyAll_eq (hooks : List η) (calls : List (RegistryCall η)) :
    applyAll name hooks calls =
      (hooks.filter fun h => !calls.any (takesOut name h)) ++ survivors name calls := by
  induction calls generalizing hooks with
  | nil => exact ((List.append_nil _).trans (List.filter_eq_self.2 fun _ _ => rfl)).symm
  | cons call calls ih =>
    rw [applyAll, List.foldl_cons, ← applyAll, ih, apply_eq, List.filter_append,
      List.filter_filter, survivors_cons name call calls, List.append_assoc]
    -- a hook stays if neither this call nor a later one takes it out
    congr 2
    funext h
    rw [List.any_cons, Bool.not_or, Bool.and_comm]

end RegistryCall

/-- What is left has another name, and whether something is gone is whether a hook had the name. -/
theorem withoutName_keeps_others (hooks : List η) (n : String) :
    (withoutName name hooks n).Sublist hooks ∧
      (∀ h, h ∈ withoutName name hooks n ↔ h ∈ hooks ∧ name h ≠ n) ∧
      (withoutName name hooks n).length + hooks.countP (fun h => name h == n) = hooks.length ∧
      (hasName name hooks n = true ↔ (withoutName name hooks n).length ≠ hooks.length) := by
  have hcount : (withoutName name hooks n).length + hooks.countP (fun h => name h == n) =
      hooks.length := by
    rw [List.countP_eq_length_filter, Nat.add_comm]
    exact (List.length_eq_length_filter_add fun h => name h == n).symm
  refine ⟨List.filter_sublist, fun h => by simp [withoutName], hcount, ?_⟩
  have hpos : hasName name hooks n = true ↔ 0 < hooks.countP (fun h => name h == n) := by
    rw [List.countP_pos_iff, hasName, List.any_eq_true]
  rw [hpos]
  omega

end

/-! ### One round -/

namespace Conduct

variable {η σ α : Type}

/-- Some hooks are asked one after the other, each with what is recorded beside it, and none stops
the build.  They lead from what the first one was shown, and its scene, to what the last one leaves,
and its scene. -/
inductive Passes (ask : η → α → Scene η σ → Except Failure α × Scene η σ) :
    List (η × α) → α → Scene η σ → α → Scene η σ → Prop
  | nil (a : α) (s : Scene η σ) : Passes ask [] a s a s
  | cons {h : η} {asked : List (η × α)} {a b c : α} {s t u : Scene η σ}
    (hask : ask h a s = (.ok b, t)) (hrest : Passes ask asked b t c u) :
    Passes ask ((h, a) :: asked) a s c u

variable {name : η → String} {turn : η → α → Turn η}
  {ask : η → α → Scene η σ → Except Failure α × Scene η σ}

/-- Hooks that pass are asked in order, and then the others. -/
theorem Passes.askAll_append {asked : List (η × α)} {a b : α} {s t : Scene η σ}
    (h : Passes ask asked a s b t) (rest : List η) :
    askAll name turn ask (asked.map Prod.fst ++ rest) a s =
      { askAll name turn ask rest b t with
        turns := asked.map (fun x => turn x.1 x.2) ++ (askAll name turn ask rest b t).turns } := by
  induction h with
  | nil a s => rfl
  | cons hask hrest ih =>
    rw [List.map_cons, List.cons_append, askAll, hask]
    simp only [ih]
    rfl

/-- Either all hooks of a round pass, or a first one fails. -/
theorem exists_passes (ask : η → α → Scene η σ → Except Failure α × Scene η σ) (hooks : List η)
    (a : α) (s : Scene η σ) :
    (∃ asked b t, hooks = asked.map Prod.fst ∧ Passes ask asked a s b t) ∨
      ∃ asked h rest b t f u, hooks = asked.map Prod.fst ++ h :: rest ∧
        Passes ask asked a s b t ∧ ask h b t = (.error f, u) := by
  induction hooks generalizing a s with
  | nil => exact .inl ⟨[], a, s, rfl, .nil a s⟩
  | cons h rest ih =>
    -- the first hook is asked; the induction goes on with what it leaves behind
    rcases hask : ask h a s with ⟨outcome, t⟩
    cases outcome with
    | error f => exact .inr ⟨[], h, rest, a, s, f, t, rfl, .nil a s, hask⟩
    | ok b =>
      rcases ih b t with ⟨asked, c, u, rfl, hp⟩ | ⟨asked, g, after, c, u, f, v, rfl, hp, hf⟩
      · exact .inl ⟨(h, a) :: asked, c, u, rfl, .cons hask hp⟩
      · exact .inr ⟨(h, a) :: asked, g, after, c, u, f, v, rfl, .cons hask hp, hf⟩

/-- **A round asks each hook once and in order.**  It ends with the first hook that fails, whose
failure becomes the error, or else when all have passed. -/
theorem askAll_eq_iff {hooks : List η} {a : α} {s : Scene η σ} {course : Course η σ α} :
    askAll name turn ask hooks a s = course ↔
      (∃ asked b t, hooks = asked.map Prod.fst ∧ Passes ask asked a s b t ∧
        course = ⟨asked.map fun x => turn x.1 x.2, t, .ok b⟩) ∨
      ∃ asked h rest b t f u, hooks = asked.map Prod.fst ++ h :: rest ∧
        Passes ask asked a s b t ∧ ask h b t = (.error f, u) ∧
        course = ⟨asked.map (fun x => turn x.1 x.2) ++ [turn h b], u,
          .error (f.toError (name h))⟩ := by
  -- a round is determined by the hooks that pass, so each case is also sufficient
  have hall {asked : List (η × α)} {b : α} {t : Scene η σ} (hp : Passes ask asked a s b t) :
      askAll name turn ask (asked.map Prod.fst) a s =
        ⟨asked.map fun x => turn x.1 x.2, t, .ok b⟩ := by
    rw [← List.append_nil (asked.map Prod.fst), hp.askAll_append, askAll, List.append_nil]
  have hstop {asked : List (η × α)} {h : η} {rest : List η} {b : α} {t u : Scene η σ}
      {f : Failure} (hp : Passes ask asked a s b t) (hf : ask h b t = (.error f, u)) :
      askAll name turn ask (asked.map Prod.fst ++ h :: rest) a s =
        ⟨asked.map (fun x => turn x.1 x.2) ++ [turn h b], u, .error (f.toError (name h))⟩ := by
    rw [hp.askAll_append, askAll, hf]
  constructor
  · rintro rfl
    rcases exists_passes ask hooks a s with ⟨asked, b, t, rfl, hp⟩ |
      ⟨asked, h, rest, b, t, f, u, rfl, hp, hf⟩
    · exact .inl ⟨asked, b, t, rfl, hp, hall hp⟩
    · exact .inr ⟨asked, h, rest, b, t, f, u, rfl, hp, hf, hstop hp hf⟩
  · rintro (⟨asked, b, t, rfl, hp, rfl⟩ | ⟨asked, h, rest, b, t, f, u, rfl, hp, hf, rfl⟩)
    · exact hall hp
    · exact hstop hp hf

end Conduct

/-! ### Builds -/

/-- The query with other metadata. -/
def Query.withMetadata (q : Query) (m : Metadata) : Query :=
  { q with outline := { q.outline with metadata := m } }

/-- The metadata that some clauses declare. -/
def Clause.declaredMetadata (clauses : List Clause) : Metadata :=
  (Clause.addAll .empty clauses).outline.metadata

theorem QueryDraft.eliminate_withMetadata (q : Query) (m : Metadata) :
    eliminate (q.withMetadata m) = (eliminate q).withMetadata m := by
  obtain ⟨outline, sources, conditions, having, ctes, unions⟩ := q
  unfold eliminate
  by_cases h : outline.results.isEmpty = true
  · rw [if_pos h]
    exact if_pos h
  · rw [if_neg h]
    exact if_neg h

theorem QueryDraft.finish_withMetadata (d : QueryDraft) (m : Metadata) :
    (d.mapOutline fun o => { o with metadata := m }).finish =
      d.finish.map fun q => q.withMetadata m := by
  obtain ⟨outline, sources, ⟨conditions, cause⟩, ⟨having, cause'⟩, ctes, unions, misuse⟩ := d
  cases misuse with
  | some cause => rfl
  | none =>
    cases cause with
    | some cause => rfl
    | none =>
      cases cause' with
      | some cause => rfl
      | none =>
        -- the metadata plays no part in what a page needs of the order
        have horder : lacksOrder { outline with metadata := m } = lacksOrder outline := rfl
        simp only [finish, mapOutline, Draft.finish, Except.bind, horder]
        cases lacksOrder outline with
        | true => rfl
        | false => exact congrArg Except.ok (eliminate_withMetadata ⟨outline, _, _, _, _, _⟩ m)

namespace Conduct

variable {η σ : Type} (c : Conduct η σ)

/-- The ways in which a build with hooks can go, by the registry and the scene at its start. -/
inductive Builds (clauses : List Clause) (s : Scene η σ) : Course η σ Query → Prop
  /-- A hook fails before the build, and no hook behind it is asked. -/
  | stoppedBefore {asked : List (η × Metadata)} {h : η} {rest : List η} {m : Metadata}
    {t u : Scene η σ} {f : Failure} (hooks : s.registry = asked.map Prod.fst ++ h :: rest)
    (before : Passes c.before asked (Clause.declaredMetadata clauses) s m t)
    (fails : c.before h m t = (.error f, u)) :
    Builds clauses s ⟨asked.map (fun x => .before x.1 x.2) ++ [.before h m], u,
      .error (f.toError (c.name h))⟩
  /-- All hooks pass, but there is no query to be built, and no hook is asked after that. -/
  | misused {asked : List (η × Metadata)} {m : Metadata} {t : Scene η σ} {cause : Misuse}
    (hooks : s.registry = asked.map Prod.fst)
    (before : Passes c.before asked (Clause.declaredMetadata clauses) s m t)
    (fails : Query.build clauses = .error cause) :
    Builds clauses s ⟨asked.map fun x => .before x.1 x.2, t, .error (.misuse cause)⟩
  /-- The query is built, and one of the hooks that are then registered fails. -/
  | stoppedAfter {asked : List (η × Metadata)} {m : Metadata} {t : Scene η σ} {q : Query}
    {looked : List (η × Query)} {h : η} {rest : List η} {u v : Scene η σ} {f : Failure}
    (hooks : s.registry = asked.map Prod.fst)
    (before : Passes c.before asked (Clause.declaredMetadata clauses) s m t)
    (built : Query.build clauses = .ok q)
    (hooks' : t.registry = looked.map Prod.fst ++ h :: rest)
    (after : Passes c.look looked (q.withMetadata m) t (q.withMetadata m) u)
    (fails : c.after h (q.withMetadata m) u = (.error f, v)) :
    Builds clauses s ⟨asked.map (fun x => .before x.1 x.2) ++
      (looked.map (fun x => .after x.1 x.2) ++ [.after h (q.withMetadata m)]), v,
      .error (f.toError (c.name h))⟩
  /-- The query is built, and all hooks pass. -/
  | passed {asked : List (η × Metadata)} {m : Metadata} {t : Scene η σ} {q : Query}
    {looked : List (η × Query)} {u : Scene η σ} (hooks : s.registry = asked.map Prod.fst)
    (before : Passes c.before asked (Clause.declaredMetadata clauses) s m t)
    (built : Query.build clauses = .ok q) (hooks' : t.registry = looked.map Prod.fst)
    (after : Passes c.look looked (q.withMetadata m) t (q.withMetadata m) u) :
    Builds clauses s ⟨asked.map (fun x => .before x.1 x.2) ++ looked.map (fun x => .after x.1 x.2),
      u, .ok (q.withMetadata m)⟩

variable {c}

/-- Hooks that are asked after a build leave the query as it is. -/
theorem Passes.eq_of_look {looked : List (η × Query)} {q r : Query} {s t : Scene η σ}
    (h : Passes c.look looked q s r t) : r = q := by
  induction h with
  | nil q s => rfl
  | @cons h looked q q' r s t u hask hrest ih =>
    rw [ih]
    unfold look at hask
    -- what such a hook returns is only whether it fails
    cases ha : (c.after h q s).1 with
    | error f => simp [ha, Except.map] at hask
    | ok _ =>
      simp only [ha, Except.map, Prod.mk.injEq, Except.ok.injEq] at hask
      exact hask.1.symm

theorem look_eq_error_iff {h : η} {q : Query} {s t : Scene η σ} {f : Failure} :
    c.look h q s = (.error f, t) ↔ c.after h q s = (.error f, t) := by
  unfold look
  rcases c.after h q s with ⟨outcome, u⟩
  cases outcome <;> simp [Except.map]

theorem build_eq_bind (clauses : List Clause) (s : Scene η σ) :
    c.build clauses s =
      (askAll c.name .before c.before s.registry (Clause.declaredMetadata clauses) s).bind
        fun m s =>
          match (Query.build clauses).map fun q => q.withMetadata m with
          | .ok q => askAll c.name .after c.look s.registry q s
          | .error cause => ⟨[], s, .error (.misuse cause)⟩ := by
  simp only [build, QueryDraft.finish_withMetadata]
  rfl

/-- **A build goes in just one of four ways.** -/
theorem build_eq_iff {clauses : List Clause} {s : Scene η σ} {course : Course η σ Query} :
    c.build clauses s = course ↔ c.Builds clauses s course := by
  rw [build_eq_bind]
  constructor
  · rintro rfl
    rcases askAll_eq_iff.1 (Eq.refl (askAll c.name .before c.before s.registry
      (Clause.declaredMetadata clauses) s)) with
      ⟨asked, m, t, hooks, hp, hc⟩ | ⟨asked, h, rest, m, t, f, u, hooks, hp, hf, hc⟩
    · rw [hc, Course.bind]
      cases hb : Query.build clauses with
      | error cause => simpa [Except.map] using Builds.misused hooks hp hb
      | ok q =>
        simp only [Except.map]
        rcases askAll_eq_iff.1 (Eq.refl (askAll c.name .after c.look t.registry
          (q.withMetadata m) t)) with
          ⟨looked, r, u, hooks', hp', hc'⟩ | ⟨looked, h, rest, r, u, f, v, hooks', hp', hf, hc'⟩
        -- in either case the hooks of the second round have left the query as it was
        · obtain rfl := hp'.eq_of_look
          rw [hc']
          exact .passed hooks hp hb hooks' hp'
        · obtain rfl := hp'.eq_of_look
          rw [hc']
          exact .stoppedAfter hooks hp hb hooks' hp' (look_eq_error_iff.1 hf)
    · rw [hc]
      exact .stoppedBefore hooks hp hf
  · intro h
    cases h with
    | stoppedBefore hooks before fails =>
      rw [askAll_eq_iff.2 (.inr ⟨_, _, _, _, _, _, _, hooks, before, fails, rfl⟩)]
      rfl
    | misused hooks before fails =>
      rw [askAll_eq_iff.2 (.inl ⟨_, _, _, hooks, before, rfl⟩), fails]
      simp [Course.bind, Except.map]
    | stoppedAfter hooks before built hooks' after fails =>
      rw [askAll_eq_iff.2 (.inl ⟨_, _, _, hooks, before, rfl⟩), built]
      simp only [Course.bind, Except.map]
      rw [askAll_eq_iff.2 (.inr ⟨_, _, _, _, _, _, _, hooks', after,
        look_eq_error_iff.2 fails, rfl⟩)]
    | passed hooks before built hooks' after =>
      rw [askAll_eq_iff.2 (.inl ⟨_, _, _, hooks, before, rfl⟩), built]
      simp only [Course.bind, Except.map]
      rw [askAll_eq_iff.2 (.inl ⟨_, _, _, hooks', after, rfl⟩)]

/-- A hook that takes out the one behind it changes nothing in this round. -/
example :
    let quiet : Reaction Nat := .mk [] [] none
    let first : Hook Nat :=
      .mk "first" (fun m => m.set "k" "v") (fun _ => .mk [1] [.unregister "second"] none)
        fun _ => quiet
    let second : Hook Nat :=
      .mk "second" id (fun _ => .mk [2] [] (some (.query "no"))) fun _ => quiet
    let c := Registry.build [first, second] [.source "t"]
    c.notes = [1, 2] ∧ c.registry.map Hook.name = ["first"] ∧
      c.outcome = .error (.hook "second" "Query error: no") := ⟨rfl, rfl, rfl⟩

/-- **Hooks are asked once each, in order and up to the first failure, by the registry at the start
of each round.**  After any calls of the registry, a build goes in just one of four ways: a hook of
the first round fails; all pass, each with the metadata that the one before it left, but the
description is misused; a hook of the second round fails; or all pass, and the result is the query
with the metadata that the first round left.  The registry holds the hooks that no later call has
taken out.  Taking out a name leaves the hooks of other names in their order, and tells whether any
hook had the name.  A failure becomes the error of a hook, under the name of the one that failed
unless it names one itself. -/
theorem hooks_asked_once (c : Conduct η σ) (calls : List (RegistryCall η)) (state : σ)
    (clauses : List Clause) (course : Course η σ Query) :
    (c.build clauses ⟨RegistryCall.applyAll c.name [] calls, state⟩ = course ↔
      c.Builds clauses ⟨RegistryCall.survivors c.name calls, state⟩ course) ∧
    (∀ hooks n, (withoutName c.name hooks n).Sublist hooks ∧
      (∀ h, h ∈ withoutName c.name hooks n ↔ h ∈ hooks ∧ c.name h ≠ n) ∧
      (withoutName c.name hooks n).length + hooks.countP (fun h => c.name h == n) =
        hooks.length ∧
      (hasName c.name hooks n = true ↔ (withoutName c.name hooks n).length ≠ hooks.length)) ∧
    ∀ hook text, (Failure.misuse text).toError hook = .hook hook ("Misuse: " ++ text) ∧
      (Failure.query text).toError hook = .hook hook ("Query error: " ++ text) ∧
      (Failure.config text).toError hook = .hook hook ("Config error: " ++ text) ∧
      (Failure.json text).toError hook = .hook hook ("JSON error: " ++ text) ∧
      ∀ name, (Failure.hook name text).toError hook = .hook name text := by
  refine ⟨?_, withoutName_keeps_others c.name, fun hook text => ⟨rfl, rfl, rfl, rfl, fun _ => rfl⟩⟩
  have hregistry : RegistryCall.applyAll c.name [] calls = RegistryCall.survivors c.name calls := by
    rw [RegistryCall.applyAll_eq, List.filter_nil, List.nil_append]
  rw [hregistry]
  exact build_eq_iff

end Conduct

end QueryTree
