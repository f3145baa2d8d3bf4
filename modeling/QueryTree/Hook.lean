import QueryTree.Build

/-!
# Hooks

Hooks watch queries being built.  Before a build each hook may revise the metadata, after it each
may look at the finished query, and at either time it may change the registry or stop the build.
A build asks the hooks that are registered when their turn comes to begin; changes made meanwhile
count from the next turn on.

* `RegistryCall` — a call that changes the registry.
* `Conduct` — what hooks do; it may depend on all that has happened before.
* `Conduct.build` — a build with the hooks around it.
* `Hook`, `Reaction` — hooks that are told what to do; they may leave notes of a type of the
  caller's.
* `Registry`, `Registry.build` — such hooks in the order of their registration, and a build with
  them.
-/

namespace QueryTree

/-! ### Failures -/

/-- Why a hook stops a build. -/
inductive Failure where
  | misuse (text : String)
  | query (text : String)
  | config (text : String)
  | json (text : String)
  /-- In the name of a hook. -/
  | hook (name message : String)
  deriving DecidableEq

/-- The error that a failure of a hook becomes: the name of the hook is added where none is
given. -/
def Failure.toError (hook : String) : Failure → Error
  | misuse text => .hook hook (Error.Kind.misuse.label ++ text)
  | query text => .hook hook (Error.Kind.query.label ++ text)
  | config text => .hook hook (Error.Kind.config.label ++ text)
  | json text => .hook hook ("JSON error: " ++ text)
  | .hook name message => .hook name message

/-! ### Changes of the registry -/

section

variable {η : Type} (name : η → String)

/-- A call that changes the registry. -/
inductive RegistryCall (η : Type) where
  | register (h : η)
  /-- Takes out all hooks of a name. -/
  | unregister (name : String)
  /-- Takes out all hooks. -/
  | clear

/-- Some hooks without those of a name. -/
def withoutName (hooks : List η) (n : String) : List η := hooks.filter fun h => name h != n

/-- Whether some hook has this name. -/
def hasName (hooks : List η) (n : String) : Bool := hooks.any fun h => name h == n

/-- The registered hooks after a call. -/
def RegistryCall.apply (hooks : List η) : RegistryCall η → List η
  | register h => hooks ++ [h]
  | unregister n => withoutName name hooks n
  | clear => []

/-- The registered hooks after some calls. -/
def RegistryCall.applyAll (hooks : List η) (calls : List (RegistryCall η)) : List η :=
  calls.foldl (apply name) hooks

end

/-! ### Conduct -/

/-- What hooks can see and change: the registered hooks, in order, and whatever else there is. -/
structure Scene (η σ : Type) where
  registry : List η
  state : σ

/-- What hooks do.  Beside the metadata or the query they are shown, it may depend on the scene; it
gives the scene that they leave. -/
structure Conduct (η σ : Type) where
  name : η → String
  /-- Before a build: the metadata as the hook leaves it, or why it stops the build. -/
  before : η → Metadata → Scene η σ → Except Failure Metadata × Scene η σ
  /-- After a build: whether the hook lets the query pass, or why it stops the build. -/
  after : η → Query → Scene η σ → Except Failure Unit × Scene η σ

/-- A hook that was asked, with what it was shown. -/
inductive Turn (η : Type) where
  | before (h : η) (m : Metadata)
  | after (h : η) (q : Query)

/-- The course of a build: the hooks that were asked, in order, the scene at the end and what came
of it. -/
structure Course (η σ α : Type) where
  turns : List (Turn η)
  scene : Scene η σ
  outcome : Except Error α

namespace Course

variable {η σ α β : Type}

/-- The registered hooks at the end. -/
def registry (c : Course η σ α) : List η := c.scene.registry

/-- Goes on with what came of it, unless the build was stopped. -/
def bind (c : Course η σ α) (f : α → Scene η σ → Course η σ β) : Course η σ β :=
  match c.outcome with
  | .ok a =>
    let next := f a c.scene
    { next with turns := c.turns ++ next.turns }
  | .error e => ⟨c.turns, c.scene, .error e⟩

end Course

namespace Conduct

variable {η σ α : Type}

/-- Asks some hooks one after the other, each with what the hooks before it left, up to the first
that fails. -/
def askAll (name : η → String) (turn : η → α → Turn η)
    (ask : η → α → Scene η σ → Except Failure α × Scene η σ) :
    List η → α → Scene η σ → Course η σ α
  | [], a, s => ⟨[], s, .ok a⟩
  | h :: rest, a, s =>
    match ask h a s with
    | (.ok b, t) =>
      let c := askAll name turn ask rest b t
      { c with turns := turn h a :: c.turns }
    | (.error f, t) => ⟨[turn h a], t, .error (f.toError (name h))⟩

variable (c : Conduct η σ)

/-- What a hook does after a build, which leaves the query as it is. -/
def look (h : η) (q : Query) (s : Scene η σ) : Except Failure Query × Scene η σ :=
  ((c.after h q s).1.map fun _ => q, (c.after h q s).2)

/-- A build with the hooks around it: those registered at its start before it, and those registered
when it is done after it. -/
def build (clauses : List Clause) (s : Scene η σ) : Course η σ Query :=
  let d := Clause.addAll .empty clauses
  (askAll c.name .before c.before s.registry d.outline.metadata s).bind fun m s =>
    match (d.mapOutline fun o => { o with metadata := m }).finish with
    | .ok q => askAll c.name .after c.look s.registry q s
    | .error cause => ⟨[], s, .error (.misuse cause)⟩

end Conduct

/-! ### Hooks that are told what to do -/

mutual

/-- A hook. -/
inductive Hook (ν : Type) where
  /-- A hook with its name, its change of the metadata, and its reactions to the metadata before a
  build and to the query after it. -/
  | mk (name : String) (revise : Metadata → Metadata) (before : Metadata → Reaction ν)
      (after : Query → Reaction ν)

/-- What a hook does beside changing the metadata: it leaves notes, then changes the registry, then
perhaps stops the build. -/
inductive Reaction (ν : Type) where
  | mk (notes : List ν) (edits : List (RegistryCall (Hook ν))) (failure : Option Failure)

end

/-- A change of the registry by a hook. -/
abbrev RegistryEdit (ν : Type) : Type := RegistryCall (Hook ν)

variable {ν : Type}

namespace Reaction

/-- Nothing is done. -/
def none : Reaction ν := mk [] [] .none

/-- The notes. -/
def notes : Reaction ν → List ν
  | mk notes _ _ => notes

/-- The changes of the registry. -/
def edits : Reaction ν → List (RegistryEdit ν)
  | mk _ edits _ => edits

/-- Why the build is stopped, if it is. -/
def failure : Reaction ν → Option Failure
  | mk _ _ failure => failure

end Reaction

namespace Hook

/-- The name. -/
def name : Hook ν → String
  | mk name _ _ _ => name

/-- The change of the metadata. -/
def revise : Hook ν → Metadata → Metadata
  | mk _ revise _ _ => revise

/-- The reaction before a build. -/
def before : Hook ν → Metadata → Reaction ν
  | mk _ _ before _ => before

/-- The reaction after a build. -/
def after : Hook ν → Query → Reaction ν
  | mk _ _ _ after => after

/-- A hook that does nothing. -/
def idle (name : String) : Hook ν := mk name id (fun _ => .none) fun _ => .none

end Hook

/-- The outcome and the scene that a reaction leaves; the scene holds the notes so far. -/
def Reaction.play {α : Type} (r : Reaction ν) (a : α) (s : Scene (Hook ν) (List ν)) :
    Except Failure α × Scene (Hook ν) (List ν) :=
  (match r.failure with
    | some f => .error f
    | .none => .ok a,
    ⟨RegistryCall.applyAll Hook.name s.registry r.edits, s.state ++ r.notes⟩)

/-- Hooks do what they are told. -/
def Hook.conduct : Conduct (Hook ν) (List ν) where
  name := Hook.name
  before h m s := (h.before m).play (h.revise m) s
  after h q s := (h.after q).play () s

/-! ### Registries -/

/-- The hooks in the order of their registration. -/
abbrev Registry (ν : Type) : Type := List (Hook ν)

namespace Registry

/-- The registry with one more hook. -/
def register (r : Registry ν) (h : Hook ν) : Registry ν :=
  RegistryCall.apply Hook.name r (.register h)

/-- The registry without the hooks of a name. -/
def unregister (r : Registry ν) (name : String) : Registry ν :=
  RegistryCall.apply Hook.name r (.unregister name)

/-- Whether a hook has this name. -/
def isRegistered (r : Registry ν) (name : String) : Bool := hasName Hook.name r name

/-- The names of the hooks, in order. -/
def names (r : Registry ν) : List String := r.map Hook.name

/-- The names as they are shown to a programmer. -/
def describe (r : Registry ν) : String :=
  "HookRegistry \x7b hooks: [" ++ ", ".intercalate (r.names.map Text.escaped) ++ "] \x7d"

/-- A build with the hooks around it. -/
def build (r : Registry ν) (clauses : List Clause) : Course (Hook ν) (List ν) Query :=
  Hook.conduct.build clauses ⟨r, []⟩

end Registry

/-- The notes of the hooks, in order. -/
def Course.notes {α : Type} (c : Course (Hook ν) (List ν) α) : List ν := c.scene.state

end QueryTree
