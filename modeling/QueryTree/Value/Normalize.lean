import QueryTree.Json.Printer
import QueryTree.Value.Basic

/-!
# Normalization of values

Before a value takes part in a criterion or an assignment it is brought into the form that its
role asks for.  A value that counts as not set is absent, and what is absent leaves no trace; a
value of a kind that the role cannot use is rejected.

* `Normalized` — the three outcomes.
* `Value.asScalar`, `Value.asPattern`, `Value.asMembers`, `Value.asAssignment` — the four roles.
-/

namespace QueryTree

/-- Why a value cannot take its role. -/
inductive Rejection where
  /-- An infinity or not-a-number. -/
  | nonFinite
  /-- A scalar was needed. -/
  | notScalar
  /-- A text was needed. -/
  | notText
  /-- Scalar members were needed. -/
  | notMembers
  deriving DecidableEq

/-- The wording of a rejection. -/
def Rejection.message : Rejection → String
  | nonFinite => "NaN and infinite floats have no SQL or JSON form"
  | notScalar => "scalar comparison requires a scalar value"
  | notText => "pattern match requires a text value"
  | notMembers => "set membership requires scalar members"

/-- The outcome of a normalization. -/
inductive Normalized where
  | present (v : Value)
  | absent
  | invalid (why : Rejection)

namespace Value

/-! ### Scalars and patterns -/

/-- The form that a comparison needs: a scalar that is set, a time as text. -/
def asScalar : Value → Normalized
  | time t => .present (text t.format)
  | list _ => .invalid .notScalar
  | vector _ => .invalid .notScalar
  | json _ => .invalid .notScalar
  | float x =>
    if !x.isFinite then .invalid .nonFinite
    else if x.isZero then .absent
    else .present (float x)
  | v => if v.isZero then .absent else .present v

/-- The form that a pattern match needs: a text that is not empty. -/
def asPattern : Value → Normalized
  | null => .absent
  | text s => if s.isEmpty then .absent else .present (text s)
  | _ => .invalid .notText

/-! ### Members -/

/-- What becomes of one member of a set: null and the empty text are left out, a time becomes text,
and what is no scalar is rejected.  Zero and false are members. -/
def asMember : Value → Normalized
  | null => .absent
  | text s => if s.isEmpty then .absent else .present (text s)
  | time t => .present (text t.format)
  | float x => if x.isFinite then .present (float x) else .invalid .nonFinite
  | list _ => .invalid .notMembers
  | vector _ => .invalid .notMembers
  | json _ => .invalid .notMembers
  | v => .present v

/-- The members that are kept, or the first rejection. -/
def keptMembers : List Value → Except Rejection (List Value)
  | [] => .ok []
  | v :: vs =>
    match v.asMember with
    | .invalid why => .error why
    | .absent => keptMembers vs
    | .present w => (keptMembers vs).map (w :: ·)

/-- The set of these members; without any the set is absent. -/
def ofMembers (members : List Value) : Normalized :=
  match keptMembers members with
  | .error why => .invalid why
  | .ok [] => .absent
  | .ok kept => .present (list kept)

/-- The form that set membership needs: a list of members that is not empty.  A lone scalar is a
set of one. -/
def asMembers : Value → Normalized
  | list items => ofMembers items
  | vector _ => .invalid .notMembers
  | json _ => .invalid .notMembers
  | v => ofMembers [v]

/-! ### Assignments -/

/-- The form that an assignment needs: as for a comparison, but nested structures become text and
vectors stay. -/
def asAssignment : Value → Normalized
  | json j => if j.isNull then .absent else .present (text j.render)
  | vector xs => if xs.isEmpty then .absent else .present (vector xs)
  | v => v.asScalar

end Value

end QueryTree
