import QueryTree.Binary.Decimal

/-!
# Layout of numbers as text

Both ways in which this library writes numbers use the fewest digits that read back; they differ
in a few decisions, gathered in one record.

* `NumberLayout` — the decisions.
* `Binary.Finite.write` — the text of a finite number under a layout.
-/

namespace QueryTree

/-- The decisions that turn digits and an exponent into text. -/
structure NumberLayout where
  /-- The exponents of the first digit that are written without an exponent part; none means all. -/
  positional : Option (Int × Int)
  /-- A whole number written without exponent part ends in a point and a zero. -/
  pointZero : Bool
  /-- Which of two equally near numerals is written. -/
  tie : Decimal.Tie
  deriving DecidableEq

namespace NumberLayout

/-- Digits only, never an exponent part; of two equally near numerals the one further from zero. -/
def plain : NumberLayout := ⟨none, false, .away⟩

end NumberLayout

namespace Decimal

/-- A decimal written without exponent part. -/
def positional (d : Decimal) (pointZero : Bool) : String :=
  let ds := Nat.toDigits 10 d.digits
  if 0 ≤ d.exponent then
    String.ofList (ds ++ List.replicate d.exponent.toNat '0') ++ (if pointZero then ".0" else "")
  else
    let places := (-d.exponent).toNat
    let ds := List.replicate (places + 1 - ds.length) '0' ++ ds
    String.ofList (ds.take (ds.length - places) ++ '.' :: ds.drop (ds.length - places))

/-- A decimal written with one digit before the point and a signed exponent part. -/
def scientific (d : Decimal) : String :=
  let ds := Nat.toDigits 10 d.digits
  let e : Int := d.exponent + ds.length - 1
  let mantissa :=
    match ds with
    | first :: second :: rest => first :: '.' :: second :: rest
    | ds => ds
  String.ofList mantissa ++ (if e < 0 then "e-" else "e+") ++ toString e.natAbs

/-- A decimal under a layout. -/
def write (layout : NumberLayout) (d : Decimal) : String :=
  let e : Int := d.exponent + digitCount d.digits - 1
  match layout.positional with
  | none => d.positional layout.pointZero
  | some (low, high) =>
    if low ≤ e ∧ e ≤ high then d.positional layout.pointZero else d.scientific

end Decimal

namespace Binary

variable {f : Format}

/-- A finite number under a layout. -/
def Finite.write (layout : NumberLayout) (x : Finite f) : String :=
  (if x.negative then "-" else "") ++ (Decimal.shortest layout.tie x).write layout

/-- Any number, in digits only where it is finite. -/
def plain : Binary f → String
  | nan => "NaN"
  | infinity negative => if negative then "-inf" else "inf"
  | finite x => x.write .plain

end Binary

end QueryTree
