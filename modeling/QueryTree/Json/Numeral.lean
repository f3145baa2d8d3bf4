import QueryTree.Binary.Decimal
import QueryTree.Json.Basic

/-!
# Numerals of JSON text

A numeral without fraction and exponent is a whole number if it fits in 64 bits.  Every other
numeral is a floating-point number, computed in two steps that each round: as many digits as fit in
a word are taken as a whole number, and that number is multiplied or divided by a power of ten.

* `Numeral.ofChars?` — the grammar of numerals.
* `Numeral.value?` — the value, unless it is out of range.
-/

namespace QueryTree

/-- A numeral as it is written. -/
structure Numeral where
  negative : Bool
  /-- The digits in front of the point. -/
  whole : List Nat
  /-- The digits behind the point; none without a point. -/
  fraction : List Nat
  /-- The sign and the digits of the exponent. -/
  exponent : Option (Bool × List Nat)

namespace Numeral

/-! ### Grammar -/

/-- The digits at the start of a text, and what follows. -/
def takeDigits (cs : List Char) : List Nat × List Char :=
  ((cs.takeWhile Char.isDigit).map fun c => c.toNat - '0'.toNat, cs.dropWhile Char.isDigit)

/-- The part of a numeral from its exponent on. -/
def exponentOf? : List Char → Option (Option (Bool × List Nat))
  | [] => some none
  | c :: cs =>
    if c = 'e' ∨ c = 'E' then
      let (negative, cs) :=
        match cs with
        | '-' :: cs => (true, cs)
        | '+' :: cs => (false, cs)
        | cs => (false, cs)
      match takeDigits cs with
      | (d :: ds, []) => some (some (negative, d :: ds))
      | _ => none
    else none

/-- The part of a numeral behind its sign.  A leading zero stands alone, and digits stand on both
sides of a point. -/
def unsigned? (negative : Bool) (cs : List Char) : Option Numeral :=
  let (whole, rest) := takeDigits cs
  if whole.isEmpty || (whole.head? == some 0 && whole.length != 1) then none
  else
    match rest with
    | '.' :: rest =>
      let (fraction, rest) := takeDigits rest
      if fraction.isEmpty then none
      else (exponentOf? rest).map fun e => ⟨negative, whole, fraction, e⟩
    | rest => (exponentOf? rest).map fun e => ⟨negative, whole, [], e⟩

/-- The numeral that a word is, if it is one. -/
def ofChars? : List Char → Option Numeral
  | '-' :: cs => unsigned? true cs
  | cs => unsigned? false cs

/-- The number that some digits are. -/
def ofDigits (ds : List Nat) : Nat := ds.foldl (fun n d => 10 * n + d) 0

/-! ### Significands -/

/-- Digits taken into a word, and the power of ten that it is still to be scaled by. -/
structure Significand where
  value : Nat
  scale : Int

/-- Takes the digits in front of the point.  From the first digit on that does not fit, digits only
scale. -/
def takeWhole : (value : Nat) → List Nat → Significand
  | value, [] => ⟨value, 0⟩
  | value, d :: ds =>
    if 10 * value + d < UInt64.size then takeWhole (10 * value + d) ds
    else ⟨value, (ds.length + 1 : Nat)⟩

/-- Takes the digits behind the point, up to the first one that does not fit. -/
def takeFraction (s : Significand) : List Nat → Significand
  | [] => s
  | d :: ds =>
    if 10 * s.value + d < UInt64.size then takeFraction ⟨10 * s.value + d, s.scale - 1⟩ ds else s

/-! ### Values -/

/-- A power of ten as a floating-point number. -/
def powerOfTen (k : Nat) : Double := Decimal.toBinary .double false ⟨1, k⟩

/-- A number divided by a power of ten that has a floating-point number. -/
def divide (x : Double) (k : Nat) : Double :=
  match x, powerOfTen k with
  | .finite x, .finite p => x.div p
  | x, _ => x

/-- A number multiplied by a power of ten that has a floating-point number. -/
def multiply (x : Double) (k : Nat) : Double :=
  match x, powerOfTen k with
  | .finite x, .finite p => x.mul p
  | x, _ => x

/-- A number divided by the greatest power of ten as often as it takes to bring the exponent into
range; `steps` bounds how often that is. -/
def divideFar (x : Double) (k : Nat) : (steps : Nat) → Double
  | 0 => divide x k
  | steps + 1 =>
    if k ≤ 308 then divide x k
    else if x.isZero then x
    else divideFar (divide x 308) (k - 308) steps

/-- A significand scaled by its power of ten, unless the result is out of range. -/
def scaled? (s : Significand) : Option (Binary.Finite .double) :=
  let x := Binary.round .double false s.value 1
  if s.scale < 0 then (divideFar x s.scale.natAbs (s.scale.natAbs / 308)).finite?
  else if s.scale ≤ 308 then (multiply x s.scale.toNat).finite?
  else if x.isZero then x.finite?
  else none

/-- The greatest exponent that is taken at its value. -/
def maxExponent : Nat := 2147483647

/-- A significand under an exponent, unless the result is out of range.  An exponent that is too
large to be taken at its value leaves zero if it is negative or the digits are zero. -/
def withExponent? (s : Significand) : Option (Bool × List Nat) → Option (Binary.Finite .double)
  | none => scaled? s
  | some (negative, digits) =>
    let e := ofDigits digits
    if maxExponent < e then
      if negative || s.value == 0 then (Binary.round .double false 0 1).finite? else none
    else if negative then scaled? ⟨s.value, s.scale - e⟩
    else scaled? ⟨s.value, s.scale + e⟩

/-- The number with a sign in front. -/
def signed (negative : Bool) (x : Binary.Finite .double) : Binary.Finite .double :=
  { x with negative := negative }

/-- The whole number that a numeral is, if it has neither fraction nor exponent and fits in 64 bits;
a zero with a sign is none. -/
def integer? (n : Numeral) : Option Json.Integer :=
  let value := ofDigits n.whole
  if n.fraction.isEmpty && n.exponent.isNone then
    if n.negative then
      if h : 0 < value ∧ value ≤ 9223372036854775808 then some ⟨-value, by omega, by omega⟩
      else none
    else if h : value < 18446744073709551616 then some ⟨value, by omega, by omega⟩
    else none
  else none

/-- The value of a numeral, unless it is out of range. -/
def value? (n : Numeral) : Option Json :=
  match n.integer? with
  | some i => some (.integer i)
  | none =>
    (withExponent? (takeFraction (takeWhole 0 n.whole) n.fraction) n.exponent).map fun x =>
      .float (signed n.negative x)

end Numeral

end QueryTree
