import QueryTree.Binary.Basic

/-!
# Decimal numerals

A decimal is a whole number scaled by a power of ten.  A numeral is read as the nearest number of
a format; a finite number is written with the fewest digits that read back as the same number, and
among those the nearest.

* `Decimal.toBinary` — the nearest number.
* `Decimal.shortest` — the fewest digits.  The grids of one, two, … digits are tried in turn, and on
  each of them the two neighbours of the number: if any point of a grid reads back, one of these
  two does.
* `Binary.read?` — numerals as text.
-/

namespace QueryTree

/-- A whole number scaled by a power of ten. -/
structure Decimal where
  /-- The digits, as one number. -/
  digits : Nat
  /-- The exponent of ten of the last digit. -/
  exponent : Int
  deriving DecidableEq

namespace Decimal

variable {f : Binary.Format}

/-! ### Digits -/

/-- How many decimal digits a number has; zero has one. -/
def digitCount (n : Nat) : Nat := (Nat.toDigits 10 n).length

/-- Numerator of the value. -/
def num (d : Decimal) : Nat := d.digits * Nat.pow 10 d.exponent.toNat

/-- Denominator of the value. -/
def den (d : Decimal) : Nat := Nat.pow 10 (-d.exponent).toNat

/-- Moves the zeros at the end of the digits into the exponent. -/
def stripZeros (digits : Nat) (exponent : Int) : Decimal :=
  if h : digits ≠ 0 ∧ digits % 10 = 0 then stripZeros (digits / 10) (exponent + 1)
  else ⟨digits, exponent⟩
termination_by digits
decreasing_by omega

/-- The exponent of ten of the first digit of a positive quotient. -/
def leadingExponent (num den : Nat) : Int :=
  if den ≤ num then digitCount (num / den) - 1
  else -(digitCount ((den + num - 1) / num - 1) : Int)

/-! ### Reading -/

/-- The number of the format nearest to the decimal.  A magnitude far outside the format is
settled from the number of its digits alone. -/
def toBinary (f : Binary.Format) (negative : Bool) (d : Decimal) : Binary f :=
  if d.digits = 0 then Binary.round f negative 0 1
  else
    let width : Int := digitCount d.digits
    if f.maxExp + f.precision < 3 * (width - 1 + d.exponent) then .infinity negative
    else if 3 * (width + d.exponent) < f.minExp - 1 then Binary.round f negative 0 1
    else Binary.round f negative d.num d.den

/-! ### Writing -/

/-- Which of two equally near numerals is written. -/
inductive Tie where
  /-- The one that is further from zero. -/
  | away
  /-- The one whose last digit is even. -/
  | even
  deriving DecidableEq

/-- The reals that round to a finite number, all scaled by one power of two: the number itself and
the two ends of the interval. -/
structure Interval where
  /-- The lower end. -/
  low : Nat
  /-- The number. -/
  mid : Nat
  /-- The upper end. -/
  high : Nat
  /-- The exponent of two that the three are scaled by. -/
  scale : Int
  /-- Whether the ends round to the number too. -/
  closed : Bool

/-- The reals that round to `x`: half-way to either neighbour.  The neighbour below the least
significand of an exponent is twice as near.  A tie goes to the even significand. -/
def Interval.of (x : Binary.Finite f) : Interval :=
  let m := x.significand
  let narrow := m = Nat.pow 2 (f.precision - 1) ∧ x.exponent ≠ f.minExp
  { low := 4 * m - (if narrow then 1 else 2)
    mid := 4 * m
    high := 4 * m + 2
    scale := x.exponent - 2
    closed := m % 2 == 0 }

/-- The nearest multiple of `10 ^ k` in the interval, in units of `10 ^ k`. -/
def Interval.onGrid? (i : Interval) (tie : Tie) (k : Int) : Option Nat :=
  let up := Nat.pow 2 i.scale.toNat * Nat.pow 10 (-k).toNat
  let down := Nat.pow 2 (-i.scale).toNat * Nat.pow 10 k.toNat
  let inside (a : Nat) : Bool :=
    if i.closed then i.low * up ≤ a * down && a * down ≤ i.high * up
    else i.low * up < a * down && a * down < i.high * up
  let a := i.mid * up / down
  let rest := i.mid * up % down
  match inside a, inside (a + 1) with
  | true, true =>
    if 2 * rest < down then some a
    else if down < 2 * rest then some (a + 1)
    else
      match tie with
      | .away => some (a + 1)
      | .even => if a % 2 = 0 then some a else some (a + 1)
  | true, false => some a
  | false, true => some (a + 1)
  | false, false => none

/-- The first grid from `10 ^ k` downwards, `steps` steps at most, that meets the interval. -/
def Interval.firstGrid (i : Interval) (tie : Tie) : (steps : Nat) → (k : Int) → Decimal
  | 0, k => ⟨(i.onGrid? tie k).getD 0, k⟩
  | steps + 1, k =>
    match i.onGrid? tie k with
    | some digits => ⟨digits, k⟩
    | none => i.firstGrid tie steps (k - 1)

/-- The magnitude of a finite number with the fewest digits that read back as it, and of those the
nearest.  The last grid tried contains the number itself. -/
def shortest (tie : Tie) (x : Binary.Finite f) : Decimal :=
  if x.significand = 0 then ⟨0, 0⟩
  else
    let k := leadingExponent x.num x.den
    let d := (Interval.of x).firstGrid tie (k - min x.exponent 0).toNat k
    stripZeros d.digits d.exponent

end Decimal

/-! ### Numerals as text -/

namespace Binary

/-- The digits of a text, the number of them and what follows. -/
def readDigits (value count : Nat) : List Char → Nat × Nat × List Char
  | [] => (value, count, [])
  | c :: cs =>
    if c.isDigit then readDigits (10 * value + (c.toNat - '0'.toNat)) (count + 1) cs
    else (value, count, c :: cs)

/-- The exponent at the end of a numeral; none is zero. -/
def readExponent? : List Char → Option Int
  | [] => some 0
  | c :: cs =>
    if c = 'e' ∨ c = 'E' then
      let (negative, cs) :=
        match cs with
        | '-' :: cs => (true, cs)
        | '+' :: cs => (false, cs)
        | cs => (false, cs)
      match readDigits 0 0 cs with
      | (value, _ + 1, []) => some (if negative then -(value : Int) else value)
      | _ => none
    else none

/-- An unsigned numeral: digits, perhaps a point among or beside them, perhaps an exponent. -/
def readDecimal? (cs : List Char) : Option Decimal :=
  let (whole, wholeCount, rest) := readDigits 0 0 cs
  let (value, count, fraction, rest) :=
    match rest with
    | '.' :: rest =>
      let (value, count, rest) := readDigits whole 0 rest
      (value, wholeCount + count, count, rest)
    | rest => (whole, wholeCount, 0, rest)
  if count = 0 then none
  else (readExponent? rest).map fun e => ⟨value, e - fraction⟩

/-- The number that a text stands for: a numeral, an infinity or not-a-number. -/
def read? (f : Format) (s : String) : Option (Binary f) :=
  let (negative, cs) :=
    match s.toList with
    | '-' :: cs => (true, cs)
    | '+' :: cs => (false, cs)
    | cs => (false, cs)
  let name := String.ofList (cs.map Char.toLower)
  if name = "nan" then some .nan
  else if name = "inf" ∨ name = "infinity" then some (.infinity negative)
  else (readDecimal? cs).map (Decimal.toBinary f negative)

end Binary

end QueryTree
