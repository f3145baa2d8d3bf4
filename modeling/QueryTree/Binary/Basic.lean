/-!
# Binary floating-point numbers

A format fixes how many bits a significand has and which exponents there are.  A finite number of
a format is a signed significand times a power of two, in canonical form, so that equal numbers
have equal data; besides them a format has two infinities and one not-a-number.

* `Binary.Format`, `Binary.Finite`, `Binary` — formats and their numbers.
* `Binary.round` — the number of a format nearest to a quotient of natural numbers, a tie going to
  the even significand and an overflow to an infinity.
* `Binary.convert`, `Binary.Finite.mul`, `Binary.Finite.div` — operations rounded once.
-/

namespace QueryTree

/-! ### Formats and numbers -/

/-- The shape of a binary format: the bits of a significand, and the least and greatest exponent
of its last bit. -/
structure Binary.Format where
  /-- Bits of a significand. -/
  precision : Nat
  /-- Least exponent of the last bit. -/
  minExp : Int
  /-- Greatest exponent of the last bit. -/
  maxExp : Int
  deriving DecidableEq

namespace Binary.Format

/-- The format of 32 bits. -/
def single : Format := ⟨24, -149, 104⟩

/-- The format of 64 bits. -/
def double : Format := ⟨53, -1074, 971⟩

/-- A significand and an exponent in canonical form: the exponent is the least one that the
significand's bits allow. -/
def Canonical (f : Format) (significand : Nat) (exponent : Int) : Prop :=
  significand < Nat.pow 2 f.precision ∧ f.minExp ≤ exponent ∧ exponent ≤ f.maxExp ∧
    (Nat.pow 2 (f.precision - 1) ≤ significand ∨ exponent = f.minExp)

instance (f : Format) (m : Nat) (q : Int) : Decidable (f.Canonical m q) :=
  inferInstanceAs (Decidable (_ ∧ _))

end Binary.Format

/-- A finite number of a format. -/
structure Binary.Finite (f : Binary.Format) where
  /-- The sign; zero has one too. -/
  negative : Bool
  /-- The significand, a whole number. -/
  significand : Nat
  /-- The exponent of two that the significand is scaled by. -/
  exponent : Int
  /-- The pair is in canonical form. -/
  canonical : f.Canonical significand exponent
  deriving DecidableEq

/-- A number of a binary format. -/
inductive Binary (f : Binary.Format) where
  | nan
  | infinity (negative : Bool)
  | finite (x : Binary.Finite f)
  deriving DecidableEq

/-- Numbers of 32 bits. -/
abbrev Single : Type := Binary .single

/-- Numbers of 64 bits. -/
abbrev Double : Type := Binary .double

namespace Binary

variable {f g : Format}

/-- The finite number, if it is one. -/
def finite? : Binary f → Option (Finite f)
  | finite x => some x
  | _ => none

/-- Neither infinite nor not-a-number. -/
def isFinite (x : Binary f) : Bool := x.finite?.isSome

/-- Zero of either sign. -/
def isZero : Binary f → Bool
  | finite x => x.significand == 0
  | _ => false

/-! ### Rounding -/

/-- The whole number nearest to a quotient, a tie going to the even one. -/
def nearest (num den : Nat) : Nat :=
  let low := num / den
  let rest := num % den
  if 2 * rest < den then low
  else if den < 2 * rest then low + 1
  else if low % 2 = 0 then low else low + 1

/-- A quotient divided by a power of two, again as a quotient. -/
def unscale (num den : Nat) (q : Int) : Nat × Nat :=
  (num * Nat.pow 2 (-q).toNat, den * Nat.pow 2 q.toNat)

/-- The exponent at which the whole part of a positive quotient has all bits of a significand, no
less than the least exponent of the format. -/
def exponentFor (f : Format) (num den : Nat) : Int :=
  if num = 0 then f.minExp
  else
    let q : Int := (num.log2 : Int) - den.log2 - f.precision
    let (n, d) := unscale num den q
    max f.minExp (if Nat.pow 2 f.precision ≤ n / d then q + 1 else q)

/-- The number of the format nearest to `num / den`, a tie going to the even significand; past the
greatest number it is an infinity. -/
def round (f : Format) (negative : Bool) (num den : Nat) : Binary f :=
  let q := exponentFor f num den
  let (n, d) := unscale num den q
  let m := nearest n d
  let (m, q) := if m = Nat.pow 2 f.precision then (Nat.pow 2 (f.precision - 1), q + 1) else (m, q)
  if h : f.Canonical m q then finite ⟨negative, m, q, h⟩ else infinity negative

namespace Finite

/-- Numerator of the magnitude. -/
def num (x : Finite f) : Nat := x.significand * Nat.pow 2 x.exponent.toNat

/-- Denominator of the magnitude. -/
def den (x : Finite f) : Nat := Nat.pow 2 (-x.exponent).toNat

/-- The product, rounded once. -/
def mul (x y : Finite f) : Binary f :=
  round f (x.negative != y.negative) (x.num * y.num) (x.den * y.den)

/-- The quotient by a number other than zero, rounded once. -/
def div (x y : Finite f) : Binary f :=
  round f (x.negative != y.negative) (x.num * y.den) (x.den * y.num)

end Finite

/-- The nearest number of another format. -/
def convert (g : Format) : Binary f → Binary g
  | nan => nan
  | infinity s => infinity s
  | finite x => round g x.negative x.num x.den

/-- The number nearest to a whole number. -/
def ofInt (f : Format) (n : Int) : Binary f := round f (n < 0) n.natAbs 1

end Binary

end QueryTree
