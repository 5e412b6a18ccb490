import FieldQuery.Number.Power
import FieldQuery.Number.Rounding

/-!
# Double-precision numbers

A double is kept by its 64 bits. Its arithmetic is exact arithmetic followed by one rounding: a
magnitude is a whole number of units of a power of two, the result of an operation is a quotient
of natural numbers, and `Magnitude.nearest` is the only place where precision is lost.
-/

namespace FieldQuery.Number

/-! ## Magnitudes -/

/-- The size of a finite double: `significand · 2 ^ exponent`. -/
structure Magnitude where
  significand : Nat
  exponent : Int
deriving DecidableEq, Repr

namespace Magnitude

/-- The value as a quotient: its numerator. -/
def numerator (x : Magnitude) : Nat :=
  x.significand * twoTo x.exponent.toNat

/-- The value as a quotient: its denominator. -/
def denominator (x : Magnitude) : Nat :=
  twoTo (-x.exponent).toNat

/-- The exponent of the least unit of a double. -/
def leastExponent : Int := -1074

/-- The unit in which a positive quotient has 53 binary digits, but never below the least unit. -/
def unitExponent (n d : Nat) : Int :=
  -- the lengths in binary leave two exponents open, and the quotient decides between them
  let e : Int := (n.log2 : Int) - (d.log2 : Int) - 52
  let fits := twoTo 52 * d * twoTo e.toNat ≤ n * twoTo (-e).toNat
  max (if fits then e else e - 1) leastExponent

/-- The double nearest to `n / d`, a tie going to the even significand. The exponent has no upper
bound here. -/
def nearest (n d : Nat) : Magnitude :=
  if n = 0 then ⟨0, leastExponent⟩
  else
    let e := unitExponent n d
    let m := roundHalfEven (n * twoTo (-e).toNat) (d * twoTo e.toNat)
    -- Rounding up may carry into a 54th binary digit.
    if m = twoTo 53 then ⟨twoTo 52, e + 1⟩ else ⟨m, e⟩

/-- The double nearest to a natural number. -/
def ofNat (n : Nat) : Magnitude :=
  nearest n 1

/-- The rounded sum. -/
def add (x y : Magnitude) : Magnitude :=
  nearest (x.numerator * y.denominator + y.numerator * x.denominator)
    (x.denominator * y.denominator)

/-- The rounded product. -/
def mul (x y : Magnitude) : Magnitude :=
  nearest (x.numerator * y.numerator) (x.denominator * y.denominator)

/-- The rounded quotient, for a positive divisor. -/
def div (x y : Magnitude) : Magnitude :=
  nearest (x.numerator * y.denominator) (x.denominator * y.numerator)

/-- The nearest whole number, a tie going up, as a double. -/
def round (x : Magnitude) : Magnitude :=
  ofNat (roundHalfUp x.numerator x.denominator)

/-- The product of `result` and the powers of `base` that the binary digits of `n` select, each
squaring and each product rounded. At most `steps` digits are read. -/
def powFrom (steps : Nat) (result base : Magnitude) (n : Nat) : Magnitude :=
  match steps with
  | 0 => result
  | s + 1 =>
    if n = 0 then result
    else powFrom s (if n % 2 = 1 then result.mul base else result) (base.mul base) (n / 2)

/-- A power by repeated squaring with rounded products. -/
def pow (x : Magnitude) (n : Nat) : Magnitude :=
  powFrom (n.log2 + 1) (ofNat 1) x n

/-- Whether the value is zero. -/
def isZero (x : Magnitude) : Bool :=
  x.significand == 0

/-- The whole part. -/
def floor (x : Magnitude) : Nat :=
  x.numerator / x.denominator

end Magnitude

/-! ## Bit patterns -/

/-- A double, by its bits: sign, eleven bits of exponent, 52 bits of fraction. -/
structure Binary64 where
  bits : UInt64
deriving DecidableEq, Repr

namespace Binary64

/-- The eleven bits of exponent. -/
def exponentBits (x : Binary64) : Nat :=
  x.bits.toNat / twoTo 52 % 2048

/-- The 52 bits of fraction. -/
def fractionBits (x : Binary64) : Nat :=
  x.bits.toNat % twoTo 52

/-- Whether the sign bit is set. -/
def isNegative (x : Binary64) : Bool :=
  twoTo 63 ≤ x.bits.toNat

/-- Whether the bits stand for a number. -/
def isFinite (x : Binary64) : Bool :=
  x.exponentBits != 2047

/-- Whether the bits stand for no number and no infinity. -/
def isNaN (x : Binary64) : Bool :=
  x.exponentBits == 2047 && x.fractionBits != 0

/-- The size of a finite double. -/
def magnitude (x : Binary64) : Magnitude :=
  -- the least doubles have no leading one before their fraction
  if x.exponentBits = 0 then ⟨x.fractionBits, Magnitude.leastExponent⟩
  else ⟨twoTo 52 + x.fractionBits, (x.exponentBits : Int) - 1075⟩

/-- The bits of a sign and a rounded magnitude; beyond the largest double this is an infinity. -/
def ofMagnitude (negative : Bool) (x : Magnitude) : Binary64 :=
  let sign := if negative then twoTo 63 else 0
  let body :=
    -- a significand without its leading one has the exponent bits zero
    if x.significand < twoTo 52 then x.significand
    else if 971 < x.exponent then 2047 * twoTo 52
    else (x.exponent + 1075).toNat * twoTo 52 + (x.significand - twoTo 52)
  ⟨UInt64.ofNat (sign + body)⟩

/-- What stands for no number. -/
def notANumber : Binary64 :=
  ⟨UInt64.ofNat (4095 * twoTo 51)⟩

/-- The infinity of a sign. -/
def infinity (negative : Bool) : Binary64 :=
  ⟨UInt64.ofNat ((if negative then twoTo 63 else 0) + 2047 * twoTo 52)⟩

/-- The double nearest to an integer. -/
def ofInt (n : Int) : Binary64 :=
  ofMagnitude (n < 0) (Magnitude.ofNat n.natAbs)

/-- Whether a double differs from zero. -/
def isNonzero (x : Binary64) : Bool :=
  x.exponentBits != 0 || x.fractionBits != 0

/-- The rounded product. With an infinity it is one, but there is none of an infinity and zero. -/
def mul (x y : Binary64) : Binary64 :=
  let negative := x.isNegative != y.isNegative
  if x.isNaN || y.isNaN then notANumber
  else if x.isFinite && y.isFinite then ofMagnitude negative (x.magnitude.mul y.magnitude)
  else if x.isNonzero && y.isNonzero then infinity negative
  else notANumber

/-- The product of `result` and the powers of `base` that the binary digits of `n` select, each
squaring and each product rounded. At most `steps` digits are read. -/
def powFrom (steps : Nat) (result base : Binary64) (n : Nat) : Binary64 :=
  match steps with
  | 0 => result
  | s + 1 =>
    if n = 0 then result
    else powFrom s (if n % 2 = 1 then result.mul base else result) (base.mul base) (n / 2)

/-- A power by repeated squaring with rounded products. -/
def pow (x : Binary64) (n : Nat) : Binary64 :=
  powFrom (n.log2 + 1) (ofInt 1) x n

/-- The 64-bit integer nearest to an integer: the ends of the range stand for all beyond them. -/
def clamp (n : Int) : Int64 :=
  if n < Int64.minValue.toInt then Int64.minValue
  else if Int64.maxValue.toInt < n then Int64.maxValue
  else Int64.ofInt n

/-- An integer with the sign of a double. -/
def signed (x : Binary64) (n : Nat) : Int :=
  if x.isNegative then -(n : Int) else n

/-- Whether the value is a given integer. -/
def isInt (x : Binary64) (n : Int) : Bool :=
  x.isFinite && x.signed x.magnitude.numerator == n * x.magnitude.denominator

/-- A finite double without its fraction, kept within the 64-bit range. -/
def truncated (x : Binary64) : Int64 :=
  clamp (x.signed x.magnitude.floor)

/-- The whole number nearest to a finite double, a tie going away from zero, kept within the 64-bit
range. -/
def rounded (x : Binary64) : Int64 :=
  clamp (x.signed (roundHalfUp x.magnitude.numerator x.magnitude.denominator))

end Binary64

end FieldQuery.Number
