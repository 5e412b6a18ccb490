import FieldQuery.Number.Binary64
import FieldQuery.Text.Numeral

/-!
# The shortest decimal of a double

Among the decimals that read back as a given double this picks one with the fewest digits, and
among those the one nearest to the double. For each number of digits the two neighbours of the
value on that decimal grid are tested in exact arithmetic. Which of two equally near ones is taken,
and how the digits are laid out, is a choice of the format that uses them and is kept in a `Layout`.
-/

namespace FieldQuery.Number

open FieldQuery.Text

/-- Digits `d₁d₂…dₖ` and an exponent `e`, for the value `d₁.d₂…dₖ · 10 ^ e`. -/
structure Scientific where
  digits : List Char
  exponent : Int
deriving DecidableEq, Repr

namespace Magnitude

/-- The exponent of the leading decimal digit of a positive magnitude. Every positive double is
above `10 ^ -330`. -/
def decimalExponent (x : Magnitude) : Int :=
  (natDigits (x.numerator * tenTo 330 / x.denominator)).length - 331

/-- Whether `c · 10 ^ p` lies among the reals that round to the magnitude. The bounds are the
midpoints to the neighbouring doubles, in quarters of the unit, and belong to the interval if the
significand is even. -/
def rounds (x : Magnitude) (c : Nat) (p : Int) : Bool :=
  -- Below a power of two the doubles lie twice as close.
  let low :=
    if x.significand = twoTo 52 ∧ leastExponent < x.exponent then 4 * x.significand - 1
    else 4 * x.significand - 2
  let high := 4 * x.significand + 2
  -- both sides are multiplied out, so that only whole numbers are compared
  let unit := x.exponent - 2
  let value := c * tenTo p.toNat * twoTo (-unit).toNat
  let scaled (quarters : Nat) := quarters * twoTo unit.toNat * tenTo (-p).toNat
  if x.significand % 2 = 0 then scaled low ≤ value && value ≤ scaled high
  else scaled low < value && value < scaled high

/-- The neighbour of the magnitude on the grid of multiples of `10 ^ p` that rounds to it, if one
does; of two the nearer, a tie going as it is told. -/
def onGrid? (tie : Tie) (x : Magnitude) (p : Int) : Option Nat :=
  let n := x.numerator * tenTo (-p).toNat
  let d := x.denominator * tenTo p.toNat
  let c := n / d
  if x.rounds c p && x.rounds (c + 1) p then some (roundHalf tie n d)
  else if x.rounds c p then some c
  else if x.rounds (c + 1) p then some (c + 1)
  else none

/-- The coefficient `c · 10 ^ p` as digits without zeros at the end. -/
def normalized (c : Nat) (p : Int) : Scientific :=
  let digits := natDigits c
  ⟨(digits.reverse.dropWhile (· == '0')).reverse, p + digits.length - 1⟩

/-- The shortest decimal that rounds to the magnitude. Seventeen digits always do. -/
def shortest (tie : Tie) (x : Magnitude) : Scientific :=
  if x.isZero then ⟨['0'], 0⟩
  else
    let e := x.decimalExponent
    -- from the leading digit down, one more digit at a time
    match (List.range 17).findSome? fun (k : Nat) =>
        (x.onGrid? tie (e - k)).map fun c => (c, e - k) with
    | some (c, p) => normalized c p
    | none => normalized (x.numerator / x.denominator) 0

end Magnitude

/-! ## Layout -/

/-- How a number is written. -/
structure Layout where
  /-- Which of two shortest decimals is taken if the number is in their middle. -/
  tie : Tie
  /-- A whole number keeps a point and a zero. -/
  keepsPoint : Bool
  /-- The exponents written without an exponent part. -/
  isPositional : Int → Bool

namespace Scientific

/-- The digits with a point in its place and zeros where they are needed. -/
def positional (keepsPoint : Bool) (s : Scientific) : List Char :=
  if s.exponent < 0 then
    ['0', '.'] ++ List.replicate (-s.exponent - 1).toNat '0' ++ s.digits
  else
    let whole := s.exponent.toNat + 1
    if s.digits.length ≤ whole then
      s.digits ++ List.replicate (whole - s.digits.length) '0' ++
        (if keepsPoint then ['.', '0'] else [])
    else
      s.digits.take whole ++ '.' :: s.digits.drop whole

/-- The digits with an exponent part that has a sign and no padding. -/
def withExponent (s : Scientific) : List Char :=
  let fraction := s.digits.drop 1
  s.digits.take 1 ++ (if fraction.isEmpty then [] else '.' :: fraction) ++
    ['e', if s.exponent < 0 then '-' else '+'] ++ natDigits s.exponent.natAbs

/-- The digits in a given layout. -/
def text (layout : Layout) (s : Scientific) : List Char :=
  if layout.isPositional s.exponent then s.positional layout.keepsPoint else s.withExponent

end Scientific

/-- The shortest text of a double in a given layout. -/
def Binary64.text (layout : Layout) (x : Binary64) : String :=
  if x.isFinite then
    String.ofList ((if x.isNegative then ['-'] else []) ++ (x.magnitude.shortest layout.tie).text layout)
  else if x.isNaN then "NaN"
  else if x.isNegative then "-inf"
  else "inf"

end FieldQuery.Number
