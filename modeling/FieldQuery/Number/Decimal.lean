import FieldQuery.Number.Binary64
import FieldQuery.Text.Numeral

/-!
# Decimal numbers

A decimal has a sign, a mantissa of 96 bits and a scale of at most 28 places, and its value is
`± mantissa / 10 ^ scale`. Zero carries no minus sign. A result that needs more room is shortened:
it loses as few places as make it fit, the last place kept is rounded to the nearest and a tie goes
to the even digit. A result whose whole part does not fit is refused.
-/

namespace FieldQuery.Number

open FieldQuery.Text

/-- A decimal number with its number of places. -/
structure Decimal where
  negative : Bool
  mantissa : Nat
  scale : Nat
  mantissa_lt : mantissa < 0x1000000000000000000000000 := by omega
  scale_le : scale ≤ 28 := by omega
deriving DecidableEq, Repr

/-- Why a text is not read as a decimal. -/
inductive DecimalFault where
  | empty
  | noDigits
  | secondPoint
  | leadingSeparator
  | unknownCharacter
  | tooManyDigits
  | roundedBeyondRange
deriving DecidableEq, Repr

/-- The wording of a fault. -/
def DecimalFault.message : DecimalFault → String
  | .empty => "Invalid decimal: empty"
  | .noDigits => "Invalid decimal: no digits found"
  | .secondPoint => "Invalid decimal: two decimal points"
  | .leadingSeparator => "Invalid decimal: must start lead with a number"
  | .unknownCharacter => "Invalid decimal: unknown character"
  | .tooManyDigits => "Invalid decimal: overflow from too many digits"
  | .roundedBeyondRange => "Invalid decimal: overflow from mantissa after rounding"

namespace Decimal

/-! ## Construction -/

/-- The decimal of a sign, a mantissa and a scale that fit; zero loses its sign. -/
def make (negative : Bool) (mantissa scale : Nat) (hm : mantissa < 0x1000000000000000000000000)
    (hs : scale ≤ 28) : Decimal :=
  ⟨negative && mantissa != 0, mantissa, scale, hm, hs⟩

/-- The decimal of a natural number that fits. -/
def ofNat (n : Nat) (h : n < 0x1000000000000000000000000 := by decide) : Decimal :=
  make false n 0 h (by omega)

/-- Zero without places. -/
def zero : Decimal := ofNat 0

/-- One without places. -/
def one : Decimal := ofNat 1

/-- One hundred without places. -/
def oneHundred : Decimal := ofNat 100

instance : Inhabited Decimal := ⟨zero⟩

/-- The decimal with the opposite sign. -/
def neg (d : Decimal) : Decimal :=
  make (!d.negative) d.mantissa d.scale d.mantissa_lt d.scale_le

/-! ## Reading -/

/-- What a character is refused for where no digit is expected to be missing. -/
def faultOf (c : Char) : DecimalFault :=
  if c = '.' then .secondPoint else if c = '_' then .leadingSeparator else .unknownCharacter

/-- The remaining characters of a number whose places are used up: digits and separators. -/
def checkDropped : List Char → Except DecimalFault Unit
  | [] => .ok ()
  | c :: rest => if c.isDigit || c = '_' then checkDropped rest else .error (faultOf c)

/-- Rounds a number on the first digit that finds no room, half up. If that leaves the range of
mantissas, one more place is given up. -/
def roundAt (d : Decimal) (c : Char) : Except DecimalFault Decimal :=
  if c.isDigit then
    if c.toNat < '5'.toNat then .ok d
    else if h : d.mantissa + 1 < 0x1000000000000000000000000 then
      .ok (make d.negative (d.mantissa + 1) d.scale h d.scale_le)
    else if d.scale = 0 then .error .roundedBeyondRange
    else
      .ok (make d.negative ((d.mantissa + 5) / 10) (d.scale - 1)
        (by have := d.mantissa_lt; omega) (by have := d.scale_le; omega))
  else .error (faultOf c)

/-- Closes a number that has no room for another digit. It is rounded on the next digit, separators
before that digit being passed over, and what comes after only has to be digits or separators. -/
def closeAt (d : Decimal) : List Char → Except DecimalFault Decimal
  | [] => .ok d
  | c :: rest =>
    if c = '_' then closeAt d rest
    else do
      let closed ← roundAt d c
      checkDropped rest
      pure closed

/-- A number with one more digit, which counts as a place after a point. -/
def withDigit (d : Decimal) (point : Bool) (mantissa : Nat)
    (hm : mantissa < 0x1000000000000000000000000) (hs : d.scale ≠ 28) : Decimal :=
  { negative := d.negative, mantissa, mantissa_lt := hm,
    scale := d.scale + point.toNat,
    scale_le := by have := d.scale_le; cases point <;> simp <;> omega }

/-- Reads digits, one point and separators after `d`. `point` and `digits` tell whether a point and
a digit have been seen. No sign is read, and `d` has none. -/
def readFrom (d : Decimal) (point digits : Bool) : List Char → Except DecimalFault Decimal
  | [] =>
    if digits then .ok d else .error .noDigits
  | c :: rest =>
    -- All places are taken.
    if hs : d.scale = 28 then closeAt d (c :: rest)
    else if c.isDigit then
      if h : d.mantissa * 10 + (c.toNat - '0'.toNat) < 0x1000000000000000000000000 then
        readFrom (d.withDigit point _ h hs) point true rest
      -- A place that does not fit is rounded away, a digit of the whole part is not.
      else if point then closeAt d (c :: rest)
      else .error .tooManyDigits
    else if c = '.' && !point then readFrom d true digits rest
    else if c = '_' && digits then readFrom d point digits rest
    else .error (faultOf c)

/-- Reads a decimal: an optional sign, digits, at most one point, and separators `_` once a digit
has been read. -/
def read (text : List Char) : Except DecimalFault Decimal :=
  match text with
  | [] => .error .empty
  | '-' :: rest => (readFrom zero false false rest).map neg
  | '+' :: rest => readFrom zero false false rest
  | digits => readFrom zero false false digits

/-! ## Writing -/

/-- The text of a decimal, with all its places. -/
def text (d : Decimal) : String :=
  -- one digit more than there are places, so that the whole part is never empty
  let digits := paddedDigits (d.scale + 1) d.mantissa
  let whole := digits.take (digits.length - d.scale)
  let fraction := digits.drop (digits.length - d.scale)
  String.ofList ((if d.negative then ['-'] else []) ++ whole ++
    (if d.scale = 0 then [] else '.' :: fraction))

/-! ## Arithmetic -/

/-- Shortens `mantissa / 10 ^ scale` by as few places as make it fit. `dropped` places have been
given up so far and `left` may still be; `mantissa` and `scale` are those of the exact value. -/
def shortenFrom (negative : Bool) (mantissa scale dropped : Nat) : Nat → Option Decimal
  | 0 =>
    let m := roundHalfEven mantissa (tenTo dropped)
    if h : m < 0x1000000000000000000000000 ∧ scale - dropped ≤ 28 then
      some (make negative m (scale - dropped) h.1 h.2)
    else none
  | left + 1 =>
    -- rounded from the exact value each time, as rounding twice might go the wrong way
    let m := roundHalfEven mantissa (tenTo dropped)
    if h : m < 0x1000000000000000000000000 ∧ scale - dropped ≤ 28 then
      some (make negative m (scale - dropped) h.1 h.2)
    else shortenFrom negative mantissa scale (dropped + 1) left

/-- The decimal nearest to `± mantissa / 10 ^ scale` with as many of its places as there is room
for, or nothing if the whole part does not fit. -/
def shorten? (negative : Bool) (mantissa scale : Nat) : Option Decimal :=
  shortenFrom negative mantissa scale 0 scale

/-- The product of two decimals. -/
def mul? (a b : Decimal) : Option Decimal :=
  if a.mantissa = 0 ∨ b.mantissa = 0 then some zero
  else shorten? (a.negative != b.negative) (a.mantissa * b.mantissa) (a.scale + b.scale)

/-- The mantissa of a decimal written with `scale` places, as an integer with its sign. -/
def scaledTo (d : Decimal) (scale : Nat) : Int :=
  let m : Int := d.mantissa * tenTo (scale - d.scale)
  if d.negative then -m else m

/-- The sum of two decimals. Adding zero changes nothing. -/
def add? (a b : Decimal) : Option Decimal :=
  -- zero keeps none of its places in a sum
  if a.mantissa = 0 then some b
  else if b.mantissa = 0 then some a
  else
    let scale := max a.scale b.scale
    let sum := a.scaledTo scale + b.scaledTo scale
    shorten? (sum < 0) sum.natAbs scale

/-- The difference of two decimals. -/
def sub? (a b : Decimal) : Option Decimal :=
  a.add? b.neg

/-- A number with the sign of a decimal. -/
def signed (d : Decimal) (n : Nat) : Int :=
  if d.negative then -(n : Int) else n

/-- The whole part. -/
def trunc (d : Decimal) : Int :=
  d.signed (d.mantissa / tenTo d.scale)

/-- The nearest whole number, a tie going to the even one. -/
def round (d : Decimal) : Int :=
  d.signed (roundHalfEven d.mantissa (tenTo d.scale))

/-- Whether there is nothing after the point. -/
def isWhole (d : Decimal) : Bool :=
  d.mantissa % tenTo d.scale == 0

/-- Whether a decimal is less than zero. -/
def isNegative (d : Decimal) : Bool :=
  d.negative && d.mantissa != 0

/-! ## Conversion to a double -/

/-- The size of a decimal as a double. Whole part and fraction are rounded to doubles of their own;
their sum is then brought back to the places of the decimal. -/
def magnitude (d : Decimal) : Magnitude :=
  let unit := tenTo d.scale
  let whole := Magnitude.ofNat (d.mantissa / unit)
  let fraction := (Magnitude.ofNat (d.mantissa % unit)).div (Magnitude.ofNat unit)
  if fraction.isZero then whole
  else
    let places := (Magnitude.ofNat 10).pow d.scale
    (((whole.add fraction).mul places).round).div places

/-- A decimal as a double. -/
def toBinary64 (d : Decimal) : Binary64 :=
  Binary64.ofMagnitude d.negative d.magnitude

end Decimal

end FieldQuery.Number
