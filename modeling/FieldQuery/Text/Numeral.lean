/-!
# Whole numbers in decimal digits

Writing whole numbers and reading them back. Only ASCII digits are read. Reading a signed number
takes an optional sign and at least one digit; a number outside the 64-bit range is not read.
-/

namespace FieldQuery.Text

/-- The decimal digits of a natural number. -/
def natDigits (n : Nat) : List Char :=
  Nat.toDigits 10 n

/-- The decimal text of an integer. -/
def intDigits (n : Int) : List Char :=
  if n < 0 then '-' :: natDigits n.natAbs else natDigits n.natAbs

/-- The decimal text of an integer, as a string. -/
def intText (n : Int) : String :=
  String.ofList (intDigits n)

/-- The decimal digits of a natural number, with zeros in front up to a width. -/
def paddedDigits (width n : Nat) : List Char :=
  let digits := natDigits n
  List.replicate (width - digits.length) '0' ++ digits

/-- The number written by a nonempty run of ASCII digits. -/
def readNat? (text : List Char) : Option Nat :=
  if !text.isEmpty && text.all Char.isDigit then some (Nat.ofDigitChars 10 text 0) else none

/-- The number written by a nonempty run of ASCII digits, if it is at most `limit`. -/
def readNatUpTo? (limit : Nat) (text : List Char) : Option Nat :=
  (readNat? text).filter (· ≤ limit)

/-- The 64-bit integer equal to `n`, if there is one. -/
def toInt64? (n : Int) : Option Int64 :=
  if -0x8000000000000000 ≤ n ∧ n < 0x8000000000000000 then some (Int64.ofInt n) else none

/-- The 64-bit integer written by an optional sign and ASCII digits. -/
def readInt64? (text : List Char) : Option Int64 :=
  match text with
  | '-' :: digits => (readNat? digits).bind fun n => toInt64? (-(n : Int))
  | '+' :: digits => (readNat? digits).bind fun n => toInt64? n
  | digits => (readNat? digits).bind fun n => toInt64? n

end FieldQuery.Text
