import FieldQuery.Json.Document
import FieldQuery.Text.Numeral

/-!
# Reading a JSON text

A recursive-descent reader for JSON texts. Every function returns what it has read together with
the rest of the text, or nothing if the text is not well formed.
-/

namespace FieldQuery.Json

open FieldQuery.Number FieldQuery.Text

/-! ## Numbers -/

/-- The number of a sign, a coefficient and a power of ten, rounded to the nearest double. -/
def Number.ofDecimal? (negative : Bool) (coefficient : Nat) (exponent : Int) : Option Number :=
  let position := ((natDigits coefficient).length : Int) + exponent
  -- Far outside the range of doubles no power of ten is computed.
  if 310 < position ∧ coefficient ≠ 0 then none
  else
    let size :=
      if position < -330 then Magnitude.nearest 0 1
      else Magnitude.nearest (coefficient * tenTo exponent.toNat) (tenTo (-exponent).toNat)
    let x := Binary64.ofMagnitude negative size
    if h : x.isFinite = true then some (.double x h) else none

/-- The number of a sign and digits without fraction and exponent. Minus zero is a double. -/
def Number.ofDigits? (negative : Bool) (n : Nat) : Option Number :=
  if negative then
    if h : 0 < n ∧ n ≤ 0x8000000000000000 then some (.integer (-(n : Int)) (by omega))
    else Number.ofDecimal? true n 0
  else if h : n < 0x10000000000000000 then some (.integer n (by omega))
  else Number.ofDecimal? false n 0

/-- An exponent part, if one follows. -/
def readExponent : List Char → Option (Option Int × List Char)
  | c :: rest =>
    if c = 'e' || c = 'E' then
      let (negative, digits) :=
        match rest with
        | '-' :: r => (true, r)
        | '+' :: r => (false, r)
        | r => (false, r)
      let run := digits.takeWhile Char.isDigit
      if run.isEmpty then none
      else
        let n : Int := Nat.ofDigitChars 10 run 0
        some (some (if negative then -n else n), digits.dropWhile Char.isDigit)
    else some (none, c :: rest)
  | [] => some (none, [])

/-- The digits of a fraction, if a point follows. -/
def readFraction : List Char → Option (Option (List Char) × List Char)
  | '.' :: rest =>
    let run := rest.takeWhile Char.isDigit
    if run.isEmpty then none else some (some run, rest.dropWhile Char.isDigit)
  | rest => some (none, rest)

/-- A number: digits without a needless zero in front, then a fraction and an exponent. -/
def readNumber (negative : Bool) (text : List Char) : Option (Document × List Char) := do
  let whole := text.takeWhile Char.isDigit
  if whole.isEmpty || (whole.length > 1 && whole.head? == some '0') then none
  else
    let (fraction, rest) ← readFraction (text.dropWhile Char.isDigit)
    let (exponent, rest) ← readExponent rest
    let number :=
      match fraction, exponent with
      | none, none => Number.ofDigits? negative (Nat.ofDigitChars 10 whole 0)
      | _, _ =>
        -- the places of the fraction are moved into the exponent
        let places := fraction.getD []
        Number.ofDecimal? negative (Nat.ofDigitChars 10 (whole ++ places) 0)
          (exponent.getD 0 - places.length)
    pure (.number number, rest)

/-! ## Strings -/

/-- One piece of a string: a character, or half of a surrogate pair written by its number. -/
inductive StringPiece where
  | char (c : Char)
  | half (code : Nat)
deriving Repr

/-- The piece with a given number. -/
def StringPiece.ofCode (code : Nat) : StringPiece :=
  if 0xD800 ≤ code ∧ code < 0xE000 then .half code else .char (Char.ofNat code)

/-- The text of a list of pieces, if each half is the first or the second of a pair. -/
def joinPieces : List StringPiece → Option (List Char)
  | [] => some []
  | .char c :: rest => (joinPieces rest).map (c :: ·)
  | .half a :: .half b :: rest =>
    -- the first half of a pair is below 0xDC00, the second one above
    if a < 0xDC00 ∧ 0xDC00 ≤ b then
      (joinPieces rest).map (Char.ofNat (0x10000 + (a - 0xD800) * 0x400 + (b - 0xDC00)) :: ·)
    else none
  | .half _ :: _ => none

/-- The value of a hexadecimal digit. -/
def hexDigit? (c : Char) : Option Nat :=
  if '0' ≤ c ∧ c ≤ '9' then some (c.toNat - '0'.toNat)
  else if 'a' ≤ c ∧ c ≤ 'f' then some (c.toNat - 'a'.toNat + 10)
  else if 'A' ≤ c ∧ c ≤ 'F' then some (c.toNat - 'A'.toNat + 10)
  else none

/-- The value of four hexadecimal digits. -/
def hexCode? (a b c d : Char) : Option Nat := do
  pure ((((← hexDigit? a) * 16 + (← hexDigit? b)) * 16 + (← hexDigit? c)) * 16 + (← hexDigit? d))

/-- The character of a one-letter escape. -/
def simpleEscape? : Char → Option Char
  | '"' => some '"'
  | '\\' => some '\\'
  | '/' => some '/'
  | 'b' => some '\x08'
  | 'f' => some '\x0c'
  | 'n' => some '\n'
  | 'r' => some '\r'
  | 't' => some '\t'
  | _ => none

/-- The pieces of a string up to its closing quote. -/
def readPieces : List Char → Option (List StringPiece × List Char)
  | [] => none
  | '"' :: rest => some ([], rest)
  | '\\' :: 'u' :: a :: b :: c :: d :: rest => do
    let code ← hexCode? a b c d
    let (pieces, rest) ← readPieces rest
    pure (StringPiece.ofCode code :: pieces, rest)
  | '\\' :: e :: rest => do
    let c ← simpleEscape? e
    let (pieces, rest) ← readPieces rest
    pure (.char c :: pieces, rest)
  | c :: rest => do
    -- a control character stands in a string only as an escape
    if c.toNat < 0x20 || c = '\\' then none
    else
      let (pieces, rest) ← readPieces rest
      pure (.char c :: pieces, rest)

/-- A string after its opening quote. -/
def readString (text : List Char) : Option (Option String × List Char) := do
  let (pieces, rest) ← readPieces text
  pure ((joinPieces pieces).map String.ofList, rest)

/-! ## Values -/

/-- A text without the space in front of it. -/
def skipSpace (text : List Char) : List Char :=
  text.dropWhile fun c => c = ' ' || c = '\n' || c = '\t' || c = '\r'

mutual

/-- A value. At most `fuel` values, items and fields are read. -/
def readValue (fuel : Nat) (text : List Char) : Option (Document × List Char) :=
  match fuel with
  | 0 => none
  | fuel + 1 =>
    match skipSpace text with
    | 'n' :: 'u' :: 'l' :: 'l' :: rest => some (.null, rest)
    | 't' :: 'r' :: 'u' :: 'e' :: rest => some (.bool true, rest)
    | 'f' :: 'a' :: 'l' :: 's' :: 'e' :: rest => some (.bool false, rest)
    | '"' :: rest => do
      let (s, rest) ← readString rest
      pure (.string s, rest)
    | '[' :: rest =>
      match skipSpace rest with
      | ']' :: rest => some (.array [], rest)
      | rest => do
        let (items, rest) ← readItems fuel rest
        pure (.array items, rest)
    | '\x7b' :: rest =>
      match skipSpace rest with
      | '\x7d' :: rest => some (.object [], rest)
      | rest => do
        let (fields, rest) ← readFields fuel rest
        pure (.object fields, rest)
    | '-' :: rest => readNumber true rest
    | rest => readNumber false rest

/-- The items of an array up to its closing bracket. -/
def readItems (fuel : Nat) (text : List Char) : Option (List Document × List Char) :=
  match fuel with
  | 0 => none
  | fuel + 1 => do
    let (item, rest) ← readValue fuel text
    match skipSpace rest with
    | ',' :: rest =>
      let (items, rest) ← readItems fuel rest
      pure (item :: items, rest)
    | ']' :: rest => pure ([item], rest)
    | _ => none

/-- The fields of an object up to its closing brace. -/
def readFields (fuel : Nat) (text : List Char) :
    Option (List (Option String × Document) × List Char) :=
  match fuel with
  | 0 => none
  | fuel + 1 =>
    match skipSpace text with
    | '"' :: rest => do
      let (name, rest) ← readString rest
      match skipSpace rest with
      | ':' :: rest =>
        let (value, rest) ← readValue fuel rest
        match skipSpace rest with
        | ',' :: rest =>
          let (fields, rest) ← readFields fuel rest
          pure ((name, value) :: fields, rest)
        | '\x7d' :: rest => pure ([(name, value)], rest)
        | _ => none
      | _ => none
    | _ => none

end

/-- The document of a JSON text with nothing but space around its value. Every item read takes at
least one character, so the length of the text bounds their number. -/
def Document.read? (text : String) : Option Document :=
  let chars := text.toList
  match readValue (2 * chars.length + 2) chars with
  | some (d, rest) => if (skipSpace rest).isEmpty then some d else none
  | none => none

end FieldQuery.Json
