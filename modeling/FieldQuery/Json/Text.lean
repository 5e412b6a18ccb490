import FieldQuery.Json.Basic
import FieldQuery.Number.Shortest
import FieldQuery.Text.Blank
import FieldQuery.Text.Piece

/-!
# The text of a JSON value

Two texts of a value: the compact JSON text, and the text a user would have typed for it, in which
a string stands for itself and the items of a list are separated by commas.
-/

namespace FieldQuery.Json

open FieldQuery.Number FieldQuery.Text

/-- Doubles from `1e-5` up to `1e16` are written without an exponent, and a whole double keeps a
point and a zero. -/
def numberLayout : Layout where
  tie := .even
  keepsPoint := true
  isPositional e := -5 ≤ e && e < 16

/-- The text of a number. -/
def Number.text : Number → String
  | .integer n _ => intText n
  | .double x _ => x.text numberLayout

/-- A character inside a quoted JSON string. -/
def escapedChar (c : Char) : List Char :=
  match c with
  | '"' => ['\\', '"']
  | '\\' => ['\\', '\\']
  | '\x08' => ['\\', 'b']
  | '\x0c' => ['\\', 'f']
  | '\n' => ['\\', 'n']
  | '\r' => ['\\', 'r']
  | '\t' => ['\\', 't']
  | c =>
    if c.toNat < 0x20 then
      let digits := Nat.toDigits 16 c.toNat
      ['\\', 'u'] ++ List.replicate (4 - digits.length) '0' ++ digits
    else [c]

/-- A JSON string. -/
def quotedString (s : String) : List Char :=
  '"' :: s.toList.flatMap escapedChar ++ ['"']

mutual

/-- The compact JSON text of a value, as characters. -/
def compactChars : Json → List Char
  | .null => "null".toList
  | .bool true => "true".toList
  | .bool false => "false".toList
  | .number n => n.text.toList
  | .string s => quotedString s
  | .array items => '[' :: joined [','] (compactItems items) ++ [']']
  | .object fields => '\x7b' :: joined [','] (compactFields fields) ++ ['\x7d']

/-- The compact texts of the items of a list. -/
def compactItems : List Json → List (List Char)
  | [] => []
  | v :: rest => compactChars v :: compactItems rest

/-- The compact texts of the fields of an object. -/
def compactFields : List (String × Json) → List (List Char)
  | [] => []
  | (name, v) :: rest => (quotedString name ++ ':' :: compactChars v) :: compactFields rest

end

/-- The compact JSON text of a value. -/
def compact (v : Json) : String :=
  String.ofList (compactChars v)

mutual

/-- The text of a value as a user would have typed it, as characters. -/
def typedChars : Json → List Char
  | .string s => s.toList
  | .array items => joined [','] (typedItems items)
  | other => compactChars other

/-- The typed texts of the items of a list. -/
def typedItems : List Json → List (List Char)
  | [] => []
  | v :: rest => typedChars v :: typedItems rest

end

/-- The text of a value as a user would have typed it. -/
def typedText (v : Json) : String :=
  String.ofList (typedChars v)

/-- Whether a value asks for rows without a value: null, a blank string, or one of the words `nil`
and `null` in any case. -/
def isNullMarker : Json → Bool
  | .null => true
  | .string s =>
    let word := asciiLower (trim s.toList)
    word.isEmpty || word == "nil".toList || word == "null".toList
  | _ => false

end FieldQuery.Json
