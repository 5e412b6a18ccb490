import FieldQuery.Text.HiddenTable

/-!
# Text shown in a message

A text is shown between double quotes. Quotes and backslashes inside it are escaped, the common
control characters have letters of their own, and a character without a visible form is written by
its number in hexadecimal.
-/

namespace FieldQuery.Text

/-- The code point of a character in hexadecimal, between braces. -/
def numbered (c : Char) : List Char :=
  ['\\', 'u', '\x7b'] ++ Nat.toDigits 16 c.toNat ++ ['\x7d']

/-- A character as it is shown between quotes. -/
def shownChar (c : Char) : List Char :=
  match c with
  | '"' => ['\\', '"']
  | '\\' => ['\\', '\\']
  | '\n' => ['\\', 'n']
  | '\r' => ['\\', 'r']
  | '\t' => ['\\', 't']
  | '\x00' => ['\\', '0']
  | c => if hiddenRanges.contains c then numbered c else [c]

/-- A text as it is shown in a message. -/
def quoted (text : String) : String :=
  String.ofList ('"' :: text.toList.flatMap shownChar ++ ['"'])

end FieldQuery.Text
