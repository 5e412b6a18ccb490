import FieldQuery.Text.CodeRanges

/-!
# White space

The characters with the Unicode property White_Space, and the removal of such characters from the
two ends of a text.
-/

namespace FieldQuery.Text

/-- The code points with the property White_Space. -/
def blankRanges : CodeRanges :=
  [(0x9, 0xD), (0x20, 0x20), (0x85, 0x85), (0xA0, 0xA0), (0x1680, 0x1680), (0x2000, 0x200A),
   (0x2028, 0x2029), (0x202F, 0x202F), (0x205F, 0x205F), (0x3000, 0x3000)]

/-- A white-space character. -/
def isBlank (c : Char) : Bool :=
  blankRanges.contains c

/-- A text without the white space at its start. -/
def trimStart (text : List Char) : List Char :=
  text.dropWhile isBlank

/-- A text without the white space at its end. -/
def trimEnd (text : List Char) : List Char :=
  (text.reverse.dropWhile isBlank).reverse

/-- A text without the white space at its two ends. -/
def trim (text : List Char) : List Char :=
  trimEnd (trimStart text)

/-- A string without the white space at its two ends. -/
def trimmed (text : String) : String :=
  String.ofList (trim text.toList)

end FieldQuery.Text
