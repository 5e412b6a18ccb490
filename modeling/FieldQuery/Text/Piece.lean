/-!
# Pieces of a text

Looking for one text inside another, cutting a text at separators and at its ends, and comparing
texts without regard to ASCII case.
-/

namespace FieldQuery.Text

/-- A text in which the ASCII capitals are replaced by small letters. -/
def asciiLower (text : List Char) : List Char :=
  text.map Char.toLower

/-- A text in which the ASCII small letters are replaced by capitals. -/
def asciiUpper (text : List Char) : List Char :=
  text.map Char.toUpper

/-- Whether two texts are equal up to the case of ASCII letters. -/
def sameIgnoringCase (a b : List Char) : Bool :=
  asciiLower a == asciiLower b

/-- Whether `part` occurs in the text without a gap. -/
def occursIn (part : List Char) : List Char → Bool
  | [] => part.isEmpty
  | c :: rest => part.isPrefixOf (c :: rest) || occursIn part rest

/-- The rest of a text after `start`, if the text begins with it. -/
def afterStart? (start : List Char) (text : List Char) : Option (List Char) :=
  if start.isPrefixOf text then some (text.drop start.length) else none

/-- The part of a text before `ending`, if the text ends with it. -/
def beforeEnd? (ending : List Char) (text : List Char) : Option (List Char) :=
  if ending.isSuffixOf text then some (text.take (text.length - ending.length)) else none

/-- The part of a string before `ending`, if the string ends with it. -/
def strip? (ending text : String) : Option String :=
  (beforeEnd? ending.toList text.toList).map String.ofList

/-- The parts of a text before and after the last occurrence of a character. -/
def cutAtLast? (mark : Char) (text : List Char) : Option (List Char × List Char) :=
  if text.contains mark then
    let last := (text.reverse.takeWhile (· != mark)).reverse
    some (text.take (text.length - last.length - 1), last)
  else
    none

/-- A text with every occurrence of `old`, read from the left, replaced by `new`. `skip` counts the
characters of an occurrence that is being passed over. -/
def replaceFrom (old new : List Char) (skip : Nat) : List Char → List Char
  | [] => []
  | c :: rest =>
    match skip with
    | n + 1 => replaceFrom old new n rest
    | 0 =>
      if old.isPrefixOf (c :: rest) then new ++ replaceFrom old new (old.length - 1) rest
      else c :: replaceFrom old new 0 rest

/-- A text with every occurrence of the nonempty `old`, read from the left, replaced by `new`. -/
def replaceAll (old new text : List Char) : List Char :=
  replaceFrom old new 0 text

/-- Texts written one after another with a separator between them. -/
def joined (separator : List Char) (parts : List (List Char)) : List Char :=
  (parts.intersperse separator).flatten

end FieldQuery.Text
