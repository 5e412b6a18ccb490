import FieldQuery.Text.CaseTable

/-!
# Full case mapping

Upper and lower case of a text, by the full mappings: one character may become several, and a
capital sigma becomes a final one at the end of a word.
-/

namespace FieldQuery.Text

/-- The characters of a mapped code point, or the character itself where nothing maps it. -/
def mapCase (sequences : List (Nat × List Nat)) (runs : List CaseRun) (c : Char) : List Char :=
  match sequences.lookup c.toNat with
  | some codes => codes.map Char.ofNat
  | none =>
    match CaseRun.find? runs c.toNat with
    | some code => [Char.ofNat code]
    | none => [c]

/-- The upper-case form of a character. -/
def upperOf (c : Char) : List Char :=
  if c.toNat < 0x80 then [c.toUpper] else mapCase upperSequences upperRuns c

/-- The lower-case form of a character on its own. -/
def lowerOf (c : Char) : List Char :=
  if c.toNat < 0x80 then [c.toLower] else mapCase lowerSequences lowerRuns c

/-- A character with case. -/
def isCased (c : Char) : Bool :=
  if c.toNat < 0x80 then c.isAlpha else casedRanges.contains c

/-- A character that is passed over in the search for a neighbouring letter. -/
def isCaseIgnorable (c : Char) : Bool :=
  caseIgnorableRanges.contains c

/-- Whether the first character that is not passed over has case. -/
def meetsCased (text : List Char) : Bool :=
  match text.dropWhile isCaseIgnorable with
  | c :: _ => isCased c
  | [] => false

/-- Lower case of a text that follows the characters `before`, the nearest one first. -/
def lowercaseAfter (before : List Char) : List Char → List Char
  | [] => []
  | c :: rest =>
    let image :=
      if c = 'Σ' then (if meetsCased before && !meetsCased rest then ['ς'] else ['σ'])
      else lowerOf c
    image ++ lowercaseAfter (c :: before) rest

/-- The lower-case form of a text. -/
def lowercase (text : List Char) : List Char :=
  lowercaseAfter [] text

/-- The upper-case form of a text. -/
def uppercase (text : List Char) : List Char :=
  text.flatMap upperOf

end FieldQuery.Text
