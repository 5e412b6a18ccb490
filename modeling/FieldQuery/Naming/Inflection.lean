import FieldQuery.Naming.Word

/-!
# Singular and plural

English plurals by rule: words that have none, irregular pairs, and endings. Only the part after
the last underscore is changed, and endings are compared without regard to ASCII case.
-/

namespace FieldQuery.Naming

open FieldQuery.Text

/-- Pairs of a singular and a plural that no rule gives. -/
def irregular : List (String × String) :=
  [("person", "people"), ("man", "men"), ("woman", "women"), ("child", "children"),
   ("mouse", "mice"), ("goose", "geese"), ("tooth", "teeth"), ("foot", "feet"), ("ox", "oxen"),
   ("leaf", "leaves"), ("life", "lives"), ("wife", "wives"), ("knife", "knives"),
   ("half", "halves")]

/-- Words that are their own plural. -/
def uncountable : List String :=
  ["equipment", "information", "rice", "money", "species", "series", "fish", "sheep", "news",
   "metadata", "feedback"]

/-- The irregular plural of a word in small letters. -/
def irregularPlural? (word : List Char) : Option (List Char) :=
  (irregular.find? fun p => p.1.toList == word).map fun p => p.2.toList

/-- The irregular singular of a word in small letters. -/
def irregularSingular? (word : List Char) : Option (List Char) :=
  (irregular.find? fun p => p.2.toList == word).map fun p => p.1.toList

/-- Whether a word in small letters is its own plural. -/
def isUncountable (word : List Char) : Bool :=
  uncountable.any fun w => w.toList == word

/-- Whether a text has one of the endings. -/
def endsWithAny (endings : List String) (word : List Char) : Bool :=
  endings.any fun e => e.toList.isSuffixOf word

/-- An identifier cut after its last underscore. -/
def lastWord (identifier : List Char) : List Char × List Char :=
  let last := (identifier.reverse.takeWhile (· != '_')).reverse
  (identifier.take (identifier.length - last.length), last)

/-- A word without its last `n` characters. -/
def cut (n : Nat) (word : List Char) : List Char :=
  word.take (word.length - n)

/-- Whether the letter before the last one is a vowel. -/
def vowelBeforeLast (word : List Char) : Bool :=
  match word.reverse with
  | _ :: c :: _ => c = 'a' || c = 'e' || c = 'i' || c = 'o' || c = 'u'
  | _ => false

/-- The plural of a word by its ending. -/
def regularPlural (word : List Char) : List Char :=
  let lower := asciiLower word
  -- a hissing word needs a vowel before its plural `s`
  if endsWithAny ["s", "x", "z", "ch", "sh"] lower then word ++ ['e', 's']
  else if endsWithAny ["y"] lower && !vowelBeforeLast lower then cut 1 word ++ ['i', 'e', 's']
  else word ++ ['s']

/-- The singular of a word by its ending. -/
def regularSingular (word : List Char) : List Char :=
  let lower := asciiLower word
  if endsWithAny ["ies"] lower && 3 < lower.length then cut 3 word ++ ['y']
  -- here `es` was put on by the rule above
  else if endsWithAny ["sses", "shes", "ches", "xes", "zzes", "uses"] lower then cut 2 word
  -- these end in `s` in the singular already
  else if endsWithAny ["ss", "us", "is"] lower then word
  else if endsWithAny ["s"] lower && 1 < lower.length then cut 1 word
  else word

/-- The plural of an identifier. -/
def pluralized (identifier : List Char) : List Char :=
  let (head, last) := lastWord identifier
  let lower := asciiLower last
  if lower.isEmpty || isUncountable lower then identifier
  else
    match irregularPlural? lower with
    | some plural => head ++ plural
    | none =>
      -- A word that is a plural already stays as it is.
      if (irregularSingular? lower).isSome then identifier else head ++ regularPlural last

/-- The singular of an identifier. -/
def singularized (identifier : List Char) : List Char :=
  let (head, last) := lastWord identifier
  let lower := asciiLower last
  if lower.isEmpty || isUncountable lower then identifier
  else
    match irregularSingular? lower with
    | some singular => head ++ singular
    | none =>
      -- A word that is a singular already stays as it is.
      if (irregularPlural? lower).isSome then identifier else head ++ regularSingular last

/-- The singular type name for the name of a table or an association. -/
def classified (identifier : List Char) : List Char :=
  camelized (singularized (underscored identifier))

/-- The plural of an identifier, as a string. -/
def pluralize (identifier : String) : String :=
  String.ofList (pluralized identifier.toList)

/-- The singular of an identifier, as a string. -/
def singularize (identifier : String) : String :=
  String.ofList (singularized identifier.toList)

/-- The words of an identifier in small letters with underscores, as a string. -/
def underscore (identifier : String) : String :=
  String.ofList (underscored identifier.toList)

/-- The words of an identifier run together with a capital each, as a string. -/
def camelize (identifier : String) : String :=
  String.ofList (camelized identifier.toList)

/-- The singular type name for the name of a table or an association, as a string. -/
def classify (identifier : String) : String :=
  String.ofList (classified identifier.toList)

end FieldQuery.Naming
