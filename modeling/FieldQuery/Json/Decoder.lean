import FieldQuery.Json.Document

/-!
# Decoding a document

A decoder takes a document to a value of the domain, or refuses it. Records come in two forms: an
object, whose unknown fields are passed over and whose known fields occur at most once, or an array
that lists the fields in their order and may stop early.
-/

namespace FieldQuery.Json

/-- A partial function from documents. -/
abbrev Decoder (α : Type) := Document → Option α

namespace Decoder

/-- A string. -/
def text : Decoder String
  | .string s => s
  | _ => none

/-- A truth value. -/
def bool : Decoder Bool
  | .bool b => some b
  | _ => none

/-- A natural number up to a limit. -/
def natUpTo (limit : Nat) : Decoder Nat
  | .number (some (.integer n _)) => if 0 ≤ n ∧ n ≤ limit then some n.toNat else none
  | _ => none

/-- A value that may be null. -/
def nullable {α : Type} (item : Decoder α) : Decoder (Option α)
  | .null => some none
  | d => (item d).map some

/-- An array of values. -/
def list {α : Type} (item : Decoder α) : Decoder (List α)
  | .array items => items.mapM item
  | _ => none

/-- A name from a fixed set, written as a string or as the one field of an object, with the value
null. -/
def name {α : Type} (known : String → Option α) : Decoder α
  | .string (some s) => known s
  | .object [(some s, .null)] => known s
  | _ => none

/-- The fields of an object, all of whose names are readable. -/
def fields : Decoder (List (String × Document))
  | .object entries => entries.mapM fun (name, d) => name.map fun n => (n, d)
  | _ => none

/-- The field of a given name, if there is one; a repeated field is refused. -/
def single (name : String) (entries : List (String × Document)) : Option (Option Document) :=
  match entries.filter fun e => e.1 == name with
  | [] => some none
  | [(_, d)] => some (some d)
  | _ => none

/-- The fields of a record in the order of `names`, with nothing for those that are left out. -/
def record (names : List String) : Decoder (List (Option Document))
  | .array items =>
    if items.length ≤ names.length then
      -- fields left out at the end of an array are missing, not null
      some (items.map some ++ List.replicate (names.length - items.length) none)
    else none
  | d => do
    let entries ← fields d
    names.mapM fun n => single n entries

/-- A field that must be there. -/
def required {α : Type} (item : Decoder α) : Option Document → Option α
  | some d => item d
  | none => none

/-- A field with a default. -/
def withDefault {α : Type} (item : Decoder α) (default : α) : Option Document → Option α
  | some d => item d
  | none => some default

end Decoder

end FieldQuery.Json
