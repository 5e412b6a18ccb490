import FieldQuery.Json.Basic

/-!
# JSON documents

A document is the tree of a JSON text as it was written: the fields of an object keep their order
and may be repeated. Two kinds of scalar are well formed and yet have no value, a string with an
unpaired half of a surrogate pair and a number beyond the doubles; a reader may pass over them but
not take them as values.
-/

namespace FieldQuery.Json

/-- The tree of a JSON text. -/
inductive Document where
  | null
  | bool (value : Bool)
  | number (value : Option Number)
  | string (value : Option String)
  | array (items : List Document)
  | object (fields : List (Option String × Document))
deriving Inhabited, Repr

namespace Document

/-- Arrays and objects of a value may be nested this deep. -/
def nestingLimit : Nat := 127

mutual

/-- The value of a document with at most `levels` levels of arrays and objects. Of repeated fields
the last one counts. -/
def valueWithin? (levels : Nat) : Document → Option Json
  | .null => some .null
  | .bool b => some (.bool b)
  | .number n => n.map .number
  | .string s => s.map .string
  | .array items =>
    if levels = 0 then none else (itemsWithin? (levels - 1) items).map .array
  | .object fields =>
    if levels = 0 then none else (fieldsWithin? (levels - 1) fields []).map .object

/-- The values of the items of an array. -/
def itemsWithin? (levels : Nat) : List Document → Option (List Json)
  | [] => some []
  | d :: rest => do
    let v ← valueWithin? levels d
    let vs ← itemsWithin? levels rest
    pure (v :: vs)

/-- The fields of an object, put in order after those already read. -/
def fieldsWithin? (levels : Nat) :
    List (Option String × Document) → List (String × Json) → Option (List (String × Json))
  | [], done => some done
  | (name, d) :: rest, done => do
    let key ← name
    let v ← valueWithin? levels d
    fieldsWithin? levels rest (insertField key v done)

end

mutual

/-- The document that writes a value. -/
def ofJson : Json → Document
  | .null => .null
  | .bool b => .bool b
  | .number n => .number (some n)
  | .string s => .string (some s)
  | .array items => .array (ofItems items)
  | .object fields => .object (ofFields fields)

/-- The documents that write the items of an array. -/
def ofItems : List Json → List Document
  | [] => []
  | v :: rest => ofJson v :: ofItems rest

/-- The fields of an object, as they are written. -/
def ofFields : List (String × Json) → List (Option String × Document)
  | [] => []
  | (name, v) :: rest => (some name, ofJson v) :: ofFields rest

end

/-- The value of a document. -/
def value? (d : Document) : Option Json :=
  d.valueWithin? nestingLimit

end Document

end FieldQuery.Json
