import FieldQuery.Text.Blank
import FieldQuery.Text.Piece

/-!
# Field types

The type of a field decides how rows are ordered by it and how a search value is compared with it.
Scalar types come from columns; the others come from associations and from the conventions for
addresses, roles and opaque keys.
-/

namespace FieldQuery

open FieldQuery.Text

/-- How a field is ordered and compared. -/
inductive FieldType where
  | string
  | text
  | email
  | integer
  | decimal
  | float
  | currency
  | percentage
  | duration
  | price
  | boolean
  | date
  | datetime
  | time
  | binary
  | json
  /-- A key of this entity that points at one row of another. -/
  | directReference
  /-- A pair of columns that name a type and a key. -/
  | polymorphicReference
  /-- One row of another entity that points here. -/
  | reversedSingle
  /-- Rows of another entity that point here. -/
  | reversedMany
  | manyToMany
  /-- The addresses of one category. -/
  | addresses
  /-- A primary key shown as an opaque token. -/
  | obfuscatedId
  /-- A set of roles kept as bits of one number. -/
  | roles
deriving DecidableEq, Repr, Inhabited

namespace FieldType

/-- The name of a type. -/
def name : FieldType → String
  | string => "string"
  | text => "text"
  | email => "email"
  | integer => "integer"
  | decimal => "decimal"
  | float => "float"
  | currency => "currency"
  | percentage => "percentage"
  | duration => "duration"
  | price => "price"
  | boolean => "boolean"
  | date => "date"
  | datetime => "datetime"
  | time => "time"
  | binary => "binary"
  | json => "json"
  | directReference => "belongs_to"
  | polymorphicReference => "belongs_to_polymorphic"
  | reversedSingle => "has_one"
  | reversedMany => "has_many"
  | manyToMany => "has_and_belongs_to_many"
  | addresses => "addresses"
  | obfuscatedId => "obfuscated_id"
  | roles => "roles"

/-- All types. -/
def all : List FieldType :=
  [string, text, email, integer, decimal, float, currency, percentage, duration, price, boolean,
   date, datetime, time, binary, json, directReference, polymorphicReference, reversedSingle,
   reversedMany, manyToMany, addresses, obfuscatedId, roles]

/-- Further names under which a type is known. -/
def aliases : List (String × FieldType) :=
  [("bigint", integer), ("percent", percentage), ("timestamp", datetime)]

/-- The type with a given name or alias; white space around it and ASCII case do not matter. -/
def ofName? (text : String) : Option FieldType :=
  let word := String.ofList (asciiLower (trim text.toList))
  match all.find? fun t => t.name == word with
  | some t => some t
  | none => aliases.lookup word

/-- Whether a search on the type goes through the keys of another entity. -/
def isAssociation : FieldType → Bool
  | directReference | reversedSingle | reversedMany | manyToMany => true
  | _ => false

/-- Whether a search for no value asks for a NULL in the column. -/
def acceptsNull : FieldType → Bool
  | reversedSingle | reversedMany | manyToMany | polymorphicReference | roles | addresses => false
  | _ => true

end FieldType

end FieldQuery
