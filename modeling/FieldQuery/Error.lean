import FieldQuery.FieldType
import FieldQuery.Number.Decimal
import FieldQuery.Text.Quoted

/-!
# Errors

Why a name, a value or a request is refused. An error carries its cause; the wording is in
`QueryError.message`.
-/

namespace FieldQuery

open FieldQuery.Number FieldQuery.Text

/-- Why a text is not a value of a type. -/
inductive ParseFault where
  | decimal (fault : DecimalFault)
  | notANumber
  | outOfRange
  | notABoolean
  | unrecognisedDuration
  | noDateComponents
  | unrecognisedDateOrder
  | yearOutOfRange
  | componentOutOfRange
  | invalidDate
  | dateOutOfRange
  | unrecognisedTime
  | hourOutOfRange
  | minuteOutOfRange
  | secondOutOfRange
  | invalidTime
  | unknownRole (name : String)
  | roleWithoutBit (name : String)
  | noRoles
deriving DecidableEq, Repr

/-- The wording of a fault in a value. -/
def ParseFault.message : ParseFault → String
  | decimal fault => fault.message
  | notANumber => "not a number"
  | outOfRange => "out of range"
  | notABoolean => "not a boolean"
  | unrecognisedDuration => "unrecognised duration"
  | noDateComponents => "no date components"
  | unrecognisedDateOrder => "unrecognised date order"
  | yearOutOfRange => "year out of range"
  | componentOutOfRange => "component out of range"
  | invalidDate => "invalid date"
  | dateOutOfRange => "date out of range"
  | unrecognisedTime => "unrecognised time"
  | hourOutOfRange => "hour out of range"
  | minuteOutOfRange => "minute out of range"
  | secondOutOfRange => "second out of range"
  | invalidTime => "invalid time"
  | unknownRole name => "unknown role '" ++ name ++ "'"
  | roleWithoutBit name => "role '" ++ name ++ "' has no bit"
  | noRoles => "no roles given"

/-- Why the rows of an association cannot be found by keys. -/
inductive AssociationFault where
  | targetVaries
  | noUsableSource
  /-- One of the two steps goes through another association itself. -/
  | nestedThrough
deriving DecidableEq, Repr

/-- The wording of a fault of an association. -/
def AssociationFault.message : AssociationFault → String
  | targetVaries => "target type varies per row"
  | noUsableSource => "through association has no usable source"
  | nestedThrough => "nested through associations"

/-- A failure of the store. -/
inductive StorageError where
  /-- The store refused the statement or could not be reached. -/
  | backend (reason : String)
  /-- A value of a key column is neither a number nor a text. -/
  | decode (column : String)
deriving DecidableEq, Repr

/-- The wording of a failure of the store. -/
def StorageError.message : StorageError → String
  | backend reason => "Storage backend error: " ++ reason
  | decode column => "Cannot decode column '" ++ column ++ "' as a key"

/-- Why a request is not compiled. -/
inductive QueryError where
  | noRelation
  | invalidIdentifier (identifier : String)
  | unknownEntity (typeName : String)
  | unknownAssociation (owner name : String)
  | unsupportedAssociation (name : String) (fault : AssociationFault)
  | parse (type : FieldType) (value : String) (fault : ParseFault)
  | unsupportedType (name : String)
  | recursionLimit (depth : Nat)
  | storage (error : StorageError)
deriving DecidableEq, Repr

/-- The wording of an error. -/
def QueryError.message : QueryError → String
  | noRelation => "expected relation to be bound before compiling"
  | invalidIdentifier identifier => "invalid entity identifier '" ++ identifier ++ "'"
  | unknownEntity typeName => "no metadata registered for entity '" ++ typeName ++ "'"
  | unknownAssociation owner name => "'" ++ owner ++ "' has no association '" ++ name ++ "'"
  | unsupportedAssociation name fault =>
    "association '" ++ name ++ "' cannot be translated into keys: " ++ fault.message
  | parse type value fault =>
    "cannot parse " ++ quoted value ++ " as " ++ type.name ++ ": " ++ fault.message
  | unsupportedType name => "unsupported semantic type '" ++ name ++ "' for search"
  | recursionLimit depth =>
    "relationship recursion exceeded maximum depth of " ++ toString depth
  | storage error => error.message

end FieldQuery
