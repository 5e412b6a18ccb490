import FieldQuery.Error
import FieldQuery.Naming.Inflection

/-!
# Entity names

An entity is named by a path of words. Slashes and colons separate the parts of the path, the last
part is the entity and may be written in the singular or the plural, and every spelling leads to
one canonical type name such as `Admin::Post`.
-/

namespace FieldQuery.Naming

open FieldQuery.Text

/-- The forms of the name of an entity. -/
structure EntityName where
  /-- The entity in the singular, as in `post`. -/
  singular : String
  /-- The entity in the plural, as in `posts`. -/
  plural : String
  /-- The canonical name, as in `Admin::Post`. -/
  typeName : String
  /-- The parts of the path before the entity, as in `["admin"]`. -/
  namespaces : List String
  /-- The canonical name with spaces, as in `Admin Post`. -/
  human : String
deriving DecidableEq, Repr, Inhabited

namespace EntityName

/-- What stands between the parts of a type name. -/
def separator : List Char := [':', ':']

/-- The nonblank parts of a path, without the white space around them. -/
def segments (identifier : List Char) : List (List Char) :=
  -- a single colon divides as well, so `::` leaves an empty part between two others
  ((identifier.splitOnP fun c => c = '/' || c = ':').map trim).filter fun s => !s.isEmpty

/-- The name with the given parts before the entity and the given last part. -/
def ofSegments (parents : List (List Char)) (last : List Char) : EntityName :=
  -- only the last part is an entity; those before it keep their number
  let singular := singularized (underscored last)
  let spaces := parents.map underscored
  let typeName := joined separator ((spaces ++ [singular]).map camelized)
  { singular := String.ofList singular
    plural := String.ofList (pluralized singular)
    typeName := String.ofList typeName
    namespaces := spaces.map String.ofList
    human := String.ofList (replaceAll separator [' '] typeName) }

/-- The name that an identifier spells, unless it has no part that is not blank. -/
def parse? (identifier : String) : Option EntityName :=
  match (segments identifier.toList).reverse with
  | [] => none
  | last :: parents => some (ofSegments parents.reverse last)

/-- The name that an identifier spells. -/
def parse (identifier : String) : Except QueryError EntityName :=
  match parse? identifier with
  | some name => .ok name
  | none => .error (.invalidIdentifier identifier)

/-- The path to the entity, or nothing at the top level. -/
def path? (name : EntityName) : Option String :=
  if name.namespaces.isEmpty then none else some ("/".intercalate name.namespaces)

/-- The last part of the type name. -/
def baseTypeName (name : EntityName) : String :=
  String.ofList (name.typeName.toList.reverse.takeWhile (· != ':')).reverse

/-- The part of the type name before the last separator, or nothing at the top level. -/
def parentTypeName (name : EntityName) : String :=
  let chars := name.typeName.toList
  String.ofList (chars.take (chars.length - name.baseTypeName.toList.length - separator.length))

/-- The table an entity has by convention. -/
def tableName (name : EntityName) : String :=
  "_".intercalate (name.namespaces ++ [name.plural])

/-- The column that points at the entity by convention. -/
def foreignKey (name : EntityName) : String :=
  name.singular ++ "_id"

end EntityName

/-- The canonical form of a type name; a name that cannot be parsed stands for itself. -/
def canonicalTypeName (identifier : String) : String :=
  match EntityName.parse? identifier with
  | some name => name.typeName
  | none => identifier

end FieldQuery.Naming
