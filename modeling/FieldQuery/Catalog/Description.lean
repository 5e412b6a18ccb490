import FieldQuery.Catalog.Association
import FieldQuery.Naming.Inflection
import FieldQuery.Schema.Registry

/-!
# Describing associations

The catalog of an entity holds its associations in their declared order, with everything that the
declarations leave out filled in: the target is found by the name of the association, and keys and
tables by their conventional names. Associations through another one are described last, since they
build on the links of the entity.
-/

namespace FieldQuery.Catalog

open FieldQuery.Naming FieldQuery.Schema FieldQuery.Text

/-- The canonical name of an identifier and the schema registered under it. -/
def findSchema? (provider : Provider) (identifier : String) :
    Option (EntityName × EntitySchema) := do
  let name ← EntityName.parse? identifier
  let schema ← provider.schema? name.typeName
  pure (name, schema)

/-- The identifiers under which the target of an association is looked for: the given one, and for
an owner inside a namespace also that one within the same namespace. -/
def targetCandidates (owner : EntityName) (identifier : String) : List String :=
  let isPath := occursIn EntityName.separator identifier.toList
  identifier ::
    if owner.namespaces.isEmpty || isPath then []
    else [owner.parentTypeName ++ "::" ++ identifier]

/-- The target that an identifier names for an owner. One that is not registered has its
conventional table and key; an identifier that is no name at all leads back to the owner. -/
def targetFor (provider : Provider) (owner : EntityName) (identifier : String) : Target :=
  match (targetCandidates owner identifier).findSome? (findSchema? provider) with
  | some (name, schema) => ⟨name, schema.tableFor name, schema.primaryKey⟩
  | none =>
    let name := (EntityName.parse? identifier).getD owner
    ⟨name, name.tableName, "id"⟩

/-- The columns by which a target that points at several types tells them apart. -/
def discriminator? (owner : EntityName) (d : AssociationDeclaration) : Option Discriminator :=
  d.interface.map fun i => ⟨i ++ "_type", i ++ "_id", owner.typeName⟩

/-- The column of the target that holds the key of the owner. -/
def reversedKey (owner : EntityName) (d : AssociationDeclaration) : String :=
  match d.foreignKey, d.interface with
  -- a declared key wins over the interface, and both over the convention
  | some key, _ => key
  | none, some i => i ++ "_id"
  | none, none => owner.foreignKey

/-- The join table of two tables by convention: their names in ascending order. -/
def conventionalJoinTable (a b : String) : String :=
  if b < a then b ++ "_" ++ a else a ++ "_" ++ b

/-- The link that a declaration describes. -/
def describe (provider : Provider) (owner : EntityName) (d : AssociationDeclaration) : Link :=
  -- a class name is taken as it stands; only `many` puts the name of the declaration into the singular
  let one := targetFor provider owner (d.className.getD (camelize d.name))
  let many := targetFor provider owner (d.className.getD (classify d.name))
  let ownKey := d.foreignKey.getD (d.name ++ "_id")
  match d.kind with
  | .belongsTo =>
    if d.polymorphic then ⟨d.name, ownKey, .polymorphic (d.name ++ "_type")⟩
    else ⟨d.name, ownKey, .direct one⟩
  | .hasOne => ⟨d.name, reversedKey owner d, .reversed .single one (discriminator? owner d)⟩
  | .hasMany =>
    let form := if d.autosave then .owned else .many
    ⟨d.name, reversedKey owner d, .reversed form many (discriminator? owner d)⟩
  | .hasAndBelongsToMany =>
    -- the owner enters by its conventional table, the target by the one it has
    let joinTable := d.joinTable.getD (conventionalJoinTable owner.tableName many.table)
    let targetKey := d.associationForeignKey.getD many.name.foreignKey
    ⟨d.name, d.foreignKey.getD owner.foreignKey, .manyToMany many joinTable targetKey⟩

/-- The names under which the middle may declare the second step: the given one, the singular and
the plural of the name of the association, and that name itself. -/
def sourceCandidates (d : AssociationDeclaration) : List String :=
  d.source.toList ++ [singularize d.name, pluralize d.name, d.name]

/-- The second step of an association through `via`. -/
def describeSource? (provider : Provider) (via : Link) (d : AssociationDeclaration) :
    Option Link := do
  let middle ← via.target?
  let (name, schema) ← findSchema? provider middle.name.typeName
  let source ← (sourceCandidates d).findSome? fun candidate =>
    schema.associations.find? fun a => a.name == candidate
  -- A second step that goes through another association is not followed.
  if source.through.isSome then none else some (describe provider name source)

/-- The target of an association through another one. -/
def throughTarget? (provider : Provider) (owner : EntityName) (d : AssociationDeclaration)
    (source : Option Link) : Option Target :=
  -- a declared source type is needed where the second step is polymorphic, and always counts first
  match d.sourceType, source with
  | some type, _ => some (targetFor provider owner type)
  | none, some link => link.target?
  | none, none => d.className.map (targetFor provider owner)

/-- The association that a declaration describes. Of links declared under one name the first one
counts, and an association through a link that is not declared is left out. -/
def describeAssociation? (provider : Provider) (owner : EntityName) (links : List Link)
    (d : AssociationDeclaration) : Option Association :=
  match d.through with
  | none => (links.find? fun l => l.name == d.name).map .step
  | some via => do
    -- the key of the whole is the key of its first step
    let link ← links.find? fun l => l.name == via
    let source := describeSource? provider link d
    pure (.through d.name link.foreignKey (.step link) (source.map .step)
      (throughTarget? provider owner d source) (d.kind != .hasOne))

/-- The associations of an entity in their declared order. -/
def describeAll (provider : Provider) (owner : EntityName) (schema : EntitySchema) :
    List Association :=
  let declared := schema.associations.filter fun d => d.through.isNone
  -- only single steps can be gone through, so those are described first
  let links := declared.map (describe provider owner)
  schema.associations.filterMap (describeAssociation? provider owner links)

end FieldQuery.Catalog
