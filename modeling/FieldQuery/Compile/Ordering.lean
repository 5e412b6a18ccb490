import FieldQuery.Compile.Correlation

/-!
# Orderings

The expressions by which rows are ordered by a field. An association is ordered by a field of its
target, which may be an association in turn: the target rows are ordered first, and their keys,
carried back, become a ranking of the owners. How many associations may follow one another is
limited; the rest of that budget is the argument of the recursion.
-/

namespace FieldQuery.Compile

open FieldQuery.Catalog FieldQuery.Sql

/-- The rank of a key set as a list of expressions, empty if there are no keys. -/
def rankBy (column : String) (keys : KeySet) : List Fragment :=
  (keys.rankOrder? column).toList

/-- Orders rows of a target by the given expressions and applies the limit of a sub-query. -/
def ordered (settings : Settings) (limit : Option Nat) (expressions : List Fragment)
    (rows : Relation) : Relation :=
  (rows.orderBy expressions).take (settings.cap limit)

/-- How the target of an association is ordered: from its type name and the field that is asked for,
if one is, to the entity and the expressions. -/
abbrev TargetOrdering := String → Option String → Compilation (Entity × List Fragment)

/-- The ranking of an entity by the target rows of an association. -/
def rankByAssociation (settings : Settings) (orderTarget : TargetOrdering) (entity : Entity)
    (association : Association) (options : OrderOptions) : Compilation (List Fragment) := do
  let target ← .ofExcept association.requireTarget
  let (found, expressions) ← orderTarget target.name.typeName options.sortField
  let rows := ordered settings options.limit expressions found.relation
  let (column, keys) ← correlate settings .rank entity.asTarget target rows association
  pure (rankBy column keys)

/-- The ranking of an entity by its addresses of one category. -/
def rankByAddresses (settings : Settings) (orderTarget : TargetOrdering) (entity : Entity)
    (field : String) (options : OrderOptions) : Compilation (List Fragment) :=
  match entity.catalog.addressScope? field with
  | none => .fail (.unknownAssociation entity.typeName field)
  | some scope => do
    -- the entity of the addresses is not needed, only the order of its rows
    let (_, expressions) ← orderTarget scope.target.name.typeName options.sortField
    let rows := ordered settings options.limit expressions (scope.relation entity.typeName)
    let keys ← .keys rows (scope.target.column scope.link.foreignKey)
    pure (rankBy entity.keyColumn keys)

/-- The expressions for a field, given how targets are ordered. -/
def orderWith (settings : Settings) (orderTarget : TargetOrdering) (entity : Entity)
    (field : String) (direction : Direction) (options : OrderOptions) :
    Compilation (List Fragment) := do
  let resolved := entity.resolveWith field options.type
  let column := entity.columnFor field options.sqlColumn
  let dir := direction.sql
  let ownKey := Fragment.ofSql (entity.keyColumn ++ " " ++ dir)
  -- An attempt is counted even if it fails.
  .note (.order resolved.type)
  match resolved.type with
  | .directReference =>
    let association ← .ofExcept (entity.require field resolved.association)
    let rank ← rankByAssociation settings orderTarget entity association options
    -- Rows without a reference come before all others.
    pure (.ofSql (column ++ " IS NULL DESC") :: rank)
  | .polymorphicReference =>
    -- rows are grouped by the type they point at
    pure [.ofSql (column ++ "_type " ++ dir), .ofSql (column ++ "_id " ++ dir)]
  | .reversedSingle | .reversedMany | .manyToMany =>
    let association ← .ofExcept (entity.require field resolved.association)
    let rank ← rankByAssociation settings orderTarget entity association options
    pure (rank ++ [ownKey])
  | .addresses =>
    let rank ← rankByAddresses settings orderTarget entity field options
    pure (rank ++ [ownKey])
  | .roles => pure [.ofSql (entity.column "roles_mask" ++ " " ++ dir)]
  | .string | .text | .email => pure [.ofSql (settings.dialect.orderText column direction)]
  | .time => pure [.ofSql (settings.dialect.orderTime column direction)]
  | _ => pure [.ofSql (settings.dialect.orderNullsLast column direction)]

/-- The expressions for a field where `levels` more associations may be followed. A target is
ordered by the field that is asked for, or else by its own default. -/
def orderClauses (settings : Settings) (levels : Nat) (entity : Entity) (field : String)
    (direction : Direction) (options : OrderOptions) : Compilation (List Fragment) :=
  match levels with
  | 0 =>
    -- Fields that are no association are still ordered here.
    orderWith settings (fun _ _ => .fail (.recursionLimit settings.maxDepth)) entity field
      direction options
  | levels + 1 =>
    orderWith settings
      (fun typeName sortField => do
        let found ← .entity typeName
        -- Below the first association only the limit of the request is kept.
        let nested : OrderOptions := { limit := options.limit, reorder := true }
        pure (found, ← orderClauses settings levels found
          (sortField.getD found.defaultSortField) direction nested))
      entity field direction options

end FieldQuery.Compile
