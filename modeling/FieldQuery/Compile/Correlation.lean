import FieldQuery.Compile.Settings

/-!
# Correlating keys

A relation over the target of an association is reduced to keys, and these are carried back, link by
link, to a column of the owner. A link takes one query to the store, or two if there is a join
table, and no query is made for keys that are not there. To rank the owners the queries keep the
order of the target rows: the rows of every hop are ordered by the rank of the keys they came from.
-/

namespace FieldQuery.Compile

open FieldQuery.Catalog FieldQuery.Sql

/-- What the keys are wanted for. -/
inductive Purpose where
  /-- Only membership counts. -/
  | filter
  /-- The order of the keys counts. -/
  | rank
deriving DecidableEq, Repr

/-- The rows of a relation with one of the keys in a column, ranked by the keys and limited if their
order counts. -/
def narrow (settings : Settings) (purpose : Purpose) (column : String) (keys : KeySet)
    (relation : Relation) : Relation :=
  let among := relation.filter (keys.inList column)
  match purpose with
  | .filter => among
  -- a filter needs all rows, so only a ranking is cut
  | .rank => (among.orderBy (keys.rankOrder? column).toList).take (settings.cap none)

/-- The rows that satisfy a condition, if there is one. -/
def restrict (condition : Option Fragment) (relation : Relation) : Relation :=
  match condition with
  | some c => relation.filter c
  | none => relation

/-- The keys of the owners that a join table links to the given targets. -/
def throughJoinTable (settings : Settings) (purpose : Purpose) (table targetKey ownerKey : String)
    (targets : KeySet) : Compilation KeySet :=
  -- an empty list of keys would need a query that finds nothing
  if targets.isEmpty then pure .empty
  else
    .keys (narrow settings purpose (qualified table targetKey) targets (.all table table))
      (qualified table ownerKey)

/-- The keys that lead back over a link from rows of its target: keys of the target for a direct or
polymorphic link, and keys of the owner otherwise. -/
def keysBack (settings : Settings) (purpose : Purpose) (link : Link) (target : Target)
    (rows : Relation) : Compilation KeySet :=
  match link.kind with
  | .direct _ | .polymorphic _ => .keys rows target.keyColumn
  | .reversed _ _ _ => .keys rows (target.column link.foreignKey)
  | .manyToMany _ joinTable targetKey => do
    throughJoinTable settings purpose joinTable targetKey link.foreignKey
      (← .keys rows target.keyColumn)

/-- The column of the owner in which the keys from `keysBack` are found. -/
def ownerColumn (owner : Target) (link : Link) : String :=
  match link.kind with
  | .direct _ | .polymorphic _ => owner.column link.foreignKey
  | .reversed _ _ _ | .manyToMany _ _ _ => owner.keyColumn

/-- The condition on rows of the owner that a polymorphic link of theirs points at the target. -/
def pointsAt? (owner : Target) (link : Link) (target : Target) : Option Fragment :=
  match link.kind with
  | .polymorphic typeColumn =>
    some (.equals (owner.column typeColumn) (.text target.name.typeName))
  | _ => none

/-- The rows of the target of a link that point at an owner of the right type. -/
def ofOwner (owner : Target) (link : Link) (target : Target) (rows : Relation) : Relation :=
  restrict (link.typeCondition? target owner.name.typeName) rows

/-- Carries rows of a target back over two links, from the target to the middle and from there to the
owner: the column of the owner to compare, and the keys to compare it with. No query is made for the
second step if the first one leads to no rows. -/
def correlateTwo (settings : Settings) (purpose : Purpose) (owner : Target) (via : Link)
    (middle : Target) (source : Link) (target : Target) (rows : Relation) :
    Compilation (String × KeySet) := do
  -- the result is compared in the column of the first step, even if there is nothing to compare
  let column := ownerColumn owner via
  let found ← keysBack settings purpose source target (ofOwner middle source target rows)
  if found.isEmpty then pure (column, .empty)
  else
    let between := narrow settings purpose (ownerColumn middle source) found
      (restrict (pointsAt? middle source target) middle.relation)
    pure (column, ← keysBack settings purpose via middle (ofOwner owner via middle between))

/-- Carries rows of the target of an association back to its owner: the column of the owner to
compare, and the keys to compare it with. -/
def correlate (settings : Settings) (purpose : Purpose) (owner : Target) (target : Target)
    (rows : Relation) : Association → Compilation (String × KeySet)
  | .step link => do
    pure (ownerColumn owner link,
      ← keysBack settings purpose link target (ofOwner owner link target rows))
  -- The middle declares no association of a fitting name, or one that is not followed.
  | .through name _ _ none _ _ => .fail (.unsupportedAssociation name .noUsableSource)
  | .through name _ via (some source) _ _ =>
    -- the middle is looked for before the two steps are looked at, so its error comes first
    match via.target? with
    | none => .fail (.unsupportedAssociation via.name .targetVaries)
    | some middle =>
      match via with
      | .through _ _ _ _ _ _ => .fail (.unsupportedAssociation name .nestedThrough)
      | .step via =>
        match source with
        | .through _ _ _ _ _ _ => .fail (.unsupportedAssociation name .nestedThrough)
        | .step source => correlateTwo settings purpose owner via middle source target rows

/-- What holds of the way back over one link and over two links, and of errors that call an
association unsupported, holds of every way back, as a computation from the rows of the target. -/
theorem correlate_cases {settings : Settings} {purpose : Purpose} {owner target : Target}
    {motive : Association → (Relation → Compilation (String × KeySet)) → Prop}
    (step : ∀ link, motive (.step link) fun rows => do
      pure (ownerColumn owner link,
        ← keysBack settings purpose link target (ofOwner owner link target rows)))
    (two : ∀ name foreignKey via source far isCollection middle, via.target? = some middle →
      motive (.through name foreignKey (.step via) (some (.step source)) far isCollection)
        (correlateTwo settings purpose owner via middle source target))
    (unsupported : ∀ association name fault,
      motive association fun _ => .fail (.unsupportedAssociation name fault))
    (association : Association) :
    motive association fun rows => correlate settings purpose owner target rows association := by
  match association with
  | .step link => exact step link
  | .through name _ via none _ _ => exact unsupported _ name .noUsableSource
  | .through name _ via (some source) _ _ =>
    simp only [correlate]
    cases hmiddle : via.target? with
    | none => exact unsupported _ via.name .targetVaries
    | some middle =>
      match via, source with
      | .through _ _ _ _ _ _, _ => exact unsupported _ name .nestedThrough
      | .step _, .through _ _ _ _ _ _ => exact unsupported _ name .nestedThrough
      | .step via, .step source => exact two _ _ via source _ _ middle hmiddle

end FieldQuery.Compile
