import FieldQuery.Naming.EntityName
import FieldQuery.Sql.Relation

/-!
# Associations

An association leads from the rows of an entity, the owner, to rows of another one, the target. A
link is an association over one step, told apart by where the key is kept:

- direct: a column of the owner holds the key of the target;
- polymorphic: the same, and a second column holds the type of the target;
- reversed: a column of the target holds the key of the owner;
- many to many: a join table holds the keys of both.

An association *through* another one goes on from where that one leads, from an entity in the middle
to the target. It may be written over any two associations; a catalog has only those over two links.
-/

namespace FieldQuery.Catalog

open FieldQuery.Naming FieldQuery.Sql

/-- The entity on the far side of an association. -/
structure Target where
  name : EntityName
  table : String
  primaryKey : String
deriving DecidableEq, Repr, Inhabited

namespace Target

/-- A column of the target. -/
def column (target : Target) (name : String) : String :=
  qualified target.table name

/-- The column of the primary key of the target. -/
def keyColumn (target : Target) : String :=
  target.column target.primaryKey

/-- All rows of the target. -/
def relation (target : Target) : Relation :=
  .all target.table target.name.typeName

end Target

/-- The columns of the target that tell the rows of this owner from those of other types that the
target may point at. -/
structure Discriminator where
  typeColumn : String
  idColumn : String
  /-- What the type column holds for rows of the owner. -/
  typeValue : String
deriving DecidableEq, Repr, Inhabited

/-- How many rows of the target a reversed link leads to. -/
inductive Reversal where
  | single
  | many
  /-- Many, which are saved with the owner. -/
  | owned
deriving DecidableEq, Repr, Inhabited

/-- Where the key of a link is kept. -/
inductive LinkKind where
  | direct (target : Target)
  | polymorphic (typeColumn : String)
  | reversed (form : Reversal) (target : Target) (discriminator : Option Discriminator)
  /-- The target key is the column of the join table that points at the target. -/
  | manyToMany (target : Target) (joinTable targetKey : String)
deriving DecidableEq, Repr, Inhabited

/-- An association over one step. -/
structure Link where
  name : String
  /-- The column that holds the key: of the owner for direct and polymorphic links, of the target
  for reversed ones, and of the join table, pointing at the owner, otherwise. -/
  foreignKey : String
  kind : LinkKind
deriving DecidableEq, Repr, Inhabited

namespace Link

/-- The far side of a link, unless it varies from row to row. -/
def target? (link : Link) : Option Target :=
  match link.kind with
  | .direct target | .reversed _ target _ | .manyToMany target _ _ => some target
  | .polymorphic _ => none

/-- The name of the kind of a link. -/
def label (link : Link) : String :=
  match link.kind with
  | .direct _ => "direct_reference"
  | .polymorphic _ => "polymorphic_reference"
  | .reversed .single _ _ => "reversed_single"
  | .reversed .many _ _ => "reversed_many"
  | .reversed .owned _ _ => "nested_owned"
  | .manyToMany _ _ _ => "many_to_many"

/-- The condition on rows of a target that they point at an owner of the given type. -/
def typeCondition? (link : Link) (target : Target) (ownerType : String) : Option Fragment :=
  match link.kind with
  | .reversed _ _ (some d) => some (.equals (target.column d.typeColumn) (.text ownerType))
  | _ => none

end Link

/-- An association of an entity. -/
inductive Association where
  /-- An association over one step. -/
  | step (link : Link)
  /-- An association over `via` to the middle, and over `source` from there to the target. The latter
  is missing if the middle declares none, or only one that goes through another one itself. -/
  | through (name foreignKey : String) (via : Association) (source : Option Association)
      (target : Option Target) (isCollection : Bool)
deriving Repr, Inhabited

namespace Association

mutual

/-- Associations are compared part by part. -/
def decEq : (a b : Association) → Decidable (a = b)
  | .step link, .step link' => decidable_of_iff (link = link') (by simp)
  | .step _, .through _ _ _ _ _ _ => isFalse nofun
  | .through _ _ _ _ _ _, .step _ => isFalse nofun
  | .through name foreignKey via source target isCollection,
      .through name' foreignKey' via' source' target' isCollection' =>
    -- `via` and `source` are associations again, so the comparison descends into both
    have := via.decEq via'
    have := decEqSource source source'
    decidable_of_iff (name = name' ∧ foreignKey = foreignKey' ∧ via = via' ∧ source = source' ∧
      target = target' ∧ isCollection = isCollection') (by simp)

/-- The second steps of two associations are compared. -/
def decEqSource : (a b : Option Association) → Decidable (a = b)
  | none, none => isTrue rfl
  | none, some _ => isFalse nofun
  | some _, none => isFalse nofun
  | some a, some b =>
    have := a.decEq b
    decidable_of_iff (a = b) (by simp)

end

instance : DecidableEq Association := decEq

/-- The name of an association. -/
def name : Association → String
  | .step link => link.name
  | .through name _ _ _ _ _ => name

/-- The key of an association. -/
def foreignKey : Association → String
  | .step link => link.foreignKey
  | .through _ foreignKey _ _ _ _ => foreignKey

/-- The far side of an association, unless it varies from row to row or is not known. -/
def target? : Association → Option Target
  | .step link => link.target?
  | .through _ _ _ _ target _ => target

/-- The name of the kind of an association. -/
def label : Association → String
  | .step link => link.label
  | .through _ _ _ _ _ _ => "through"

/-- Whether a column of the owner holds the key of one known target. -/
def isDirect : Association → Bool
  | .step ⟨_, _, .direct _⟩ => true
  | _ => false

/-- Whether two columns of the owner hold the type and the key of the target. -/
def isPolymorphic : Association → Bool
  | .step ⟨_, _, .polymorphic _⟩ => true
  | _ => false

/-- Whether one row of the target points at the owner. -/
def isReversedSingle : Association → Bool
  | .step ⟨_, _, .reversed .single _ _⟩ => true
  | _ => false

/-- Whether many rows of the target, which are not saved with the owner, point at it. -/
def isReversedMany : Association → Bool
  | .step ⟨_, _, .reversed .many _ _⟩ => true
  | _ => false

/-- Whether many rows of the target, which are saved with the owner, point at it. -/
def isOwned : Association → Bool
  | .step ⟨_, _, .reversed .owned _ _⟩ => true
  | _ => false

/-- Whether a join table holds the keys of both sides. -/
def isManyToMany : Association → Bool
  | .step ⟨_, _, .manyToMany _ _ _⟩ => true
  | _ => false

/-- Whether an association goes through another one. -/
def isThrough : Association → Bool
  | .through _ _ _ _ _ _ => true
  | .step _ => false

end Association

end FieldQuery.Catalog
