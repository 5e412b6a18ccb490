import FieldQuery.Catalog.Association
import FieldQuery.Proofs.Sql.Rows

/-!
# Which rows an association joins

A link joins a row of its owner to a row of its target if the keys say so, and also the type columns
of a link that is polymorphic or reversed with a discriminator. An association through another one
leads from an owner to a target if some row of the middle is between them.

The keys of a correlation describe the same from the far side: every key that a target row carries
back stands for the owners that have it in their own column.
-/

namespace FieldQuery.Catalog

open FieldQuery.Sql

variable {db : Database} {owner target : Target} {o t : Row}

namespace Link

variable {link : Link}

/-- Whether a link joins a row of its owner to a row of its target. -/
def Joins (db : Database) (owner target : Target) (link : Link) (o t : Row) : Prop :=
  match link.kind with
  | .direct _ => SameKey (o link.foreignKey) (t target.primaryKey)
  | .polymorphic typeColumn =>
    o typeColumn = some (.text target.name.typeName) ∧
      SameKey (o link.foreignKey) (t target.primaryKey)
  | .reversed _ _ discriminator =>
    SameKey (o owner.primaryKey) (t link.foreignKey) ∧
      ∀ d ∈ discriminator, t d.typeColumn = some (.text owner.name.typeName)
  | .manyToMany _ joinTable targetKey =>
    ∃ j ∈ db.rows joinTable,
      SameKey (o owner.primaryKey) (j link.foreignKey) ∧ SameKey (j targetKey) (t target.primaryKey)

/-! ## The two sides of a link -/

/-- The column of the owner that takes part in a link. -/
def ownColumn (owner : Target) (link : Link) : String :=
  match link.kind with
  | .direct _ | .polymorphic _ => link.foreignKey
  | .reversed _ _ _ | .manyToMany _ _ _ => owner.primaryKey

/-- Whether an owner row points at rows of the type of the target. -/
def Points (target : Target) (link : Link) (o : Row) : Prop :=
  match link.kind with
  | .polymorphic typeColumn => o typeColumn = some (.text target.name.typeName)
  | _ => True

/-- Whether a target row points at rows of the type of the owner. -/
def Fits (owner : Target) (link : Link) (t : Row) : Prop :=
  match link.kind with
  | .reversed _ _ (some d) => t d.typeColumn = some (.text owner.name.typeName)
  | _ => True

/-- Whether a target row leads back to a key of owners. -/
def Reaches (db : Database) (target : Target) (link : Link) (t : Row) (key : Key) : Prop :=
  match link.kind with
  | .direct _ | .polymorphic _ => t target.primaryKey = some key
  | .reversed _ _ _ => t link.foreignKey = some key
  | .manyToMany _ joinTable targetKey =>
    ∃ j ∈ db.rows joinTable,
      SameKey (j targetKey) (t target.primaryKey) ∧ j link.foreignKey = some key

/-- A link joins two rows if both are of the right type and the target row leads back to the key
that the owner row has in its own column. -/
theorem joins_iff :
    link.Joins db owner target o t ↔
      link.Points target o ∧ link.Fits owner t ∧
        ∃ key, o (link.ownColumn owner) = some key ∧ link.Reaches db target t key := by
  obtain ⟨name, foreignKey, kind⟩ := link
  cases kind with
  | direct => simp [Joins, Points, Fits, ownColumn, Reaches, SameKey]
  | polymorphic typeColumn => simp [Joins, Points, Fits, ownColumn, Reaches, SameKey]
  | reversed form far discriminator =>
    cases discriminator <;> simp [Joins, Points, Fits, ownColumn, Reaches, SameKey, and_comm]
  -- only here is the row reached not the row with the key: the join table row stands in between
  | manyToMany far joinTable targetKey =>
    simp only [Joins, Points, Fits, ownColumn, Reaches, SameKey, true_and]
    constructor
    · rintro ⟨j, hj, ⟨key, ho, hback⟩, hfar⟩
      exact ⟨key, ho, j, hj, hfar, hback⟩
    · rintro ⟨key, ho, j, hj, hfar, hback⟩
      exact ⟨j, hj, ⟨key, ho, hback⟩, hfar⟩

/-- Only a link without one known target has a type column of its own. -/
theorem points_of_target? {middle : Target} (h : link.target? = some middle) :
    link.Points target o := by
  obtain ⟨name, foreignKey, kind⟩ := link
  cases kind with
  | polymorphic => cases h
  | _ => trivial

end Link

namespace Association

/-- Whether an association leads from a row of its owner to a row of its target. -/
def Leads (db : Database) (owner target : Target) (association : Association) (o t : Row) : Prop :=
  match association with
  | .step link => link.Joins db owner target o t
  | .through _ _ via (some source) _ _ =>
    ∃ middle, via.target? = some middle ∧
      ∃ m ∈ db.rows middle.table, via.Leads db owner middle o m ∧ source.Leads db middle target m t
  | .through _ _ _ none _ _ => False

/-- The column of the owner that takes part in an association. -/
def ownColumn (owner : Target) : Association → String
  | .step link => link.ownColumn owner
  | .through _ _ via _ _ _ => via.ownColumn owner

/-- Whether a row of the target carries a key of owners back over an association. -/
def Carries (db : Database) (owner target : Target) (association : Association) (t : Row)
    (key : Key) : Prop :=
  match association with
  | .step link => link.Fits owner t ∧ link.Reaches db target t key
  | .through _ _ via (some source) _ _ =>
    ∃ middle, via.target? = some middle ∧
      ∃ m ∈ db.rows middle.table,
        source.Leads db middle target m t ∧ via.Carries db owner middle m key
  | .through _ _ _ none _ _ => False

/-- An association whose target is known leads from an owner row to a target row if that row carries
back the key that the owner row has in its own column. -/
theorem leads_iff {association : Association} {owner target known : Target} {o t : Row}
    (h : association.target? = some known) :
    association.Leads db owner target o t ↔
      ∃ key, o (association.ownColumn owner) = some key ∧
        association.Carries db owner target t key := by
  match association with
  | .step link =>
    simp only [Leads, ownColumn, Carries, Link.joins_iff, Link.points_of_target? h, true_and]
    exact ⟨fun ⟨hfits, key, ho, ht⟩ => ⟨key, ho, hfits, ht⟩,
      fun ⟨key, ho, hfits, ht⟩ => ⟨hfits, key, ho, ht⟩⟩
  | .through _ _ _ none _ _ => simp [Leads, Carries]
  | .through _ _ via (some source) _ _ =>
    simp only [Leads, ownColumn, Carries]
    -- The first step decides about the key, whatever the second one is.
    constructor
    · rintro ⟨middle, hmiddle, m, hm, hvia, hsource⟩
      obtain ⟨key, ho, hback⟩ := (leads_iff hmiddle).mp hvia
      exact ⟨key, ho, middle, hmiddle, m, hm, hsource, hback⟩
    · rintro ⟨key, ho, middle, hmiddle, m, hm, hsource, hback⟩
      exact ⟨middle, hmiddle, m, hm, (leads_iff hmiddle).mpr ⟨key, ho, hback⟩, hsource⟩

end Association

end FieldQuery.Catalog
