import FieldQuery.Error
import FieldQuery.Json.Basic
import FieldQuery.Metrics
import FieldQuery.Naming.EntityName
import FieldQuery.Sql.Relation

/-!
# Scopes

A member of an entity takes no argument and may write to the store. Whether it is a scope, that is,
whether it gives a relation, is found out by invoking it inside a transaction that is rolled back
whatever comes of it.
-/

namespace FieldQuery.Store

open FieldQuery.Naming FieldQuery.Sql

/-- What a member gives. -/
inductive MemberOutput where
  | relation (rows : Relation)
  | value (value : Json)
deriving Repr

/-- A member, as a computation on a store of type `σ`. -/
abbrev Member (σ : Type) := σ → Except StorageError MemberOutput × σ

/-- The result of a computation on a store, and the store as it was before. -/
def rolledBack {σ α : Type} (work : σ → α × σ) (store : σ) : α × σ :=
  ((work store).1, store)

/-- The members of entities, under canonical type names. -/
structure Members (σ : Type) where
  entries : List ((String × String) × Member σ) := []

namespace Members

variable {σ : Type}

/-- Members with one more; one of the same entity and name is replaced. -/
def add (entity name : String) (member : Member σ) (members : Members σ) : Members σ :=
  ⟨((canonicalTypeName entity, name), member) :: members.entries⟩

/-- The member of a canonical type name. -/
def find? (members : Members σ) (typeName name : String) : Option (Member σ) :=
  members.entries.lookup (typeName, name)

/-- What comes of invoking a member, and the store afterwards. -/
def probe (members : Members σ) (typeName name : String) (store : σ) : ProbeOutcome × σ :=
  match members.find? typeName name with
  | none => (.missing, store)
  | some member =>
    -- what the member does to the store does not last
    match rolledBack member store with
    | (.ok (.relation _), s) => (.scope, s)
    | (.ok (.value _), s) => (.value, s)
    | (.error _, s) => (.error, s)

end Members

end FieldQuery.Store
