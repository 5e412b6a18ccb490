import FieldQuery.Naming.EntityName

/-!
# Remembered names

A memo keeps the names of the identifiers that have been resolved, one entry for each identifier
that can be parsed.
-/

namespace FieldQuery.Naming

/-- The identifiers resolved so far and their names. -/
structure NameMemo where
  entries : List (String × EntityName) := []
deriving Repr, Inhabited

namespace NameMemo

/-- The number of identifiers remembered. -/
def size (memo : NameMemo) : Nat :=
  memo.entries.length

/-- The name of an identifier, looked up first and remembered if it had to be parsed. -/
def resolve (memo : NameMemo) (identifier : String) : Except QueryError EntityName × NameMemo :=
  match memo.entries.lookup identifier with
  | some name => (.ok name, memo)
  | none =>
    match EntityName.parse identifier with
    | .ok name => (.ok name, ⟨(identifier, name) :: memo.entries⟩)
    -- identifiers that cannot be parsed are not remembered
    | .error e => (.error e, memo)

end NameMemo

end FieldQuery.Naming
