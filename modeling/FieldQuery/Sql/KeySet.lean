import FieldQuery.Sql.Fragment

/-!
# Key sets

The keys plucked from a relation, in the order of their first occurrence, without NULLs and without
repetition. A key set becomes a membership test or a ranking of rows.
-/

namespace FieldQuery.Sql

/-- A value of a key column. -/
inductive Key where
  | integer (value : Int64)
  | text (value : String)
deriving DecidableEq, Repr

/-- A key as a parameter. -/
def Key.param : Key → Param
  | .integer n => .integer n
  | .text s => .text s

/-- The key that no row has. -/
def sentinelKey : Int64 := 0

/-- Keys in order, each of them once. -/
structure KeySet where
  keys : List Key
  nodup : keys.Nodup := by decide
deriving DecidableEq, Repr

namespace KeySet

/-- The set without keys. -/
def empty : KeySet where
  keys := []

instance : Inhabited KeySet := ⟨empty⟩

/-- A set with one more key at its end, unless it is there already. -/
def insert (s : KeySet) (key : Key) : KeySet :=
  if h : key ∈ s.keys then s
  else
    { keys := s.keys ++ [key]
      nodup := by
        rw [List.nodup_append]
        exact ⟨s.nodup, by simp, by
          intro a ha b hb hab
          exact h (by simp at hb; exact hb ▸ hab ▸ ha)⟩ }

/-- The keys of a list at their first occurrences. -/
def ofList (keys : List Key) : KeySet :=
  keys.foldl insert empty

/-- The keys of a plucked column. -/
def ofPlucked (column : List (Option Key)) : KeySet :=
  ofList (column.filterMap id)

/-- The number of keys. -/
def size (s : KeySet) : Nat :=
  s.keys.length

/-- Whether there is no key. -/
def isEmpty (s : KeySet) : Bool :=
  s.keys.isEmpty

/-- The keys as parameters. -/
def params (s : KeySet) : List Param :=
  s.keys.map Key.param

/-- The condition that a column holds one of the keys. Without keys it is compared with the key
that no row has, so that the statement stays well formed. -/
def inList (column : String) (s : KeySet) : Fragment :=
  if s.isEmpty then ⟨column ++ " IN (?)", [.integer sentinelKey]⟩
  else ⟨column ++ " IN (" ++ ", ".intercalate (s.keys.map fun _ => "?") ++ ")", s.params⟩

/-- The ordering that puts rows with an earlier key first; without keys there is none. -/
def rankOrder? (column : String) (s : KeySet) : Option Fragment :=
  if s.isEmpty then none
  else some ⟨", ".intercalate (s.keys.map fun _ => column ++ " = ? DESC"), s.params⟩

end KeySet

end FieldQuery.Sql
