import FieldQuery.Error
import FieldQuery.Metrics

/-!
# Key columns

A table with one column `k` of cells of any kind and a column `pos` of their positions. A pluck
selects rows by the cell and by the position and reads the cells as keys: numbers and texts are keys
as they are, NULLs are passed on, and bytes are keys if they are the encoding of a text. Numbers and
texts are never equal.
-/

namespace FieldQuery.Store

open FieldQuery.Sql FieldQuery.Text

/-- A stored value. -/
inductive Cell where
  | null
  | integer (value : Int64)
  | text (value : String)
  | bytes (value : List UInt8)
deriving DecidableEq, Repr, Inhabited

namespace Cell

/-- A cell as a key of the named column. -/
def readKey (column : String) : Cell → Except StorageError (Option Key)
  | null => .ok none
  | integer n => .ok (some (.integer n))
  | text s => .ok (some (.text s))
  | bytes bs =>
    match String.fromUTF8? ⟨bs.toArray⟩ with
    | some s => .ok (some (.text s))
    | none => .error (.decode column)

/-- Whether a cell equals the value of a placeholder. Numbers are compared by their value, and a
truth value counts as one or zero. -/
def equals : Cell → Param → Bool
  | integer n, .integer m => n == m
  | integer n, .boolean b => n == if b then 1 else 0
  | integer n, .float x => x.isInt n.toInt
  | text s, .text t => s == t
  | _, _ => false

end Cell

/-- What is plucked from every row, or from all of them. -/
inductive Projection where
  | cell
  | position
  /-- The number of cells that are not NULL. -/
  | cellCount
  | rowCount
deriving DecidableEq, Repr

/-- The projection that an SQL expression names. -/
def Projection.ofSql? (expression : String) : Option Projection :=
  match String.ofList (asciiLower (trim expression.toList)) with
  | "k" | "t.k" => some cell
  | "pos" | "t.pos" => some position
  | "count(k)" | "count(t.k)" => some cellCount
  | "count(*)" | "count(pos)" | "count(t.pos)" => some rowCount
  | _ => none

/-- Which rows to take, in which order. -/
structure Selection where
  /-- The value that the cell equals. -/
  equals : Option Param := none
  /-- The least position. -/
  start : Int := 0
  /-- The last rows come first. -/
  isReversed : Bool := false
  limit : Option Nat := none
deriving DecidableEq, Repr, Inhabited

/-- At most so many items, if there is a limit. -/
def upTo {α : Type} (limit : Option Nat) (items : List α) : List α :=
  match limit with
  | some n => items.take n
  | none => items

namespace Selection

/-- The rows of a table that match, with their positions, in the order of their positions. -/
def rows (selection : Selection) (table : List Cell) : List (Cell × Nat) :=
  table.zipIdx.filter fun (cell, position) =>
    selection.start ≤ position && selection.equals.all cell.equals

/-- The cells that a projection gives for the matching rows. -/
def project (selection : Selection) (projection : Projection) (table : List Cell) : List Cell :=
  let matched := selection.rows table
  let inOrder := if selection.isReversed then matched.reverse else matched
  let number (n : Nat) : Cell := .integer (Int64.ofNat n)
  upTo selection.limit <|
    match projection with
    | .cell => inOrder.map (·.1)
    | .position => inOrder.map fun r => number r.2
    -- a count is one row, whatever it counts
    | .cellCount => [number (matched.filter fun r => r.1 != .null).length]
    | .rowCount => [number matched.length]

end Selection

/-- The name of the table. -/
def columnTable : String := "t"

/-- Plucks an expression from the matching rows. The pluck is counted once the rows are there, even
if one of them cannot be read as a key. -/
def pluckColumn (table : List Cell) (expression : String) (selection : Selection) (tally : Tally) :
    Except StorageError (List (Option Key)) × Tally :=
  match Projection.ofSql? expression with
  | none => (.error (.backend ("no such column: " ++ expression)), tally)
  | some projection =>
    let cells := selection.project projection table
    (cells.mapM (Cell.readKey expression), tally.pluck columnTable cells.length)

end FieldQuery.Store
