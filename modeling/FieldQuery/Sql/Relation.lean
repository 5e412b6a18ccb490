import FieldQuery.Sql.Dialect

/-!
# Relations

A relation describes rows of one table: joins, conditions that all hold, groups, conditions on the
groups, orderings and a limit. It is only ever extended, and turned into a statement at the end.
The parameters of a statement are those of the conditions, then those of the group conditions, then
those of the orderings, which is the order of their placeholders in the text.
-/

namespace FieldQuery.Sql

open FieldQuery.Text

/-- A column with the name of its table. -/
def qualified (table column : String) : String :=
  table ++ "." ++ column

/-- Rows of a table under filters and orderings. -/
structure Relation where
  table : String
  /-- The type name of the entity whose rows these are. -/
  typeName : String
  joins : List String := []
  conditions : List Fragment := []
  groups : List String := []
  havings : List Fragment := []
  orders : List Fragment := []
  limit : Option Nat := none
deriving DecidableEq, Repr, Inhabited

/-- A statement as it is sent to the store. -/
structure Statement where
  sql : String
  params : List Param
deriving DecidableEq, Repr, Inhabited

namespace Relation

/-! ## Building -/

/-- All rows of a table. -/
def all (table typeName : String) : Relation :=
  { table, typeName }

/-- The rows that also satisfy a condition. -/
def filter (condition : Fragment) (r : Relation) : Relation :=
  { r with conditions := r.conditions ++ [condition] }

/-- The groups that also satisfy a condition. -/
def having (condition : Fragment) (r : Relation) : Relation :=
  { r with havings := r.havings ++ [condition] }

/-- The rows grouped by one more expression. -/
def group (expression : String) (r : Relation) : Relation :=
  { r with groups := r.groups ++ [expression] }

/-- The rows joined by one more clause. -/
def join (clause : String) (r : Relation) : Relation :=
  { r with joins := r.joins ++ [clause] }

/-- The rows ordered further by the expressions, after the orderings already there. -/
def orderBy (expressions : List Fragment) (r : Relation) : Relation :=
  { r with orders := r.orders ++ expressions }

/-- The rows without any ordering. -/
def reorder (r : Relation) : Relation :=
  { r with orders := [] }

/-- At most `n` of the rows, whatever limit was set before. -/
def take (n : Nat) (r : Relation) : Relation :=
  { r with limit := some n }

/-! ## Rendering -/

/-- Conditions joined by AND, in parentheses if there are several. -/
def conjunction : List Fragment → String
  | [condition] => condition.sql
  | conditions => " AND ".intercalate (conditions.map fun c => "(" ++ c.sql ++ ")")

/-- A clause of a statement, left out if it would be empty. -/
def clause {α : Type} (keyword : String) (body : List α → String) (items : List α) : String :=
  if items.isEmpty then "" else keyword ++ body items

/-- The text of the statement that selects a projection, with `?` for every parameter. -/
def selectText (r : Relation) (projection : String) : String :=
  "SELECT " ++ projection ++ " FROM " ++ r.table
    ++ String.join (r.joins.map fun j => " " ++ j)
    ++ clause " WHERE " conjunction r.conditions
    ++ clause " GROUP BY " (fun gs => ", ".intercalate gs) r.groups
    ++ clause " HAVING " conjunction r.havings
    ++ clause " ORDER BY " (fun os => ", ".intercalate (os.map (·.sql))) r.orders
    ++ (match r.limit with | some n => " LIMIT " ++ toString n | none => "")

/-- The parameters in the order of their placeholders. -/
def params (r : Relation) : List Param :=
  -- in the order in which the clauses stand in the text
  (r.conditions ++ r.havings ++ r.orders).flatMap (·.params)

/-- A text in which the placeholders are numbered, the first one by `n`. -/
def numberedFrom (n : Nat) : List Char → List Char
  | [] => []
  | c :: rest =>
    if c = '?' then '$' :: natDigits n ++ numberedFrom (n + 1) rest
    else c :: numberedFrom n rest

/-- The statement that selects a projection. -/
def statement (r : Relation) (dialect : Dialect) (projection : String) : Statement :=
  let text := r.selectText projection
  { sql := if dialect.isPostgres then String.ofList (numberedFrom 1 text.toList) else text
    params := r.params }

/-- A text with its first `?` replaced. -/
def fillFirst (value : List Char) : List Char → List Char
  | [] => []
  | c :: rest => if c = '?' then value ++ rest else c :: fillFirst value rest

/-- The statement with the parameters written into it, for reading only. One parameter after
another replaces the first `?` that is left in the text. -/
def inlineText (r : Relation) (projection : String) : String :=
  String.ofList (r.params.foldl (fun text p => fillFirst p.literal.toList text)
    (r.selectText projection).toList)

end Relation

end FieldQuery.Sql
