import FieldQuery.Sql.Fragment

/-!
# Dialects of SQL

The engines differ in where they put NULLs in an ordering, in the operator for a match that ignores
case, in how a time of day is taken apart, and in whether a text parameter has to be cast to a date.
-/

namespace FieldQuery.Sql

open FieldQuery.Text

/-- The engine a statement is written for. -/
inductive Dialect where
  | mysql
  | postgres
  | sqlite
deriving DecidableEq, Repr, Inhabited

/-- What rows are compared by. Of the tests, false comes before true. -/
inductive SortKey where
  | value (expression : String)
  /-- Whether an expression is NULL. -/
  | isNull (expression : String)
  /-- Whether an expression is the empty text. -/
  | isEmpty (expression : String)
deriving DecidableEq, Repr

/-- One item of an ordering; rows that agree on it are compared by the next one. -/
structure SortItem where
  key : SortKey
  /-- The direction, if it is written; ascending if it is not. -/
  direction : Option Direction
  /-- NULLs come last whatever the direction. Otherwise it depends on the engine where they come. -/
  putsNullsLast : Bool
deriving DecidableEq, Repr

namespace Dialect

/-- The name of a dialect. -/
def name : Dialect → String
  | mysql => "mysql"
  | postgres => "postgres"
  | sqlite => "sqlite"

/-- The dialect with a given name. -/
def ofName? : String → Option Dialect
  | "mysql" | "mariadb" => some mysql
  | "postgres" | "postgresql" => some postgres
  | "sqlite" => some sqlite
  | _ => none

/-- The dialect that the scheme of a connection URL names, in any case. -/
def ofUrl? (url : String) : Option Dialect :=
  ofName? (String.ofList (asciiLower (url.toList.takeWhile (· != ':'))))

/-- Whether placeholders are numbered and texts are cast. -/
def isPostgres (dialect : Dialect) : Bool :=
  dialect == postgres

/-- The operator that matches a pattern without regard to case. -/
def fuzzyOperator : Dialect → String
  | postgres => "ILIKE"
  | mysql | sqlite => "LIKE"

/-! ## Times of day -/

/-- The hour of a time. -/
def extractHour (dialect : Dialect) (column : String) : String :=
  match dialect with
  | sqlite => "CAST(strftime('%H', " ++ column ++ ") AS INTEGER)"
  | mysql | postgres => "EXTRACT(HOUR FROM " ++ column ++ ")"

/-- The minute of a time. -/
def extractMinute (dialect : Dialect) (column : String) : String :=
  match dialect with
  | sqlite => "CAST(strftime('%M', " ++ column ++ ") AS INTEGER)"
  | mysql | postgres => "EXTRACT(MINUTE FROM " ++ column ++ ")"

/-! ## Orderings -/

/-- The items that order by an expression, NULLs after all else in both directions. -/
def nullsLast (dialect : Dialect) (expression : String) (direction : Direction) : List SortItem :=
  match dialect with
  -- without a direction false comes first, so the rows that are NULL come last
  | mysql | sqlite => [⟨.isNull expression, none, false⟩, ⟨.value expression, direction, false⟩]
  -- Here the place of NULLs is written out.
  | postgres => [⟨.value expression, direction, true⟩]

/-- The items that order by a text, empty texts after the others and NULLs after these. -/
def textOrder (dialect : Dialect) (column : String) (direction : Direction) : List SortItem :=
  let blankLast : SortItem := ⟨.isEmpty column, Direction.ascending, false⟩
  match dialect with
  | mysql | sqlite => [⟨.isNull column, none, false⟩, blankLast, ⟨.value column, direction, false⟩]
  | postgres => [blankLast, ⟨.value column, direction, true⟩]

/-- The items that order by a time of day, first by the hour and then by the minute, NULLs last. -/
def timeOrder (dialect : Dialect) (column : String) (direction : Direction) : List SortItem :=
  let hour := SortKey.value (dialect.extractHour column)
  let minute := SortKey.value (dialect.extractMinute column)
  match dialect with
  | mysql | sqlite =>
    [⟨.isNull column, none, false⟩, ⟨hour, direction, false⟩, ⟨minute, direction, false⟩]
  | postgres => [⟨hour, direction, true⟩, ⟨minute, direction, true⟩]

/-- The SQL of a sort key. -/
def keySql (dialect : Dialect) : SortKey → String
  | .value expression => expression
  | .isNull expression =>
    match dialect with
    | mysql => "ISNULL(" ++ expression ++ ")"
    | postgres | sqlite => expression ++ " IS NULL"
  | .isEmpty expression => expression ++ " = ''"

/-- The SQL of one item of an ordering. -/
def itemSql (dialect : Dialect) (item : SortItem) : String :=
  dialect.keySql item.key
    ++ (match item.direction with | some d => " " ++ d.sql | none => "")
    ++ (if item.putsNullsLast then " NULLS LAST" else "")

/-- The SQL of an ordering. -/
def sortSql (dialect : Dialect) (items : List SortItem) : String :=
  ", ".intercalate (items.map dialect.itemSql)

/-- Orders by an expression, NULLs last. -/
def orderNullsLast (dialect : Dialect) (expression : String) (direction : Direction) : String :=
  dialect.sortSql (dialect.nullsLast expression direction)

/-- Orders by a text, empty texts and NULLs last. -/
def orderText (dialect : Dialect) (column : String) (direction : Direction) : String :=
  dialect.sortSql (dialect.textOrder column direction)

/-- Orders by a time of day, NULLs last. -/
def orderTime (dialect : Dialect) (column : String) (direction : Direction) : String :=
  dialect.sortSql (dialect.timeOrder column direction)

/-! ## Casts -/

/-- The placeholder of a timestamp that is given as text. -/
def timestampPlaceholder (dialect : Dialect) : String :=
  if dialect.isPostgres then "CAST(? AS timestamp)" else "?"

/-- The placeholder of a date that is given as text. -/
def datePlaceholder (dialect : Dialect) : String :=
  if dialect.isPostgres then "CAST(? AS date)" else "?"

end Dialect

end FieldQuery.Sql
