import FieldQuery.Number.Shortest
import FieldQuery.Text.Blank
import FieldQuery.Text.Piece

/-!
# Fragments of SQL

A fragment is a piece of SQL text with `?` placeholders and the parameters that fill them, in the
order of the placeholders. Values travel in parameters and never in the text.
-/

namespace FieldQuery.Sql

open FieldQuery.Number FieldQuery.Text

/-- The value of a placeholder. -/
inductive Param where
  | text (value : String)
  | integer (value : Int64)
  | float (value : Binary64)
  | boolean (value : Bool)
deriving DecidableEq, Repr

/-- SQL text and the parameters of its placeholders. -/
structure Fragment where
  sql : String
  params : List Param
deriving DecidableEq, Repr, Inhabited

namespace Fragment

/-- A text without parameters. -/
def ofSql (sql : String) : Fragment :=
  ⟨sql, []⟩

/-- A condition that no row satisfies. -/
def never : Fragment :=
  ofSql "1=0"

/-- Fragments with a separator between them; the parameters follow one another. -/
def join (separator : String) (fragments : List Fragment) : Fragment :=
  ⟨separator.intercalate (fragments.map (·.sql)), fragments.flatMap (·.params)⟩

/-- The condition that an expression equals a parameter. -/
def equals (expression : String) (value : Param) : Fragment :=
  ⟨expression ++ " = ?", [value]⟩

end Fragment

/-- A direction of ordering. -/
inductive Direction where
  | ascending
  | descending
deriving DecidableEq, Repr, Inhabited

namespace Direction

/-- The keyword of a direction. -/
def sql : Direction → String
  | ascending => "ASC"
  | descending => "DESC"

/-- The direction a text asks for: descending if it starts with `desc` in any case, after white
space, and ascending otherwise. -/
def ofText (text : String) : Direction :=
  if "desc".toList.isPrefixOf (asciiLower (trim text.toList)) then descending else ascending

end Direction

/-- Numbers inside a statement are written without an exponent, and a whole number without a
point. A tie between two decimals goes up. -/
def literalLayout : Layout where
  tie := .up
  keepsPoint := false
  isPositional _ := true

/-- A parameter written into the statement, with the quotes of a text doubled. -/
def Param.literal : Param → String
  | .text s =>
    let doubled := s.toList.flatMap fun c => if c = '\x27' then ['\x27', '\x27'] else [c]
    String.ofList ('\x27' :: doubled ++ ['\x27'])
  | .integer n => intText n.toInt
  | .float x => x.text literalLayout
  | .boolean true => "TRUE"
  | .boolean false => "FALSE"

end FieldQuery.Sql
