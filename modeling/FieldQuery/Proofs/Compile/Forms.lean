import FieldQuery.Compile.Condition

/-!
# Forms of conditions

The form of a fragment is its text and the number of its parameters. Which forms the condition of a
field may have depends on the type of the field, on its column and on the dialect, and not on the
value that is searched for.
-/

namespace FieldQuery

open FieldQuery.Calendar FieldQuery.Number FieldQuery.Sql FieldQuery.Value

/-- The text of a fragment and the number of its parameters. -/
def Sql.Fragment.form (fragment : Fragment) : String × Nat :=
  (fragment.sql, fragment.params.length)

namespace Compile

/-! ## The forms -/

/-- The form of a comparison with one value. -/
def equalForm (column : String) : String × Nat :=
  (column ++ " = ?", 1)

/-- The forms of a number: the number itself, or a range in one of two directions. -/
def numberForms (column : String) : List (String × Nat) :=
  [equalForm column, (column ++ " >= ? AND " ++ column ++ " < ?", 2),
    (column ++ " <= ? AND " ++ column ++ " > ?", 2)]

/-- The form of a match of a text. -/
def textForm (dialect : Dialect) (fuzzy : Bool) (column : String) : String × Nat :=
  if fuzzy then (column ++ " " ++ dialect.fuzzyOperator ++ " ?", 1) else equalForm column

/-- The form of a bucket of dates or of moments. -/
def bucketForm (dialect : Dialect) (type : FieldType) (column : String) : String × Nat :=
  let placeholder := if type = .date then dialect.datePlaceholder else dialect.timestampPlaceholder
  (column ++ " >= " ++ placeholder ++ " AND " ++ column ++ " <= " ++ placeholder, 2)

/-- The forms of a time of day, without the minute and with it. -/
def timeForms (dialect : Dialect) (column : String) : List (String × Nat) :=
  [equalForm (dialect.extractHour column),
    (dialect.extractHour column ++ " = ? AND " ++ dialect.extractMinute column ++ " = ?", 2)]

/-- The forms of a polymorphic reference, with a type and a key and with one of them. -/
def polymorphicForms (column : String) : List (String × Nat) :=
  [(column ++ "_id = ? AND " ++ column ++ "_type = ?", 2),
    (column ++ "_id = ? OR " ++ column ++ "_type = ?", 2)]

/-- The forms of the condition of a field that is no association. -/
def plainForms (dialect : Dialect) (entity : Entity) (column : String) (fuzzy : Bool)
    (type : FieldType) : List (String × Nat) :=
  match type with
  | .polymorphicReference => polymorphicForms column
  | .obfuscatedId | .boolean | .integer | .price => [equalForm column]
  | .roles => [("(" ++ entity.column "roles_mask" ++ " & ?) > 0", 1)]
  | .date | .datetime => [bucketForm dialect type column]
  | .time => timeForms dialect column
  | .percentage | .decimal | .float | .currency | .duration => numberForms column
  | .string | .text | .email => [textForm dialect fuzzy column]
  | _ => []

/-- The form of the condition that one of some fields matches a text. -/
def anyTextForm (dialect : Dialect) (entity : Entity) (fields : List String) (fuzzy : Bool) :
    String × Nat :=
  if fields.isEmpty then ("1=0", 0)
  else
    (" OR ".intercalate (fields.map fun field =>
      (textForm dialect fuzzy (entity.sqlColumn field)).1), fields.length)

/-! ## The forms of the parts of conditions -/

variable {dialect : Dialect} {entity : Entity} {column : String}

/-- A comparison has the form of one. -/
@[simp]
theorem form_equals (expression : String) (value : Param) :
    (Fragment.equals expression value).form = equalForm expression := rfl

private theorem form_widened (value bound : Param) (negative : Bool) :
    (widened column value bound negative).form ∈ numberForms column := by
  cases negative <;> simp [widened, numberForms, Fragment.form]

private theorem form_textCondition (fuzzy : Bool) (text : String) :
    (textCondition dialect fuzzy column text).form = textForm dialect fuzzy column := by
  cases fuzzy <;> rfl

private theorem form_bucketCondition (type : FieldType) (start last : Moment) :
    (bucketCondition dialect type column start last).form = bucketForm dialect type column := by
  unfold bucketCondition bucketForm
  split <;> rfl

private theorem form_timeCondition (time : TimeOfDay) :
    (timeCondition dialect column time).form ∈ timeForms dialect column := by
  unfold timeCondition timeForms
  split
  · -- at the full hour the minute is not compared
    exact List.mem_cons_self
  · refine List.mem_cons_of_mem _ (List.mem_singleton.mpr ?_)
    simp [Fragment.form, Fragment.join, Fragment.equals, String.append_assoc]

private theorem form_decimalCondition (fuzzy : Bool) (text : String) (d : Decimal) :
    (decimalCondition fuzzy column text d).form ∈ numberForms column := by
  unfold decimalCondition
  simp only
  split
  · split
    · exact form_widened _ _ _
    · exact List.mem_cons_self
  · exact List.mem_cons_self

private theorem form_durationCondition (fuzzy : Bool) (text : String) (seconds : Int64) :
    (durationCondition fuzzy column text seconds).form ∈ numberForms column := by
  unfold durationCondition
  simp only
  split
  · split
    · exact form_widened _ _ _
    · exact List.mem_cons_self
  · exact List.mem_cons_self

private theorem form_polymorphicCondition (text : String) :
    (polymorphicCondition column text).form ∈ polymorphicForms column := by
  unfold polymorphicCondition
  simp only
  split
  · -- first the form of a pair, then the form of any other text
    exact List.mem_cons_self
  · exact List.mem_cons_of_mem _ List.mem_cons_self

/-! ## The forms of whole conditions -/

/-- The condition of a field has one of the forms of its type, whatever the value is. -/
theorem form_of_plainCondition {field text : String} {fuzzy : Bool} {type : FieldType} {term : Term}
    {condition : Fragment}
    (h : plainCondition dialect entity field column fuzzy text type term = .ok condition) :
    condition.form ∈ plainForms dialect entity column fuzzy type := by
  unfold plainCondition at h
  split at h
  case h_1 => cases h; exact form_polymorphicCondition text
  case h_2 | h_3 | h_6 | h_7 | h_8 => cases h; exact List.mem_singleton.mpr (form_equals _ _)
  case h_4 => cases h; exact List.mem_cons_self
  case h_9 | h_10 =>
    split at h
    · cases h
      exact List.mem_singleton.mpr (form_bucketCondition _ _ _)
    · cases h
  case h_11 time => cases h; exact form_timeCondition time
  case h_12 =>
    split at h
    · split at h
      · cases h
        exact List.mem_cons_self
      · cases h
    · cases h
      exact form_decimalCondition fuzzy text _
  case h_13 | h_14 | h_15 => cases h; exact form_decimalCondition fuzzy text _
  case h_16 seconds => cases h; exact form_durationCondition fuzzy text seconds
  case h_17 | h_18 | h_19 =>
    cases h
    exact List.mem_singleton.mpr (form_textCondition fuzzy _)
  -- The other pairs of a type and a term are refused.
  all_goals cases h

/-- The condition of a search for a text in some fields has one form. -/
theorem form_anyTextCondition (fields : List String) (fuzzy : Bool) (text : String) :
    (anyTextCondition dialect entity fields fuzzy text).form =
      anyTextForm dialect entity fields fuzzy := by
  -- a text condition is its form whatever the text, and binds one value
  have hsql : ∀ field, (textCondition dialect fuzzy (entity.sqlColumn field) text).sql =
      (textForm dialect fuzzy (entity.sqlColumn field)).1 :=
    fun field => congrArg Prod.fst (form_textCondition fuzzy text)
  have hlength : ∀ field,
      (textCondition dialect fuzzy (entity.sqlColumn field) text).params.length = 1 :=
    fun field => by cases fuzzy <;> rfl
  unfold anyTextCondition anyTextForm
  split
  · rfl
  · simp [Fragment.form, Fragment.join, Function.comp_def, hsql, hlength, List.flatMap_map,
      List.length_flatMap, List.map_const']

end Compile

end FieldQuery
