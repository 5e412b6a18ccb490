import FieldQuery.Proofs.Sql.KeySets
import FieldQuery.Sql.Relation
import Mathlib.Data.List.Basic

/-!
# What conditions say about rows

A database gives the rows of every table. Of the conditions of a relation two forms are read here:
`c = ?` is an equality and `c IN (..)` a membership test, both of a column of the row. All other
conditions are left to the database, which may read them in any way. A relation selects the rows of
its table that satisfy all its conditions.
-/

namespace FieldQuery.Sql

open FieldQuery.Text

/-! ## Endings of texts -/

private theorem strip?_append (text ending : String) : strip? ending (text ++ ending) = some text := by
  simp [strip?, beforeEnd?]

private theorem strip?_eq_none {text ending : String}
    (h : ¬ ending.toList <:+ text.toList) : strip? ending text = none := by
  simp [strip?, beforeEnd?, h]

/-- A text whose ending was taken off is what is left with this ending. -/
theorem eq_append_of_strip? {text ending rest : String} (h : strip? ending text = some rest) :
    text = rest ++ ending := by
  obtain ⟨before, hbefore, rfl⟩ := Option.map_eq_some_iff.mp h
  unfold beforeEnd? at hbefore
  split at hbefore
  · next hsuffix =>
    obtain ⟨start, hstart⟩ := List.isSuffixOf_iff_suffix.mp hsuffix
    -- the text before the ending is what is left after dropping its length
    obtain rfl : start = before := by
      have htake := Option.some.inj hbefore
      rw [← hstart] at htake
      simpa using htake
    refine String.toList_injective ?_
    rw [String.toList_append, String.toList_ofList, hstart]
  · cases hbefore

/-! ## Rows -/

/-- A row: the value of every column, nothing for NULL. -/
abbrev Row := String → Option Key

/-- The value of a column that is written with the name of its table. -/
def Row.value (row : Row) (table expression : String) : Option Key :=
  (afterStart? (table ++ ".").toList expression.toList).bind fun column =>
    row (String.ofList column)

/-- A row has its columns under their full names. -/
@[simp]
theorem Row.value_qualified (row : Row) (table column : String) :
    row.value table (qualified table column) = row column := by
  simp [Row.value, qualified, afterStart?]

/-- Two columns hold the same key, and not NULL. -/
def SameKey (a b : Option Key) : Prop :=
  ∃ key, a = some key ∧ b = some key

/-! ## Reading conditions -/

namespace Fragment

/-- The expression and the value that a condition compares, if it is a comparison. -/
def comparison? (condition : Fragment) : Option (String × Param) :=
  match condition.params with
  | [value] => (strip? " = ?" condition.sql).map fun expression => (expression, value)
  | _ => none

/-- The expression that a condition looks for among its values, if it is a membership test. -/
def membership? (condition : Fragment) : Option String :=
  strip? (" IN (" ++ KeySet.placeholders condition.params.length ++ ")") condition.sql

/-- A comparison is read back as its expression and its value. -/
@[simp]
theorem comparison?_equals (expression : String) (value : Param) :
    (equals expression value).comparison? = some (expression, value) := by
  simp [comparison?, equals, strip?_append]

/-- A membership test ends with a parenthesis and not with a placeholder. -/
@[simp]
theorem comparison?_inList (column : String) (keys : KeySet) :
    (keys.inList column).comparison? = none := by
  rw [KeySet.inList_eq]
  unfold comparison?
  split
  · -- a comparison ends in its mark, and a list of keys in a bracket
    refine Option.map_eq_none_iff.mpr (strip?_eq_none ?_)
    rintro ⟨start, hstart⟩
    have hlast := congrArg List.getLast? hstart
    simp [KeySet.memberText, List.getLast?_cons] at hlast
  · rfl

/-- A condition on keys is read back as one on its column. -/
@[simp]
theorem membership?_inList (column : String) (keys : KeySet) :
    (keys.inList column).membership? = some column := by
  rw [KeySet.inList_eq]
  have h := strip?_append column (" IN (" ++ KeySet.placeholders keys.members.length ++ ")")
  rwa [← String.append_assoc, ← String.append_assoc] at h

end Fragment

/-- The rows of every table, and what conditions of other forms say about them. -/
structure Database where
  rows : String → List Row
  /-- Whether a row of a table satisfies a condition that is neither a comparison nor a membership
  test. -/
  other : String → Fragment → Row → Bool

namespace Database

variable {db : Database} {table : String} {row : Row}

/-- Whether a row of a table satisfies a condition. -/
def Holds (db : Database) (table : String) (condition : Fragment) (row : Row) : Prop :=
  match condition.comparison?, condition.membership? with
  | some (expression, value), _ => (row.value table expression).map Key.param = some value
  | none, some expression =>
    ∃ key, row.value table expression = some key ∧ key.param ∈ condition.params
  | none, none => db.other table condition row

instance (condition : Fragment) : Decidable (db.Holds table condition row) :=
  match h : condition.comparison?, h' : condition.membership? with
  | some (expression, value), _ =>
    decidable_of_iff ((row.value table expression).map Key.param = some value) (by simp [Holds, h])
  | none, some expression =>
    decidable_of_iff (((row.value table expression).any fun key =>
      key.param ∈ condition.params) = true) (by simp [Holds, h, h', Option.any_eq_true])
  | none, none => decidable_of_iff (db.other table condition row = true) (by simp [Holds, h, h'])

/-- Whether a relation selects a row: the row is in the table and satisfies every condition. -/
def Selects (db : Database) (r : Relation) (row : Row) : Prop :=
  row ∈ db.rows r.table ∧ ∀ condition ∈ r.conditions, db.Holds r.table condition row

/-- The rows that a relation selects, in the order of the table. -/
def select (db : Database) (r : Relation) : List Row :=
  (db.rows r.table).filter fun row => ∀ condition ∈ r.conditions, db.Holds r.table condition row

/-- A row is selected exactly if the relation selects it. -/
@[simp]
theorem mem_select {r : Relation} : row ∈ db.select r ↔ db.Selects r row := by
  simp [select, Selects]

/-- Whether the answer to a pluck is the column of exactly the rows that the relation selects, in
some order. -/
def Answers (db : Database) (r : Relation) (column : String) (answer : List (Option Key)) : Prop :=
  ∃ rows : List Row, (∀ row, row ∈ rows ↔ db.Selects r row) ∧
    answer = rows.map fun row => row.value r.table column

private theorem holds_equals (column : String) (key : Key) :
    db.Holds table (.equals (qualified table column) key.param) row ↔ row column = some key := by
  simp [Holds, Key.param_injective.eq_iff]

/-- Types are told apart by texts. -/
theorem holds_equals_text {column text : String} :
    db.Holds table (.equals (qualified table column) (.text text)) row ↔
      row column = some (.text text) :=
  holds_equals column (.text text)

private theorem holds_inList {column : String} {keys : KeySet} :
    db.Holds table (keys.inList column) row ↔
      ∃ key, row.value table column = some key ∧ key.param ∈ keys.members := by
  simp only [Holds, Fragment.comparison?_inList, Fragment.membership?_inList]
  rw [KeySet.inList_eq]

/-- With keys, a membership test holds for the rows with one of them in the column. -/
theorem holds_inList_of_ne_nil {column : String} {keys : KeySet} (hkeys : keys.keys ≠ []) :
    db.Holds table (keys.inList column) row ↔
      ∃ key ∈ keys.keys, row.value table column = some key := by
  rw [holds_inList]
  simp only [KeySet.members, KeySet.isEmpty_eq_false_iff.mpr hkeys, KeySet.params,
    Bool.false_eq_true, if_false]
  refine exists_congr fun key => ?_
  -- different keys are different parameters, so membership is not blurred
  rw [List.mem_map_of_injective Key.param_injective, and_comm]

/-- Without keys, a membership test holds for the rows with the sentinel in the column. -/
theorem holds_inList_of_eq_nil {column : String} {keys : KeySet} (hkeys : keys.keys = []) :
    db.Holds table (keys.inList column) row ↔
      row.value table column = some (.integer sentinelKey) := by
  rw [holds_inList]
  simp only [KeySet.members, KeySet.isEmpty_iff.mpr hkeys, if_true, List.mem_singleton]
  rw [show Param.integer sentinelKey = (Key.integer sentinelKey).param from rfl]
  simp [Key.param_injective.eq_iff]

/-- On a row without the sentinel a membership test may be read without regard to it. -/
theorem holds_inList_of_ne_sentinel {column : String} {keys : KeySet}
    (hrow : row.value table column ≠ some (.integer sentinelKey)) :
    db.Holds table (keys.inList column) row ↔
      ∃ key ∈ keys.keys, row.value table column = some key := by
  -- without keys only the sentinel matches, which this row does not have
  by_cases hkeys : keys.keys = []
  · simp [holds_inList_of_eq_nil hkeys, hrow, hkeys]
  · exact holds_inList_of_ne_nil hkeys

/-- With one more condition those rows are selected that satisfy it. -/
theorem selects_filter {r : Relation} {condition : Fragment} :
    db.Selects (r.filter condition) row ↔ db.Selects r row ∧ db.Holds r.table condition row := by
  simp [Selects, Relation.filter, or_imp, forall_and, and_assoc]

/-- All rows of a table are selected without a condition. -/
theorem selects_all {typeName : String} :
    db.Selects (.all table typeName) row ↔ row ∈ db.rows table := by
  simp [Selects, Relation.all]

/-- Limits and orderings do not bear on which rows a relation describes. -/
theorem selects_congr {r r' : Relation} (htable : r.table = r'.table)
    (hconditions : r.conditions = r'.conditions) : db.Selects r row ↔ db.Selects r' row := by
  rw [Selects, Selects, htable, hconditions]

end Database

end FieldQuery.Sql
