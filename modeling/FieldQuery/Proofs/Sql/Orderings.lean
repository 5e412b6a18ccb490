import FieldQuery.Calendar.Moment
import FieldQuery.Proofs.Sql.OrderTexts
import Mathlib.Data.List.Pairwise

/-!
# The order of rows in each dialect

The dialects write an ordering with different keys, because the engines put NULLs in different
places: MySQL and SQLite take NULL for the lowest value, and PostgreSQL for the highest one unless the
item says where it comes. Main statement: the texts of the orderings of a column, of a text and of a
time of day are read as items that put rows in one order on all of them.

A comparison that may meet NULLs is a comparison of values and a place for NULLs. Two laws of such
comparisons carry the statement. Items that are NULL together compare like one item
(`NullPlace.extend_map_thenBy`), and a test for NULL in front of an item moves its NULLs to the end
(`NullPlace.isNone_thenBy_extend`).
-/

namespace FieldQuery.Sql

open FieldQuery.Calendar FieldQuery.Text

variable {α β γ δ : Type}

/-! ## Comparisons -/

/-- Compares by the first relation, and ties by the second one. -/
def ThenBy (first second : α → α → Prop) (a b : α) : Prop :=
  first a b ∧ (first b a → second a b)

/-- A comparison in a direction. -/
def Direction.orient (direction : Direction) (le : α → α → Prop) (v w : α) : Prop :=
  match direction with
  | ascending => le v w
  | descending => le w v

instance {direction : Direction} {le : α → α → Prop} [DecidableRel le] :
    DecidableRel (direction.orient le) :=
  match direction with
  | .ascending => fun v w => inferInstanceAs (Decidable (le v w))
  | .descending => fun v w => inferInstanceAs (Decidable (le w v))

/-- Where NULLs are in an order. -/
inductive NullPlace where
  | first
  | last
deriving DecidableEq, Repr

namespace NullPlace

/-- A comparison of values as one of values and NULLs. -/
def extend (place : NullPlace) (le : α → α → Prop) : Option α → Option α → Prop
  | none, none => True
  | none, some _ => place = first
  | some _, none => place = last
  | some v, some w => le v w

private theorem extend_congr {place : NullPlace} {le le' : α → α → Prop} (h : ∀ v w, le v w ↔ le' v w)
    (x y : Option α) : place.extend le x y ↔ place.extend le' x y := by
  cases x <;> cases y <;> simp [extend, h]

instance {place : NullPlace} {le : α → α → Prop} [DecidableRel le] :
    DecidableRel (place.extend le)
  | none, none => inferInstanceAs (Decidable True)
  | none, some _ => inferInstanceAs (Decidable (place = first))
  | some _, none => inferInstanceAs (Decidable (place = last))
  | some v, some w => inferInstanceAs (Decidable (le v w))

/-- Where two keys are NULL together, the place of NULLs is that of the first key. -/
theorem extend_map_thenBy (place place' : NullPlace) (le : β → β → Prop) (le' : γ → γ → Prop)
    (key : α → β) (key' : α → γ) (x y : Option α) :
    ThenBy (fun x y => place.extend le (x.map key) (y.map key))
        (fun x y => place'.extend le' (x.map key') (y.map key')) x y ↔
      place.extend (ThenBy (fun v w => le (key v) (key w)) fun v w => le' (key' v) (key' w)) x y := by
  cases x <;> cases y <;> cases place <;> simp [ThenBy, extend]

/-- After a test for NULL the place of NULLs is the last one. -/
theorem isNone_thenBy_extend (place : NullPlace) (le : α → α → Prop) (x y : Option α) :
    ThenBy (fun x y => x.isNone ≤ y.isNone) (place.extend le) x y ↔ last.extend le x y := by
  have htest : ¬ true ≤ false := by decide
  cases x <;> cases y <;> simp [ThenBy, extend, htest]

end NullPlace

/-! ## Orders of rows -/

/-- The values of expressions as the engines compare them. -/
structure Values (α : Type) where
  le : α → α → Prop
  total : Std.Total le
  trans : IsTrans α le
  /-- The empty text. -/
  empty : α
  /-- A whole number, such as an hour. -/
  number : Nat → α
  number_le_number : ∀ m n, le (number m) (number n) ↔ m ≤ n

/-- What the expressions of SQL have as values in a row. NULL is no value. -/
abbrev Reading (α : Type) := String → Option α

namespace SortItem

/-- The place of NULLs among the values of an item. -/
def nullPlace (dialect : Dialect) (item : SortItem) : NullPlace :=
  if item.putsNullsLast then .last
  else
    match dialect, item.direction.getD .ascending with
    | .mysql, .ascending | .sqlite, .ascending | .postgres, .descending => .first
    | .mysql, .descending | .sqlite, .descending | .postgres, .ascending => .last

/-- Compares the values of an item. -/
def compare (dialect : Dialect) (item : SortItem) (le : α → α → Prop) : Option α → Option α → Prop :=
  (item.nullPlace dialect).extend ((item.direction.getD .ascending).orient le)

end SortItem

namespace Values

section Precedes

variable (values : Values α) (dialect : Dialect)

/-- A value equals the empty text. -/
def IsEmpty (v : α) : Prop :=
  values.le v values.empty ∧ values.le values.empty v

/-- Whether a row may come before another one, or next to it, by one item of an ordering. Of the
tests, false comes before true. A test of NULL for equality is NULL, and a test for NULL never is. -/
def PrecedesBy (item : SortItem) (a b : Reading α) : Prop :=
  match item.key with
  | .value e => item.compare dialect values.le (a e) (b e)
  | .isNull e => item.compare dialect (· ≤ ·) (some (a e).isNone) (some (b e).isNone)
  | .isEmpty e => item.compare dialect (· ≤ ·) ((a e).map values.IsEmpty) ((b e).map values.IsEmpty)

/-- Whether a row may come before another one, or next to it, by the items of an ordering. -/
def Precedes : List SortItem → Reading α → Reading α → Prop
  | [] => fun _ _ => True
  | item :: items => ThenBy (values.PrecedesBy dialect item) (Precedes items)

/-- Rows are in the order that the items ask for. -/
def Sorted (items : List SortItem) (rows : List (Reading α)) : Prop :=
  rows.Pairwise (values.Precedes dialect items)

/-- Rows are in the order that a text asks for. -/
def SortedBy (text : String) (rows : List (Reading α)) : Prop :=
  ∃ items, dialect.readOrder? text = some items ∧ values.Sorted dialect items rows

/-- The items of an ordering ask for the rows that satisfy a condition, and so does its text if the
column can be read in it as an expression. -/
def Asks (column : String) (items : List SortItem) (text : String) (rows : List (Reading α))
    (condition : Prop) : Prop :=
  (values.Sorted dialect items rows ↔ condition) ∧
    (dialect.IsExpression column → (values.SortedBy dialect text rows ↔ condition))

end Precedes

variable {values : Values α} {dialect : Dialect}

/-! ## One order in all dialects -/

/-- Compares texts in a direction, the empty ones after all others. -/
def EmptyLast (values : Values α) (direction : Direction) (v w : α) : Prop :=
  (values.IsEmpty v → values.IsEmpty w) ∧
    (¬ values.IsEmpty v → ¬ values.IsEmpty w → direction.orient values.le v w)

/-- Compares times of day by the hour and then by the minute. -/
def ClockLe (s t : TimeOfDay) : Prop :=
  s.hour < t.hour ∨ s.hour = t.hour ∧ s.minute ≤ t.minute

instance : DecidableRel ClockLe := fun s t =>
  inferInstanceAs (Decidable (s.hour < t.hour ∨ s.hour = t.hour ∧ s.minute ≤ t.minute))

/-- In a row a column holds a time of day or NULL, from which every dialect takes the hour and the
minute. -/
structure HoldsTime (values : Values α) (column : String) (row : Reading α)
    (time : Option TimeOfDay) : Prop where
  isNone_eq : (row column).isNone = time.isNone
  hour_eq : ∀ dialect : Dialect,
    row (dialect.extractHour column) = time.map fun t => values.number t.hour
  minute_eq : ∀ dialect : Dialect,
    row (dialect.extractMinute column) = time.map fun t => values.number t.minute

variable {direction : Direction} {column : String} {a b : Reading α}

/-- Values that equal the empty text are equal to one another. -/
theorem IsEmpty.le {v w : α} (hv : values.IsEmpty v) (hw : values.IsEmpty w) : values.le v w :=
  values.trans.trans v values.empty w hv.1 hw.2

/-- Ties of the test for the empty text are compared by value only where the texts are not empty. -/
theorem thenBy_isEmpty_iff {v w : α} :
    ThenBy (fun v w => values.IsEmpty v ≤ values.IsEmpty w) (direction.orient values.le) v w ↔
      values.EmptyLast direction v w := by
  refine and_congr_right fun hvw => ⟨fun h hv hw => h fun hw' => absurd hw' hw, fun h hwv => ?_⟩
  by_cases hv : values.IsEmpty v
  · -- Both are the empty text, and so they are ties.
    cases direction
    · exact hv.le (hvw hv)
    · exact (hvw hv).le hv
  · exact h hv fun hw => hv (hwv hw)

private theorem thenBy_clock_iff (values : Values α) {s t : TimeOfDay} :
    ThenBy (fun s t : TimeOfDay =>
          direction.orient values.le (values.number s.hour) (values.number t.hour))
        (fun s t => direction.orient values.le (values.number s.minute) (values.number t.minute))
        s t ↔
      direction.orient ClockLe s t := by
  -- hours and minutes as numbers order like the clock, in either direction
  cases direction <;>
    simp only [ThenBy, Direction.orient, values.number_le_number, ClockLe] <;> omega

/-! ### Lists of items -/

private theorem precedes_singleton {item : SortItem} :
    values.Precedes dialect [item] a b ↔ values.PrecedesBy dialect item a b := by
  simp [Precedes, ThenBy]

/-- A test for NULL in front of other items puts the rows with NULL last. -/
theorem precedes_isNull_cons {items : List SortItem} {place : NullPlace} {le : β → β → Prop}
    {x y : Option β} (hx : (a column).isNone = x.isNone) (hy : (b column).isNone = y.isNone)
    (hitems : values.Precedes dialect items a b ↔ place.extend le x y) :
    values.Precedes dialect (⟨.isNull column, none, false⟩ :: items) a b ↔
      NullPlace.last.extend le x y := by
  -- the test is compared first and puts NULL last; among the values the items decide
  calc values.Precedes dialect (⟨.isNull column, none, false⟩ :: items) a b
      ↔ ((a column).isNone ≤ (b column).isNone ∧
          ((b column).isNone ≤ (a column).isNone → values.Precedes dialect items a b)) := Iff.rfl
    _ ↔ ThenBy (fun x y => x.isNone ≤ y.isNone) (place.extend le) x y := by
      rw [hx, hy, hitems, ThenBy]
    _ ↔ NullPlace.last.extend le x y := NullPlace.isNone_thenBy_extend place le x y

/-- Two items that are NULL together put the rows with NULL where the first one does. -/
theorem precedes_pair {first second : SortItem} {le : β → β → Prop} {le' : γ → γ → Prop}
    {key : δ → β} {key' : δ → γ} {x y : Option δ}
    (hab : values.PrecedesBy dialect first a b ↔
      first.compare dialect le (x.map key) (y.map key))
    (hba : values.PrecedesBy dialect first b a ↔
      first.compare dialect le (y.map key) (x.map key))
    (hsecond : values.PrecedesBy dialect second a b ↔
      second.compare dialect le' (x.map key') (y.map key')) :
    values.Precedes dialect [first, second] a b ↔
      (first.nullPlace dialect).extend
        (ThenBy (fun v w => (first.direction.getD .ascending).orient le (key v) (key w))
          fun v w => (second.direction.getD .ascending).orient le' (key' v) (key' w)) x y := by
  -- Where the second item puts NULLs does not matter, for they are all ties of the first one.
  rw [← NullPlace.extend_map_thenBy _ (second.nullPlace dialect)]
  simp only [Precedes, ThenBy, hab, hba, hsecond, SortItem.compare, implies_true, and_true]

/-! ### The orderings -/

private theorem precedes_value (putsNullsLast : Bool) :
    values.Precedes dialect [⟨.value column, direction, putsNullsLast⟩] a b ↔
      (SortItem.nullPlace dialect ⟨.value column, direction, putsNullsLast⟩).extend
        (direction.orient values.le) (a column) (b column) :=
  precedes_singleton

private theorem precedes_text (putsNullsLast : Bool) :
    values.Precedes dialect [⟨.isEmpty column, Direction.ascending, false⟩,
        ⟨.value column, direction, putsNullsLast⟩] a b ↔
      (SortItem.nullPlace dialect ⟨.isEmpty column, Direction.ascending, false⟩).extend
        (values.EmptyLast direction) (a column) (b column) := by
  rw [← NullPlace.extend_congr fun _ _ => thenBy_isEmpty_iff]
  -- The second key is the text itself.
  refine precedes_pair Iff.rfl Iff.rfl ?_
  rw [Option.map_id', Option.map_id']
  rfl

private theorem precedes_time {s t : Option TimeOfDay} (ha : HoldsTime values column a s)
    (hb : HoldsTime values column b t) (putsNullsLast : Bool) :
    values.Precedes dialect [⟨.value (dialect.extractHour column), direction, putsNullsLast⟩,
        ⟨.value (dialect.extractMinute column), direction, putsNullsLast⟩] a b ↔
      (SortItem.nullPlace dialect
        ⟨.value (dialect.extractHour column), direction, putsNullsLast⟩).extend
          (direction.orient ClockLe) s t := by
  rw [← NullPlace.extend_congr fun _ _ => thenBy_clock_iff values]
  refine precedes_pair ?_ ?_ ?_ <;>
    simp only [PrecedesBy, ha.hour_eq, hb.hour_eq, ha.minute_eq, hb.minute_eq]

private theorem precedes_nullsLast (dialect : Dialect) :
    values.Precedes dialect (dialect.nullsLast column direction) a b ↔
      NullPlace.last.extend (direction.orient values.le) (a column) (b column) := by
  -- two dialects put a test in front, and the third writes the place of NULL out
  cases dialect with
  | mysql => exact precedes_isNull_cons rfl rfl (precedes_value false)
  | postgres => exact precedes_value true
  | sqlite => exact precedes_isNull_cons rfl rfl (precedes_value false)

private theorem precedes_textOrder (dialect : Dialect) :
    values.Precedes dialect (dialect.textOrder column direction) a b ↔
      NullPlace.last.extend (values.EmptyLast direction) (a column) (b column) := by
  cases dialect with
  | mysql => exact precedes_isNull_cons rfl rfl (precedes_text false)
  -- The test for the empty text is ascending, so its NULLs are last without being told so.
  | postgres => exact precedes_text true
  | sqlite => exact precedes_isNull_cons rfl rfl (precedes_text false)

private theorem precedes_timeOrder (dialect : Dialect) {s t : Option TimeOfDay}
    (ha : HoldsTime values column a s) (hb : HoldsTime values column b t) :
    values.Precedes dialect (dialect.timeOrder column direction) a b ↔
      NullPlace.last.extend (direction.orient ClockLe) s t := by
  cases dialect with
  | mysql => exact precedes_isNull_cons ha.isNone_eq hb.isNone_eq (precedes_time ha hb false)
  | postgres => exact precedes_time ha hb true
  | sqlite => exact precedes_isNull_cons ha.isNone_eq hb.isNone_eq (precedes_time ha hb false)

/-- A text that is read as some items asks for what they ask for. -/
theorem Asks.of_sorted_iff {items : List SortItem} {text : String} {rows : List (Reading α)}
    {condition : Prop} (h : values.Sorted dialect items rows ↔ condition)
    (hread : dialect.IsExpression column → dialect.readOrder? text = some items) :
    values.Asks dialect column items text rows condition := by
  refine ⟨h, fun hcolumn => Iff.trans ⟨?_, fun hsorted => ?_⟩ h⟩
  · -- the text is read to one list of items at most, so the one it is read to is the one asked for
    rintro ⟨items', hitems', hsorted⟩
    obtain rfl := Option.some.inj ((hread hcolumn).symm.trans hitems')
    exact hsorted
  · exact ⟨items, hread hcolumn, hsorted⟩

/-- In every dialect the orderings of a column put rows in the same order, which has the NULLs after
all others in both directions. The rows with a value come in the order of the values, or of the hours
and then the minutes of the times, in the given direction, and the empty texts come between the other
texts and the NULLs. The text of an ordering spells items that ask for this order, and it is read as
these if the column is one expression. -/
theorem dialects_order_alike (values : Values α) (dialect : Dialect) (column : String)
    (direction : Direction) (rows : List (Reading α)) :
    (dialect.Spells (dialect.nullsLast column direction) (dialect.orderNullsLast column direction) ∧
      values.Asks dialect column (dialect.nullsLast column direction)
        (dialect.orderNullsLast column direction) rows (rows.Pairwise fun a b =>
          NullPlace.last.extend (direction.orient values.le) (a column) (b column))) ∧
    (dialect.Spells (dialect.textOrder column direction) (dialect.orderText column direction) ∧
      values.Asks dialect column (dialect.textOrder column direction)
        (dialect.orderText column direction) rows (rows.Pairwise fun a b =>
          NullPlace.last.extend (values.EmptyLast direction) (a column) (b column))) ∧
    (dialect.Spells (dialect.timeOrder column direction) (dialect.orderTime column direction) ∧
      ∀ time : Reading α → Option TimeOfDay,
        (∀ row ∈ rows, HoldsTime values column row (time row)) →
        values.Asks dialect column (dialect.timeOrder column direction)
          (dialect.orderTime column direction) rows (rows.Pairwise fun a b =>
            NullPlace.last.extend (direction.orient ClockLe) (time a) (time b))) := by
  refine ⟨⟨dialect.spells_orderNullsLast column direction, .of_sorted_iff ?_ ?_⟩,
    ⟨dialect.spells_orderText column direction, .of_sorted_iff ?_ ?_⟩,
    dialect.spells_orderTime column direction, fun time htime => .of_sorted_iff ?_ ?_⟩
  · exact List.Pairwise.iff fun _ _ => precedes_nullsLast dialect
  · exact Dialect.readOrder?_orderNullsLast direction
  · exact List.Pairwise.iff fun _ _ => precedes_textOrder dialect
  · exact Dialect.readOrder?_orderText direction
  · -- Only the rows of the list are known to hold times.
    exact List.Pairwise.iff_of_mem fun ha hb =>
      precedes_timeOrder dialect (htime _ ha) (htime _ hb)
  · exact Dialect.readOrder?_orderTime direction

end Values

/-! ### Meetings -/

/-- Numbers and texts, of which SQLite puts the numbers first. -/
inductive Datum where
  | number (n : Nat)
  | text (content : String)

namespace Datum

/-- Numbers are compared by their size and texts by their characters. -/
def Le : Datum → Datum → Prop
  | number m, number n => m ≤ n
  | number _, text _ => True
  | text _, number _ => False
  | text s, text t => s ≤ t

/-- Numbers and texts as values. -/
def values : Values Datum where
  le := Le
  total := ⟨fun
    | number m, number n => Nat.le_total m n
    | number _, text _ => .inl trivial
    | text _, number _ => .inr trivial
    | text s, text t => String.le_total s t⟩
  trans := ⟨fun
    | number _, number _, number _ => Nat.le_trans
    | number _, number _, text _ => fun _ _ => trivial
    | number _, text _, text _ => fun _ _ => trivial
    | text _, text _, text _ => String.le_trans
    | number _, text _, number _ => fun _ h => h.elim
    | text _, number _, _ => fun h _ => h.elim
    | text _, text _, number _ => fun _ h => h⟩
  empty := text ""
  number := number
  number_le_number _ _ := Iff.rfl

/-- A meeting: the column `start`, and the expressions that take it apart. -/
def meeting (start : Option TimeOfDay) : Reading Datum := fun expression =>
  if expression = "start" then start.map fun t => text (String.ofList t.digits)
  else if expression = Dialect.extractHour .mysql "start" ∨
      expression = Dialect.extractHour .sqlite "start" then
    start.map fun t => number t.hour
  else if expression = Dialect.extractMinute .mysql "start" ∨
      expression = Dialect.extractMinute .sqlite "start" then
    start.map fun t => number t.minute
  else none

/-- The start of a meeting, to the minute. -/
def start (row : Reading Datum) : Option TimeOfDay :=
  match row (Dialect.extractHour .sqlite "start"), row (Dialect.extractMinute .sqlite "start") with
  | some (number h), some (number m) => TimeOfDay.of? h m 0
  | _, _ => none

private theorem holdsTime_meeting (time : Option TimeOfDay) :
    Values.HoldsTime values "start" (meeting time) time where
  isNone_eq := by cases time <;> rfl
  hour_eq dialect := by cases dialect <;> rfl
  minute_eq dialect := by cases dialect <;> rfl

/-- Times of day, the latest first, and none at the end. -/
def starts : List (Option TimeOfDay) :=
  [TimeOfDay.of? 14 30 0, TimeOfDay.of? 14 5 0, TimeOfDay.of? 9 45 0, none]

/-- The meetings at these times. -/
def meetings : List (Reading Datum) :=
  starts.map meeting

private theorem holdsTime_meetings :
    ∀ row ∈ meetings, Values.HoldsTime values "start" row (start row) := by
  have hstart : ∀ time ∈ starts, start (meeting time) = time := by decide +kernel
  intro row hrow
  obtain ⟨time, htime, rfl⟩ := List.mem_map.mp hrow
  rw [hstart time htime]
  exact holdsTime_meeting time

/-- SQLite and PostgreSQL agree on the order of the meetings. -/
theorem meetings_sorted :
    (values.Sorted .sqlite (Dialect.timeOrder .sqlite "start" .descending) meetings ∧
        values.Sorted .postgres (Dialect.timeOrder .postgres "start" .descending) meetings) ∧
      values.SortedBy .sqlite ("start IS NULL, CAST(strftime('%H', start) AS INTEGER) DESC, "
        ++ "CAST(strftime('%M', start) AS INTEGER) DESC") meetings ∧
      values.SortedBy .postgres ("EXTRACT(HOUR FROM start) DESC NULLS LAST, "
        ++ "EXTRACT(MINUTE FROM start) DESC NULLS LAST") meetings := by
  have hclock : meetings.Pairwise fun a b =>
      NullPlace.last.extend (Direction.descending.orient Values.ClockLe) (start a) (start b) := by
    decide +kernel
  -- on clock times the orderings are the clock's in either dialect, first as orders and then as texts
  have hasks (dialect : Dialect) :=
    (Values.dialects_order_alike values dialect "start" .descending meetings).2.2.2 start
      holdsTime_meetings
  have hstart (dialect : Dialect) : dialect.IsExpression "start" := by
    cases dialect <;> decide
  refine ⟨⟨(hasks .sqlite).1.mpr hclock, (hasks .postgres).1.mpr hclock⟩, ?_, ?_⟩
  · exact ((hasks .sqlite).2 (hstart .sqlite)).mpr hclock
  · exact ((hasks .postgres).2 (hstart .postgres)).mpr hclock

end Datum

end FieldQuery.Sql
