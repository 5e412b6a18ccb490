import FieldQuery.Proofs.Sql.Rows
import Mathlib.Data.List.Lex

/-!
# How rankings order rows

A ranking is a list of tests `c = ? DESC`, one for each key. Rows are compared by the first test on
which they differ, so of two rows with values in the column the one whose value stands earlier among
the keys comes first. Where a test of a NULL is placed depends on the engine. All other orderings
are left to the database, which may read them as any total preorder of the rows.
-/

namespace FieldQuery.Sql

/-! ## Places -/

/-- Where a test comes in descending order; the outcome for a NULL is unknown. -/
def Dialect.descending (dialect : Dialect) : Option Bool → Nat
  | none => if dialect.isPostgres then 0 else 3
  | some true => 1
  | some false => 2

/-- Where a value comes in a ranking: one place for each of its tests. -/
def rankPlace (dialect : Dialect) (values : List Param) (value : Option Key) : List Nat :=
  values.map fun v => dialect.descending (value.map fun key => decide (key.param = v))

/-- By the item of a key a value comes first if it is this key. -/
@[simp]
theorem rankPlace_cons (dialect : Dialect) (values : List Param) (key value : Key) :
    rankPlace dialect (key.param :: values) (some value) =
      (if value = key then 1 else 2) :: rankPlace dialect values (some value) := by
  by_cases h : value = key <;>
    simp [rankPlace, Dialect.descending, Key.param_injective.eq_iff, h]

/-- Of two keys in a ranking, or of one in it and one that is not, the one that stands earlier has
the earlier place. -/
theorem rankPlace_lt (dialect : Dialect) {keys : List Key} {a b : Key}
    (h : keys.idxOf a < keys.idxOf b) :
    rankPlace dialect (keys.map Key.param) (some a) <
      rankPlace dialect (keys.map Key.param) (some b) := by
  induction keys with
  | nil => simp at h
  | cons key keys ih =>
    have hb : b ≠ key := by
      rintro rfl
      simp at h
    rw [List.map_cons, rankPlace_cons, rankPlace_cons, if_neg hb, List.cons_lt_cons_iff]
    -- The first test holds for one row only, or for none, and then the next ones decide.
    by_cases ha : a = key
    · exact Or.inl (by simp [ha])
    · rw [List.idxOf_cons_ne _ (Ne.symm ha), List.idxOf_cons_ne _ (Ne.symm hb)] at h
      exact Or.inr ⟨if_neg ha, ih (Nat.lt_of_succ_lt_succ h)⟩

/-! ## Reading orderings -/

namespace KeySet

private theorem rankText_succ (column : String) (n : Nat) :
    rankText column (n + 2) = column ++ " = ? DESC, " ++ rankText column (n + 1) := by
  simp only [rankText, List.replicate_succ, String.intercalate_cons_cons]
  apply String.toList_inj.mp
  simp

private theorem length_rankText (column : String) (n : Nat) :
    (rankText column (n + 1)).length + 2 = (n + 1) * (column.length + 11) := by
  -- induction on the comparisons: each one takes up the column and eleven more characters
  induction n with
  | zero =>
    have htest : " = ? DESC".length = 9 := by decide
    simp [rankText, htest]
  | succ n ih =>
    have htest : " = ? DESC, ".length = 11 := by decide
    rw [rankText_succ, String.length_append, String.length_append, htest, Nat.add_assoc, ih]
    rw [Nat.succ_mul (n + 1), Nat.add_comm]

private theorem prefix_rankText (column : String) (n : Nat) :
    column.toList <+: (rankText column (n + 1)).toList := by
  cases n with
  | zero => simp [rankText]
  | succ n => simp [rankText_succ, List.append_assoc]

end KeySet

/-- The expression that an ordering compares with its values one after another, if it is a ranking.
The text repeats the expression, so its length gives that of the expression. -/
def Fragment.ranked? (order : Fragment) : Option String :=
  let n := order.params.length
  let expression := String.ofList (order.sql.toList.take ((order.sql.length + 2) / n - 11))
  if n ≠ 0 ∧ order.sql = KeySet.rankText expression n then some expression else none

/-- The expression and the values of a ranking that is the only ordering. -/
def ranking? : List Fragment → Option (String × List Param)
  | [order] => order.ranked?.map fun expression => (expression, order.params)
  | _ => none

/-- The ranking by some keys is read back as its column and these keys. -/
theorem ranking?_rankOrder? {keys : KeySet} (hkeys : keys.keys ≠ []) (column : String) :
    ranking? (keys.rankOrder? column).toList = some (column, keys.params) := by
  obtain ⟨n, hn⟩ : ∃ n, keys.params.length = n + 1 :=
    Nat.exists_eq_succ_of_ne_zero (by simpa [KeySet.params] using hkeys)
  have hlength := KeySet.length_rankText column n
  -- the expression is as long as the text leaves it for each of the comparisons
  have hexpression : String.ofList ((KeySet.rankText column (n + 1)).toList.take
      (((KeySet.rankText column (n + 1)).length + 2) / (n + 1) - 11)) = column := by
    rw [hlength, Nat.mul_div_cancel_left _ (Nat.succ_pos n), Nat.add_sub_cancel]
    rw [← String.length_toList, ← List.prefix_iff_eq_take.mp (KeySet.prefix_rankText column n)]
    exact String.ofList_toList
  rw [KeySet.rankOrder?_eq, KeySet.isEmpty_eq_false_iff.mpr hkeys]
  simp [ranking?, Fragment.ranked?, hn, hexpression]

/-- How a database orders the rows of a table. -/
structure Collation where
  dialect : Dialect
  /-- The order of rows by expressions that are not a single ranking. -/
  other : String → List Fragment → Row → Row → Bool
  other_total : ∀ table orders a b, (other table orders a b || other table orders b a) = true
  other_trans : ∀ table orders a b c,
    other table orders a b = true → other table orders b c = true → other table orders a c = true

namespace Collation

variable {collation : Collation} {table : String} {orders : List Fragment} {a b c : Row}

/-- Whether a row may come before another one, or next to it. -/
def le (collation : Collation) (table : String) (orders : List Fragment) (a b : Row) : Bool :=
  match ranking? orders with
  | some (expression, values) =>
    let place row := rankPlace collation.dialect values (Row.value row table expression)
    decide (place a ≤ place b)
  | none => collation.other table orders a b

/-- Of two rows one comes first or they are ties. -/
theorem le_total (collation : Collation) (table : String) (orders : List Fragment) (a b : Row) :
    (collation.le table orders a b || collation.le table orders b a) = true := by
  unfold le
  split
  · simpa using Std.Total.total _ _
  · exact collation.other_total table orders a b

/-- The order of rows is transitive. -/
theorem le_trans (hab : collation.le table orders a b = true)
    (hbc : collation.le table orders b c = true) : collation.le table orders a c = true := by
  unfold le at *
  -- a ranking is transitive by the places of the keys, any other ordering by assumption
  split
  · next h =>
    simp only [h, decide_eq_true_eq] at hab hbc ⊢
    exact hab.trans hbc
  · next h =>
    simp only [h] at hab hbc
    exact collation.other_trans table orders a b c hab hbc

/-- A row is a tie of itself. -/
theorem le_refl (collation : Collation) (table : String) (orders : List Fragment) (a : Row) :
    collation.le table orders a a = true := by
  simpa using collation.le_total table orders a a

/-- By a ranking, a row with an earlier key comes strictly before one with a later key, or with one
that is not among the keys. -/
theorem not_le_of_idxOf_lt {keys : KeySet} {column : String} {keyA keyB : Key}
    (hkeys : keys.keys ≠ []) (ha : a column = some keyA) (hb : b column = some keyB)
    (h : keys.keys.idxOf keyA < keys.keys.idxOf keyB) :
    collation.le table (keys.rankOrder? (qualified table column)).toList b a = false := by
  simp only [le, ranking?_rankOrder? hkeys, Row.value_qualified, ha, hb, decide_eq_false_iff_not,
    not_le]
  exact rankPlace_lt _ h

/-- Whether the answer to a pluck is the column of all rows that the relation selects, ordered as it
asks for. Its limit leaves no row out. -/
def Answers (collation : Collation) (db : Database) (r : Relation) (column : String)
    (answer : List (Option Key)) : Prop :=
  ∃ rows : List Row, (∀ row, row ∈ rows ↔ db.Selects r row) ∧
    rows.Pairwise (fun a b => collation.le r.table r.orders a b = true) ∧
    (∀ n, r.limit = some n → rows.length ≤ n) ∧
    answer = rows.map fun row => row.value r.table column

end Collation

end FieldQuery.Sql
