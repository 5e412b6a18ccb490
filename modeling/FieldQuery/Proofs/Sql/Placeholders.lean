import FieldQuery.Proofs.Sql.KeySets
import FieldQuery.Sql.Relation
import Mathlib.Algebra.GroupWithZero.Nat

/-!
# Placeholders and parameters

A fragment is balanced if its text has a `?` for every parameter. A statement of balanced fragments
is made of their texts in the order of their parameters, with text that has no `?` between them, so
every placeholder stands in the fragment that its parameter belongs to.
-/

namespace FieldQuery.Sql

open FieldQuery.Text

/-! ## Counting placeholders -/

/-- The number of placeholders in a text. -/
def marks (text : String) : Nat :=
  text.toList.count '?'

/-- A text without placeholders. -/
def Plain (text : String) : Prop :=
  marks text = 0

instance (text : String) : Decidable (Plain text) :=
  inferInstanceAs (Decidable (_ = _))

/-- A plain text has no placeholder. -/
theorem Plain.marks_eq {text : String} (h : Plain text) : marks text = 0 := h

/-- The placeholders of two texts are counted together. -/
@[simp]
theorem marks_append (a b : String) : marks (a ++ b) = marks a + marks b := by
  simp [marks, List.count_append]

/-- Two texts are plain together exactly if each of them is. -/
@[simp]
theorem plain_append {a b : String} : Plain (a ++ b) ↔ Plain a ∧ Plain b := by
  simp [Plain]

/-- A plain separator adds no placeholder. -/
theorem marks_intercalate {separator : String} (hseparator : Plain separator)
    (texts : List String) : marks (separator.intercalate texts) = (texts.map marks).sum := by
  induction texts with
  | nil => rfl
  | cons text rest ih =>
    cases rest with
    | nil => simp
    | cons next rest =>
      rw [String.intercalate_cons_cons, marks_append, marks_append, hseparator.marks_eq, ih]
      simp

/-- Plain texts with a plain separator are plain. -/
theorem plain_intercalate {separator : String} {texts : List String} (hseparator : Plain separator)
    (htexts : ∀ text ∈ texts, Plain text) : Plain (separator.intercalate texts) := by
  rw [Plain, marks_intercalate hseparator]
  refine List.sum_eq_zero_iff_forall_eq_nat.mpr fun n hn => ?_
  obtain ⟨text, htext, rfl⟩ := List.mem_map.mp hn
  exact htexts text htext

/-- A plain column of a plain table has a plain name. -/
theorem plain_qualified {table column : String} (htable : Plain table) (hcolumn : Plain column) :
    Plain (qualified table column) := by
  simp +decide [qualified, htable, hcolumn]

/-- A number is written without a placeholder. -/
theorem plain_toString (n : Nat) : Plain (toString n) := by
  rw [Plain, marks, List.count_eq_zero]
  intro hmem
  have hdigit := Nat.isDigit_of_mem_toDigits (b := 10) (by decide) (by decide)
    (show '?' ∈ Nat.toDigits 10 n by simpa [Nat.repr] using hmem)
  exact absurd hdigit (by decide)

/-! ## Balanced fragments -/

namespace Fragment

/-- The text has a placeholder for every parameter. -/
def Balanced (fragment : Fragment) : Prop :=
  marks fragment.sql = fragment.params.length

/-- A balanced fragment has a placeholder for each parameter. -/
theorem Balanced.marks_eq {fragment : Fragment} (h : fragment.Balanced) :
    marks fragment.sql = fragment.params.length := h

/-- A plain text without parameters is balanced. -/
theorem balanced_ofSql {sql : String} (h : Plain sql) : (ofSql sql).Balanced := h

/-- The comparison of a plain expression with a value is balanced. -/
theorem balanced_equals {expression : String} (h : Plain expression) (value : Param) :
    (equals expression value).Balanced := by
  simp +decide [Balanced, equals, h.marks_eq]

end Fragment

private theorem KeySet.marks_placeholders (n : Nat) : marks (placeholders n) = n := by
  rw [placeholders, marks_intercalate (by decide), List.map_replicate, List.sum_replicate_nat]
  exact Nat.mul_one n

/-- The condition that a plain column has one of some keys is balanced. -/
theorem KeySet.balanced_inList {column : String} (h : Plain column) (keys : KeySet) :
    (keys.inList column).Balanced := by
  rw [KeySet.inList_eq]
  simp only [Fragment.Balanced, memberText, marks_append, h.marks_eq, marks_placeholders]
  simp [marks]

/-- The ranking of a plain column by some keys is balanced. -/
theorem KeySet.balanced_of_rankOrder? {column : String} (h : Plain column) {keys : KeySet}
    {order : Fragment} (horder : keys.rankOrder? column = some order) : order.Balanced := by
  rw [KeySet.rankOrder?_eq] at horder
  split at horder
  · cases horder
  · cases horder
    rw [Fragment.Balanced, rankText, marks_intercalate (by decide), List.map_replicate,
      List.sum_replicate_nat, marks_append, h.marks_eq]
    exact Nat.mul_one _

/-! ## Texts made of fragments -/

/-- A text made of the texts of some fragments in their order, with plain text between them. -/
inductive Spells : String → List Fragment → Prop where
  | plain {text : String} (h : Plain text) : Spells text []
  | fragment {f : Fragment} (h : f.Balanced) : Spells f.sql [f]
  | append {a b : String} {before after : List Fragment} (ha : Spells a before)
      (hb : Spells b after) : Spells (a ++ b) (before ++ after)

namespace Spells

variable {text : String} {fragments : List Fragment}

/-- The placeholders of the text are as many as the parameters of the fragments. -/
theorem marks_eq (h : Spells text fragments) :
    marks text = (fragments.flatMap (·.params)).length := by
  induction h with
  | plain h => exact h
  | fragment h => simpa using h.marks_eq
  | append _ _ iha ihb => simp [iha, ihb]

/-- The text of every fragment comes after as many placeholders as there are parameters of the
fragments before it. -/
theorem exists_place (h : Spells text fragments) {before after : List Fragment} {f : Fragment}
    (hsplit : fragments = before ++ f :: after) :
    ∃ u v, text = u ++ f.sql ++ v ∧ marks u = (before.flatMap (·.params)).length := by
  induction h generalizing before after with
  | plain h => simp at hsplit
  | @fragment g h =>
    obtain ⟨rfl, hrest⟩ | ⟨_, _, hrest⟩ := List.cons_eq_append_iff.mp hsplit
    · obtain ⟨rfl, rfl⟩ := List.cons.inj hrest
      exact ⟨"", "", by simp, rfl⟩
    · simp at hrest
  | @append a b first second ha hb iha ihb =>
    -- The fragment belongs to the second text, or it belongs to the first one.
    rcases List.append_eq_append_iff.mp hsplit with ⟨rest, rfl, hsecond⟩ | ⟨rest, hfirst, hsecond⟩
    · obtain ⟨u, v, rfl, hu⟩ := ihb hsecond
      exact ⟨a ++ u, v, by simp [String.append_assoc], by simp [hu, ha.marks_eq]⟩
    · cases rest with
      | nil =>
        have hstart : second = [] ++ f :: after := hsecond.symm
        obtain ⟨u, v, rfl, hu⟩ := ihb hstart
        rw [List.append_nil] at hfirst
        exact ⟨a ++ u, v, by simp [String.append_assoc], by simpa [hu, hfirst] using ha.marks_eq⟩
      | cons g rest =>
        obtain ⟨rfl, -⟩ := List.cons.inj hsecond
        obtain ⟨u, v, rfl, hu⟩ := iha hfirst
        exact ⟨u, v ++ b, by simp [String.append_assoc], hu⟩

/-- A plain text in front spells no fragment. -/
theorem plain_append (h : Plain text) {other : String} (hother : Spells other fragments) :
    Spells (text ++ other) fragments :=
  append (plain h) hother

private theorem append_plain (h : Spells text fragments) {other : String} (hother : Plain other) :
    Spells (text ++ other) fragments := by
  simpa using append h (plain hother)

/-- Texts that spell a fragment each spell all of them with a plain separator. -/
theorem intercalate {separator : String} {body : Fragment → String} (h : Plain separator)
    (hbody : ∀ f ∈ fragments, Spells (body f) [f]) :
    Spells (separator.intercalate (fragments.map body)) fragments := by
  -- induction on the fragments, with the separator joined to the one before it
  induction fragments with
  | nil => exact plain rfl
  | cons f rest ih =>
    have hf := hbody f List.mem_cons_self
    have hrest := ih fun g hg => hbody g (List.mem_cons_of_mem f hg)
    cases rest with
    | nil => simpa using hf
    | cons g rest =>
      rw [List.map_cons, List.map_cons, String.intercalate_cons_cons, ← List.map_cons]
      have hhead : Spells (body f ++ separator) [f] := hf.append_plain h
      exact append hhead hrest

end Spells

/-! ## Statements -/

namespace Relation

/-- The fragments of a relation in the order of their parameters. -/
def fragments (r : Relation) : List Fragment :=
  r.conditions ++ r.havings ++ r.orders

/-- All fragments are balanced and everything else is plain. -/
structure Balanced (r : Relation) : Prop where
  table : Plain r.table
  joins : ∀ clause ∈ r.joins, Plain clause
  groups : ∀ expression ∈ r.groups, Plain expression
  conditions : ∀ f ∈ r.conditions, f.Balanced
  havings : ∀ f ∈ r.havings, f.Balanced
  orders : ∀ f ∈ r.orders, f.Balanced

namespace Balanced

variable {r : Relation}

/-- All rows of a plain table are balanced. -/
theorem all {table : String} (h : Plain table) (typeName : String) :
    (all table typeName).Balanced :=
  ⟨h, nofun, nofun, nofun, nofun, nofun⟩

/-- A balanced condition leaves a relation balanced. -/
theorem filter (h : r.Balanced) {condition : Fragment} (hcondition : condition.Balanced) :
    (r.filter condition).Balanced := by
  have hconditions : ∀ f ∈ (r.filter condition).conditions, f.Balanced :=
    List.forall_mem_append.mpr ⟨h.conditions, by simpa using hcondition⟩
  exact { h with conditions := hconditions }

/-- A balanced condition on groups leaves a relation balanced. -/
theorem having (h : r.Balanced) {condition : Fragment} (hcondition : condition.Balanced) :
    (r.having condition).Balanced := by
  have hhavings : ∀ f ∈ (r.having condition).havings, f.Balanced :=
    List.forall_mem_append.mpr ⟨h.havings, by simpa using hcondition⟩
  exact { h with havings := hhavings }

/-- Balanced orderings leave a relation balanced. -/
theorem orderBy (h : r.Balanced) {expressions : List Fragment}
    (hexpressions : ∀ f ∈ expressions, f.Balanced) : (r.orderBy expressions).Balanced := by
  have horders : ∀ f ∈ (r.orderBy expressions).orders, f.Balanced :=
    List.forall_mem_append.mpr ⟨h.orders, hexpressions⟩
  exact { h with orders := horders }

/-- A relation without its orderings is balanced. -/
theorem reorder (h : r.Balanced) : r.reorder.Balanced :=
  { h with orders := nofun }

/-- A limit leaves a relation balanced. -/
theorem take (h : r.Balanced) (n : Nat) : (r.take n).Balanced :=
  { h with }

end Balanced

private theorem conjunction_spells {conditions : List Fragment} (h : ∀ f ∈ conditions, f.Balanced) :
    Spells (conjunction conditions) conditions := by
  unfold conjunction
  split
  · exact .fragment (h _ (by simp))
  · -- several conditions are put in brackets, which hold no marks
    refine Spells.intercalate (by decide) fun f hf => ?_
    exact ((Spells.fragment (h f hf)).plain_append (by decide)).append_plain (by decide)

private theorem clause_spells (keyword : String) (body : List Fragment → String) {items : List Fragment}
    (hkeyword : Plain keyword) (h : Spells (body items) items) :
    Spells (clause keyword body items) items := by
  cases items with
  | nil => exact .plain rfl
  | cons f rest => exact h.plain_append hkeyword

/-- The text of a statement spells its fragments in the order of their parameters. -/
theorem selectText_spells {r : Relation} (h : r.Balanced) {projection : String}
    (hprojection : Plain projection) : Spells (r.selectText projection) r.fragments := by
  have hhead : Plain ("SELECT " ++ projection ++ " FROM " ++ r.table) := by
    simp only [plain_append, hprojection, h.table, and_true]
    decide
  have hjoins : Plain (String.join (r.joins.map fun j => " " ++ j)) := by
    rw [Plain, marks, String.toList_join, List.count_eq_zero]
    intro hmem
    obtain ⟨text, htext, hmark⟩ := List.mem_flatMap.mp hmem
    obtain ⟨j, hj, rfl⟩ := List.mem_map.mp htext
    have hplain : Plain (" " ++ j) := plain_append.mpr ⟨by decide, h.joins j hj⟩
    exact List.count_eq_zero.mp hplain hmark
  have hgroups : Plain (clause " GROUP BY " (fun gs => ", ".intercalate gs) r.groups) := by
    unfold clause
    split
    · decide
    · exact plain_append.mpr ⟨by decide, plain_intercalate (by decide) h.groups⟩
  -- Parameters stand in three clauses only, in the order of `fragments`.
  have hwhere := clause_spells " WHERE " conjunction (by decide) (conjunction_spells h.conditions)
  have hhaving := clause_spells " HAVING " conjunction (by decide) (conjunction_spells h.havings)
  have horder := clause_spells " ORDER BY " (fun os => ", ".intercalate (os.map (·.sql)))
    (by decide) (Spells.intercalate (by decide) fun f hf => .fragment (h.orders f hf))
  have hbody := (((hwhere.plain_append (plain_append.mpr ⟨hhead, hjoins⟩)).append_plain
    hgroups).append hhaving).append horder
  unfold selectText
  refine hbody.append_plain ?_
  split
  · exact plain_append.mpr ⟨by decide, plain_toString _⟩
  · decide

/-! ## Numbered placeholders -/

/-- Texts with markers between them, the first one numbered by `n`. -/
def withMarkers (marker : Nat → List Char) (n : Nat) : List (List Char) → List Char
  | [] => []
  | [text] => text
  | text :: rest => text ++ marker n ++ withMarkers marker (n + 1) rest

/-- A marker stands between a text and those after it. -/
theorem withMarkers_cons {texts : List (List Char)} (marker : Nat → List Char) (n : Nat)
    (text : List Char) (h : texts ≠ []) :
    withMarkers marker n (text :: texts) =
      text ++ marker n ++ withMarkers marker (n + 1) texts := by
  cases texts with
  | nil => exact absurd rfl h
  | cons next rest => rfl

private theorem withMarkers_modifyHead {texts : List (List Char)} (marker : Nat → List Char) (n : Nat)
    (c : Char) (h : texts ≠ []) :
    withMarkers marker n (texts.modifyHead (c :: ·)) = c :: withMarkers marker n texts := by
  -- the character goes into the first piece, whether a marker follows it or not
  cases texts with
  | nil => exact absurd rfl h
  | cons text rest =>
    cases rest with
    | nil => rfl
    | cons next rest => rfl

/-- The placeholders are replaced by their numbers, and nothing else in the text is. -/
theorem numberedFrom_eq (n : Nat) (text : List Char) :
    numberedFrom n text = withMarkers (fun k => '$' :: natDigits k) n (text.splitOn '?') := by
  -- induction on the text, cut at its marks: every mark closes a piece and takes the next number
  induction text generalizing n with
  | nil => rfl
  | cons c rest ih =>
    have hne : rest.splitOn '?' ≠ [] := List.splitOn_ne_nil _ _
    rw [numberedFrom, List.splitOn_cons_eq_if_modifyHead]
    by_cases hc : c = '?'
    · rw [if_pos hc, if_pos (by simpa using hc), withMarkers_cons _ _ _ hne, ih]
      rfl
    · rw [if_neg hc, if_neg (by simpa using hc), withMarkers_modifyHead _ _ _ hne, ih]

/-- A statement with its parameters: every placeholder stands in the fragment that owns the
parameter of the same number. -/
structure Aligned (r : Relation) (projection : String) : Prop where
  balanced : ∀ f ∈ r.fragments, f.Balanced
  marks_eq : ∀ dialect : Dialect, dialect.isPostgres = false →
    marks (r.statement dialect projection).sql = (r.statement dialect projection).params.length
  sql_eq : (r.statement .mysql projection).sql = (r.statement .sqlite projection).sql
  numbered : (r.statement .postgres projection).sql =
    String.ofList (withMarkers (fun k => '$' :: natDigits k) 1
      ((r.statement .mysql projection).sql.toList.splitOn '?'))
  params_eq : ∀ dialect : Dialect, (r.statement dialect projection).params =
    r.conditions.flatMap (·.params) ++ r.havings.flatMap (·.params) ++ r.orders.flatMap (·.params)
  /-- Before the text of a fragment there is a placeholder for every parameter before its own. -/
  place : ∀ before f after, r.fragments = before ++ f :: after →
    ∃ u v, (r.statement .mysql projection).sql = u ++ f.sql ++ v ∧
      marks u = (before.flatMap (·.params)).length

/-- The placeholders of a balanced relation are those of its parameters, in their order. -/
theorem Balanced.aligned {r : Relation} (h : r.Balanced) {projection : String}
    (hprojection : Plain projection) : r.Aligned projection where
  balanced := by
    simp only [fragments, List.forall_mem_append]
    exact ⟨⟨h.conditions, h.havings⟩, h.orders⟩
  marks_eq dialect hdialect := by
    simp only [statement, hdialect, Bool.false_eq_true, if_false]
    -- a statement is its clauses in the order of their fragments, so the marks are as well
    exact (selectText_spells h hprojection).marks_eq
  sql_eq := rfl
  numbered := congrArg String.ofList (numberedFrom_eq 1 _)
  params_eq dialect := by simp [statement, params, List.flatMap_append]
  place before f after hsplit := (selectText_spells h hprojection).exists_place hsplit

end Relation

end FieldQuery.Sql
