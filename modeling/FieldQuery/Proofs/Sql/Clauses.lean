import FieldQuery.Proofs.Sql.Formulas

/-!
# Clauses of a statement

The WHERE and the HAVING clause of a statement join conditions by AND. Each condition is put into
parentheses if there are several, so that an OR inside of one does not reach into the next one.
Main statement: a clause over conditions that can be read is read in exactly one way, and is true
under a truth assignment exactly if all the conditions are.
-/

namespace FieldQuery.Sql

open FieldQuery.Text FieldQuery.Sql.Relation

/-! ## Readings of texts -/

/-- A text that can be read at a level. -/
def Legible (level : Level) (text : String) : Prop :=
  ∃ tokens f, tokens? text.toList = some tokens ∧ Reads level tokens f

/-- The reading of a text whose first parameter has the number `n`. -/
def ReadsAs (n : Nat) (text : String) (f : Formula) : Prop :=
  ∃ tokens, tokens? (numberedFrom n text.toList) = some tokens ∧ Reads .disjunction tokens f

/-- The truth of a text whose first parameter has the number `n`. -/
def IsTrue (truth : List Token → Prop) (n : Nat) (text : String) : Prop :=
  ∃ f, ReadsAs n text f ∧ f.Holds truth

/-- The truth of all conditions of a list, the first parameter of which has the number `n`. -/
def AllTrue (truth : List Token → Prop) (n : Nat) : List Fragment → Prop
  | [] => True
  | condition :: rest =>
    IsTrue truth n condition.sql ∧ AllTrue truth (n + marks condition.sql) rest

variable {n : Nat} {text : String} {f g : Formula} {truth : List Token → Prop}

/-- A text is read as one formula at most. -/
theorem ReadsAs.unique (hf : ReadsAs n text f) (hg : ReadsAs n text g) : f = g := by
  obtain ⟨tokens, htokens, hreads⟩ := hf
  obtain ⟨tokens', htokens', hreads'⟩ := hg
  obtain rfl := Option.some.inj (htokens.symm.trans htokens')
  exact hreads.unique hreads'

private theorem ReadsAs.isTrue_iff (h : ReadsAs n text f) : IsTrue truth n text ↔ f.Holds truth := by
  constructor
  · rintro ⟨g, hg, hholds⟩
    rwa [h.unique hg]
  · exact fun hholds => ⟨f, h, hholds⟩

/-- A text that can be read is read in exactly one way, whatever the number of its first parameter
is. -/
theorem Legible.exists_readsAs (h : Legible .disjunction text) (n : Nat) :
    ∃ f, ReadsAs n text f := by
  obtain ⟨tokens, f, htokens, hf⟩ := h
  obtain ⟨numbered, hnumbered, hshape⟩ := exists_tokens?_numberedFrom htokens n
  obtain ⟨g, hg⟩ := hf.exists_of_map_shape_eq hshape
  exact ⟨g, numbered, hnumbered, hg⟩

/-! ## Conditions joined by AND -/

private theorem marks_enclosed (text : String) : marks ("(" ++ text ++ ")") = marks text := by
  have hopening : Plain "(" := by decide
  have hclosing : Plain ")" := by decide
  rw [marks_append, marks_append, hopening.marks_eq, hclosing.marks_eq, Nat.zero_add, Nat.add_zero]

/-- A condition in parentheses is an operand. -/
theorem ReadsAs.enclosed (h : ReadsAs n text f) :
    ∃ tokens, tokens? (numberedFrom n ("(" ++ text ++ ")").toList) = some tokens ∧
      Reads .operand tokens f := by
  obtain ⟨tokens, htokens, hf⟩ := h
  refine ⟨_, ?_, .group hf⟩
  -- brackets hold no marks, so the numbers inside start where they did
  have htext : numberedFrom n ("(" ++ text ++ ")").toList =
      '(' :: numberedFrom n text.toList ++ [')'] := by
    simp [numberedFrom_append, numberedFrom]
  rw [htext]
  exact tokens?_enclosed htokens

private theorem tokens?_and {a b : String} {first second : List Token}
    (ha : tokens? (numberedFrom n a.toList) = some first)
    (hb : tokens? (numberedFrom (n + marks a) b.toList) = some second) :
    tokens? (numberedFrom n (a ++ " AND " ++ b).toList) = some (first ++ .and :: second) := by
  have hand : tokens? "AND".toList = some [.and] := by decide
  -- the connective holds no marks, so the second text goes on counting from the first
  have hplain : Plain " AND " := by decide
  have hjoined := tokens?_append_word ha hand hb
  rw [numberedFrom_toList_append, marks_append, hplain.marks_eq, numberedFrom_toList_append,
    numberedFrom_of_plain _ hplain]
  simpa using hjoined

/-- Conditions in parentheses with AND between them are read as a conjunction, which holds if all of
them do. -/
theorem exists_reads_intercalate {conditions : List Fragment} (hne : conditions ≠ [])
    (h : ∀ c ∈ conditions, Legible .disjunction c.sql) (n : Nat) :
    ∃ tokens f,
      tokens? (numberedFrom n
        (" AND ".intercalate (conditions.map fun c => "(" ++ c.sql ++ ")")).toList) = some tokens ∧
      Reads .conjunction tokens f ∧ ∀ truth, f.Holds truth ↔ AllTrue truth n conditions := by
  -- The number of the next parameter moves on by the placeholders of each condition.
  induction conditions generalizing n with
  | nil => exact absurd rfl hne
  | cons condition rest ih =>
    obtain ⟨hcondition, hrest⟩ := List.forall_mem_cons.mp h
    obtain ⟨f, hf⟩ := hcondition.exists_readsAs n
    obtain ⟨tokens, htokens, hreads⟩ := hf.enclosed
    cases rest with
    | nil =>
      refine ⟨tokens, f, by simpa using htokens, .operand hreads, fun truth => ?_⟩
      simp [AllTrue, hf.isTrue_iff]
    | cons next rest =>
      obtain ⟨others, g, hothers, hg, hholds⟩ :=
        ih (List.cons_ne_nil _ _) hrest (n + marks condition.sql)
      obtain ⟨whole, hwhole, hwholeHolds⟩ := Reads.exists_and (.operand hreads) hg nofun
      refine ⟨_, whole, ?_, hwhole, fun truth => ?_⟩
      · rw [← marks_enclosed condition.sql] at hothers
        exact String.intercalate_cons_cons ▸ tokens?_and htokens hothers
      · rw [hwholeHolds, hholds, ← hf.isTrue_iff]
        rfl

/-- The conditions of a relation, if there are any, are read in one way, as a formula that holds if
all of them do. -/
theorem exists_readsAs_conjunction {conditions : List Fragment} (hne : conditions ≠ [])
    (h : ∀ c ∈ conditions, Legible .disjunction c.sql) (n : Nat) :
    ∃ f, ReadsAs n (conjunction conditions) f ∧
      ∀ truth, f.Holds truth ↔ AllTrue truth n conditions := by
  unfold conjunction
  split
  · -- A single condition is written without parentheses, and nothing stands next to it.
    next condition =>
    obtain ⟨f, hf⟩ := (h condition List.mem_cons_self).exists_readsAs n
    refine ⟨f, hf, fun truth => ?_⟩
    simp [AllTrue, hf.isTrue_iff]
  · obtain ⟨tokens, f, htokens, hf, hholds⟩ := exists_reads_intercalate hne h n
    exact ⟨f, ⟨tokens, htokens, .conjunction hf⟩, hholds⟩

/-! ## Statements -/

/-- A part of a statement as a dialect writes it, if the first placeholder of the part has the
number `n`. -/
def rendered (dialect : Dialect) (n : Nat) (text : String) : String :=
  if dialect.isPostgres then String.ofList (numberedFrom n text.toList) else text

private theorem rendered_append (dialect : Dialect) (n : Nat) (a b : String) :
    rendered dialect n (a ++ b) = rendered dialect n a ++ rendered dialect (n + marks a) b := by
  unfold rendered
  split
  · rw [numberedFrom_toList_append, String.ofList_append]
  · rfl

private theorem rendered_of_plain (dialect : Dialect) (n : Nat) {text : String} (h : Plain text) :
    rendered dialect n text = text := by
  unfold rendered
  split
  · rw [numberedFrom_of_plain n h, String.ofList_toList]
  · rfl

/-- How a text is read does not depend on whether the dialect writes the numbers. -/
theorem readsAs_rendered (dialect : Dialect) :
    ReadsAs n (rendered dialect n text) f ↔ ReadsAs n text f := by
  unfold rendered ReadsAs
  split
  · rw [String.toList_ofList, numberedFrom_numberedFrom]
  · exact Iff.rfl

/-- A clause of a statement says of some conditions that all of them hold: there is none if there
are no conditions, and otherwise a keyword and a text that has one reading. -/
structure Conjoins (keyword : String) (n : Nat) (conditions : List Fragment) (clause : String) :
    Prop where
  omitted : conditions = [] → clause = ""
  read : conditions ≠ [] → ∃ body, clause = keyword ++ body ∧ (∃! f, ReadsAs n body f) ∧
    ∀ truth, IsTrue truth n body ↔ AllTrue truth n conditions

/-- A clause over conditions that can be read holds exactly if they all do. -/
theorem conjoins_clause {keyword : String} (hkeyword : Plain keyword) {conditions : List Fragment}
    (h : ∀ c ∈ conditions, Legible .disjunction c.sql) (dialect : Dialect) (n : Nat) :
    Conjoins keyword n conditions
      (rendered dialect n (clause keyword conjunction conditions)) where
  omitted hnil := by
    subst hnil
    exact rendered_of_plain dialect n rfl
  read hne := by
    obtain ⟨f, hf, hholds⟩ := exists_readsAs_conjunction hne h n
    have hbody := (readsAs_rendered dialect).mpr hf
    -- the text is the keyword and the conjunction, so the conjunction's reading is the clause's
    refine ⟨rendered dialect n (conjunction conditions), ?_, ⟨f, hbody, fun g hg => ?_⟩, ?_⟩
    · rw [clause, if_neg (by simpa using hne), rendered_append, rendered_of_plain _ _ hkeyword,
        hkeyword.marks_eq, Nat.add_zero]
    · exact hg.unique hbody
    · exact fun truth => hbody.isTrue_iff.trans (hholds truth)

namespace Relation

/-- The part of a statement before its WHERE clause. -/
def selection (r : Relation) (projection : String) : String :=
  "SELECT " ++ projection ++ " FROM " ++ r.table ++ String.join (r.joins.map fun j => " " ++ j)

def whereText (r : Relation) : String :=
  clause " WHERE " conjunction r.conditions

def groupText (r : Relation) : String :=
  clause " GROUP BY " (fun gs => ", ".intercalate gs) r.groups

def havingText (r : Relation) : String :=
  clause " HAVING " conjunction r.havings

/-- The part of a statement after its HAVING clause. -/
def rankingText (r : Relation) : String :=
  clause " ORDER BY " (fun os => ", ".intercalate (os.map (·.sql))) r.orders
    ++ (match r.limit with | some n => " LIMIT " ++ toString n | none => "")

/-- Every condition on rows or groups can be read. -/
structure IsLegible (r : Relation) : Prop where
  conditions : ∀ c ∈ r.conditions, Legible .disjunction c.sql
  havings : ∀ c ∈ r.havings, Legible .disjunction c.sql

/-- A relation stays legible with one more condition. -/
theorem IsLegible.filter {r : Relation} (h : r.IsLegible) {condition : Fragment}
    (hcondition : Legible .disjunction condition.sql) : (r.filter condition).IsLegible where
  conditions := List.forall_mem_append.mpr ⟨h.conditions, by simpa using hcondition⟩
  havings := h.havings

/-- A relation stays legible with one more condition on groups. -/
theorem IsLegible.having {r : Relation} (h : r.IsLegible) {condition : Fragment}
    (hcondition : Legible .disjunction condition.sql) : (r.having condition).IsLegible where
  conditions := h.conditions
  havings := List.forall_mem_append.mpr ⟨h.havings, by simpa using hcondition⟩

/-- A statement has a clause that says that all conditions hold, and one that says so of all
conditions on groups. -/
def Conjoined (r : Relation) (dialect : Dialect) (projection : String) : Prop :=
  let first := 1 + marks (r.selection projection)
  let second := first + marks r.whereText + marks r.groupText
  ∃ whereClause havingClause,
    (r.statement dialect projection).sql =
      rendered dialect 1 (r.selection projection) ++ whereClause ++
        rendered dialect (first + marks r.whereText) r.groupText ++ havingClause ++
        rendered dialect (second + marks r.havingText) r.rankingText ∧
      Conjoins " WHERE " first r.conditions whereClause ∧
      Conjoins " HAVING " second r.havings havingClause

/-- The text of a selection is made of its clauses, one after another. -/
theorem selectText_eq (r : Relation) (projection : String) :
    r.selectText projection =
      r.selection projection ++ r.whereText ++ r.groupText ++ r.havingText ++ r.rankingText := by
  delta selectText rankingText
  rw [← String.append_assoc]
  rfl

private theorem statement_sql (r : Relation) (dialect : Dialect) (projection : String) :
    (r.statement dialect projection).sql = rendered dialect 1 (r.selectText projection) :=
  rfl

/-- If the conditions of a relation can be read, then so can the clauses of its statements, and these
say that all conditions hold. -/
theorem IsLegible.conjoined {r : Relation} (h : r.IsLegible) (dialect : Dialect)
    (projection : String) : r.Conjoined dialect projection := by
  refine ⟨rendered dialect _ r.whereText, rendered dialect _ r.havingText, ?_,
    conjoins_clause (by decide) h.conditions dialect _,
    conjoins_clause (by decide) h.havings dialect _⟩
  rw [statement_sql, selectText_eq, rendered_append, rendered_append, rendered_append,
    rendered_append]
  simp only [marks_append, Nat.add_assoc]

end Relation

end FieldQuery.Sql
