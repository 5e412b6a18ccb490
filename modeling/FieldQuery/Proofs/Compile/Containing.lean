import FieldQuery.Proofs.Compile.Linking
import FieldQuery.Proofs.Sql.Patterns

/-!
# Searches for texts

A fuzzy search for a text asks for the rows with this text in a column, or in one of some columns,
and makes a pattern of it. The characters of the text are left as they are, so those that stand for
others in a pattern do so here. Main statement: which texts the conditions accept, and for which
values these are the ones that contain the value.
-/

namespace FieldQuery

namespace Sql

/-- Whether a text in a column fulfils a condition that compares the column with a pattern. -/
def Fragment.AcceptsText (folding : CaseFolding) (dialect : Dialect) (condition : Fragment)
    (column : String) (v : List Char) : Prop :=
  match condition.params with
  | [.text pattern] =>
    condition.sql = column ++ " " ++ dialect.fuzzyOperator ++ " ?" ∧
      folding.likes pattern.toList v
  | _ => False

/-- What a condition for a text in a column finds: the texts with a part that the text accepts as a
pattern. Those that contain the text are among them, and are all of them only if the text has no
character that stands for others. -/
structure Fragment.FindsText (folding : CaseFolding) (dialect : Dialect) (condition : Fragment)
    (column text : String) : Prop where
  accepts_iff : ∀ v, condition.AcceptsText folding dialect column v ↔
    ∃ part, part <:+: v ∧ folding.likes text.toList part
  accepts_of_contains : ∀ v, folding.Contains v text.toList →
    condition.AcceptsText folding dialect column v
  accepts_iff_contains_iff :
    (∀ v, condition.AcceptsText folding dialect column v ↔ folding.Contains v text.toList) ↔
      '%' ∉ text.toList ∧ '_' ∉ text.toList

end Sql

namespace Compile

open FieldQuery.Compilation FieldQuery.Sql FieldQuery.Value

variable (folding : CaseFolding) {dialect : Dialect} {column text : String}

private theorem acceptsText_textCondition {v : List Char} :
    (textCondition dialect true column text).AcceptsText folding dialect column v ↔
      folding.likes ('%' :: (text.toList ++ ['%'])) v := by
  simp [textCondition, Fragment.AcceptsText]

private theorem findsText_textCondition :
    (textCondition dialect true column text).FindsText folding dialect column text where
  accepts_iff _ := (acceptsText_textCondition folding).trans CaseFolding.likes_between
  accepts_of_contains _ h :=
    (acceptsText_textCondition folding).mpr (CaseFolding.likes_of_contains h)
  accepts_iff_contains_iff := by
    simp only [acceptsText_textCondition, CaseFolding.likes_iff_contains_iff]

/-! ## The two searches -/

/-- Whether the values of a type are texts that are searched as they are. -/
def IsText (type : FieldType) : Prop :=
  type = .string ∨ type = .text ∨ type = .email

private theorem parseValue_of_isText (entity : Entity) {type : FieldType} (htype : IsText type)
    {value : Json} (hvalue : value.isNullMarker = false) :
    entity.parseValue type value = .ok (.text value.typedText) := by
  rcases htype with rfl | rfl | rfl <;>
    simp only [Entity.parseValue, Value.parseValue, hvalue, Bool.false_eq_true, if_false]

private theorem searchClause_of_isText (settings : Settings) (entity : Entity) {field : String}
    {value : Json} {options : SearchOptions}
    (hcolumn : isAggregate (entity.columnFor field options.sqlColumn) = false)
    (htype : IsText (entity.resolveWith field options.type).type)
    (hvalue : value.isNullMarker = false) :
    searchClause settings entity field value options = do
      .note (.search (entity.resolveWith field options.type).type)
      return .condition (textCondition settings.dialect options.fuzzy
        (entity.columnFor field options.sqlColumn) value.typedText) := by
  have hterm := parseValue_of_isText entity htype hvalue
  refine searchClause_of_plain hcolumn rfl ?_ hterm (fun h => by cases h.1) ?_
  · rcases htype with h | h | h <;> rw [h] <;> exact ⟨rfl, by decide⟩
  · rcases htype with h | h | h <;> rw [h] <;> rfl

/-- A search in all fields adds its condition. -/
theorem run_searchAny {σ : Type} (backend : Backend σ) (s : σ) {compiler : Compiler}
    (bound : Relation) {value : Json} {options : SearchAnyOptions} :
    ((compiler.bind bound).searchAny value options).run backend s =
      let any := anyCondition compiler.settings.dialect compiler.entity value options
      (.ok (bound.filter any.2), backend.count any.1 s) :=
  rfl

/-- A fuzzy search for a text in a field, and one in all fields, finds in each column the texts with
a part that the value accepts as a pattern. -/
theorem fuzzy_finds_text {σ : Type} (backend : Backend σ) (s : σ) (compiler : Compiler)
    (bound : Relation) (value : Json) :
    (∀ (field : String) (options : SearchOptions),
      let type := (compiler.entity.resolveWith field options.type).type
      let column := compiler.entity.columnFor field options.sqlColumn
      options.fuzzy = true → isAggregate column = false → IsText type →
        value.isNullMarker = false →
          ∃ condition,
            ((compiler.bind bound).search field value options).run backend s =
              (.ok (bound.filter condition), backend.count (.search type) s) ∧
            condition.FindsText folding compiler.settings.dialect column value.typedText) ∧
    ∀ options : SearchAnyOptions,
      let fields := options.fields.getD compiler.entity.searchFields
      options.fuzzy = true → keysOfValue? value = none →
        ∃ conditions,
          ((compiler.bind bound).searchAny value options).run backend s =
            (.ok (bound.filter
              (if fields.isEmpty then .never else .join " OR " conditions)),
              backend.count .searchAnyText s) ∧
          List.Forall₂ (fun field condition => condition.FindsText folding
            compiler.settings.dialect (compiler.entity.sqlColumn field) value.typedText)
              fields conditions := by
  constructor
  · -- one field: the condition is the text condition itself, whatever its column
    intro field options type column hfuzzy hcolumn htype hvalue
    refine ⟨textCondition compiler.settings.dialect true column value.typedText, ?_,
      findsText_textCondition folding⟩
    rw [run_search_of_searchClause backend s bound
      (searchClause_of_isText compiler.settings compiler.entity hcolumn htype hvalue), hfuzzy]
    rfl
  · -- any field: one text condition for each field, joined by OR
    intro options fields hfuzzy hkeys
    refine ⟨fields.map fun field => textCondition compiler.settings.dialect true
      (compiler.entity.sqlColumn field) value.typedText, ?_, ?_⟩
    · have hcondition : anyCondition compiler.settings.dialect compiler.entity value options =
          (.searchAnyText, anyTextCondition compiler.settings.dialect compiler.entity fields true
            value.typedText) := by
        rw [anyCondition, hkeys, hfuzzy]
      rw [run_searchAny, hcondition]
      rfl
    · rw [List.forall₂_map_right_iff]
      exact List.forall₂_same.mpr fun field _ => findsText_textCondition folding

/-! ## Names in the library -/

namespace Library

/-- The authors with a given text in their name, in any case. -/
theorem fuzzy_finds_names :
    (∃ condition,
      ((compiler.bind author.relation).search "name" (.string "Lee") {}).run store () =
        (.ok (author.relation.filter condition), ()) ∧
      ∀ v, condition.AcceptsText .ascii .sqlite "authors.name" v ↔
        CaseFolding.ascii.Contains v "Lee".toList) ∧
    ∃ condition,
      ((compiler.bind author.relation).searchAny (.string "Lee") {}).run store () =
        (.ok (author.relation.filter (.join " OR " [condition])), ()) ∧
      ∀ v, condition.AcceptsText .ascii .sqlite "authors.name" v ↔
        CaseFolding.ascii.Contains v "Lee".toList := by
  -- neither `%` nor `_` stands in the text, so what is found is what contains it
  have hplain : '%' ∉ "Lee".toList ∧ '_' ∉ "Lee".toList := by decide
  have hfinds := fuzzy_finds_text .ascii store () compiler author.relation (.string "Lee")
  constructor
  · obtain ⟨condition, hrun, hfound⟩ :=
      hfinds.1 "name" {} rfl (by decide +kernel) (Or.inl (by decide +kernel)) (by decide +kernel)
    exact ⟨condition, hrun, hfound.accepts_iff_contains_iff.mpr hplain⟩
  · obtain ⟨conditions, hrun, hall⟩ := hfinds.2 {} rfl (by decide +kernel)
    obtain ⟨condition, _, hfound, hnil, rfl⟩ := List.forall₂_cons_left_iff.mp hall
    obtain rfl := List.forall₂_nil_left_iff.mp hnil
    exact ⟨condition, hrun, hfound.accepts_iff_contains_iff.mpr hplain⟩

/-- A search for 50% finds 50 cents. -/
theorem fuzzy_finds_other_names :
    ((compiler.bind author.relation).search "name" (.string "50%") {}).run store () =
        (.ok (author.relation.filter ⟨"authors.name LIKE ?", [.text "%50%%"]⟩), ()) ∧
      ((compiler.bind author.relation).searchAny (.string "50%") {}).run store () =
        (.ok (author.relation.filter ⟨"authors.name LIKE ?", [.text "%50%%"]⟩), ()) ∧
      Fragment.AcceptsText .ascii .sqlite ⟨"authors.name LIKE ?", [.text "%50%%"]⟩ "authors.name"
        "50 cents".toList ∧
      ¬ CaseFolding.ascii.Contains "50 cents".toList "50%".toList :=
  ⟨by decide +kernel, by decide +kernel, ⟨by decide +kernel, by decide +kernel⟩, by decide +kernel⟩

end Library

end Compile

end FieldQuery
