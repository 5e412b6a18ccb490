import FieldQuery.Proofs.Catalog.JoinTables
import FieldQuery.Proofs.Compile.Forced
import FieldQuery.Proofs.Compile.Series
import FieldQuery.Proofs.Entity.Columns

/-!
# Searches and orderings by references

A reference is kept in columns of the rows that point at others: one for the key, and a second one
for the type if the reference is polymorphic. Requests find these columns in two ways, in the
association of a field and in the expression of the field itself. Main statements: where a request
for a direct reference tests for NULL and where it compares keys, which columns a request for a
polymorphic reference compares and orders by, and for which fields both ways lead to the same ones.
-/

namespace FieldQuery

open FieldQuery.Catalog FieldQuery.Compilation FieldQuery.Compile FieldQuery.Schema FieldQuery.Sql

namespace Compile

variable {settings : Settings} {entity : Entity} {field : String} {association : Association}

/-- The column of the owner that takes part in a direct link is that of the key. -/
theorem ownColumn_of_direct? {catalog : FieldQuery.Catalog}
    (h : catalog.direct? field = some association) (owner : Target) :
    association.ownColumn owner = association.foreignKey := by
  obtain ⟨-, -, hdirect⟩ := Catalog.named?_eq_some h
  -- a direct reference is a single step with the foreign key on the owner's side
  cases association with
  | through => cases hdirect
  | step link =>
    obtain ⟨name, foreignKey, kind⟩ := link
    cases kind with
    | direct => rfl
    | polymorphic | reversed | manyToMany => cases hdirect

/-! ## Direct references -/

section Direct

variable (hdirect : entity.catalog.direct? field = some association)
include hdirect

private theorem searchClause_direct {value : Json} {options : SearchOptions}
    (hfield : entity.resolveWith field options.type = ⟨.directReference, some association⟩)
    (hcolumn : isAggregate (entity.columnFor field options.sqlColumn) = false)
    (hvalue : value.isNullMarker = false) :
    (searchClause settings entity field value options).Ensures {} fun clause =>
      ∃ keys : KeySet, clause = .condition (keys.inList (entity.column association.foreignKey)) := by
  -- a direct reference is translated by its association, and that one ends in the foreign key
  have htranslates : Translates entity field value options := by
    simp [Translates, hcolumn, hfield, hvalue, FieldType.isAssociation]
  have htranslated : translated settings entity field value options =
      associationCondition settings entity association value options.fuzzy := by
    simp [translated, hfield, Entity.require, FieldType.isAssociation]
  rw [searchClause_of_translates htranslates, htranslated]
  refine Ensures.note.bind fun _ _ => ?_
  refine (associationCondition_column association value options.fuzzy).bind ?_
  rintro condition ⟨keys, rfl⟩
  exact Ensures.pure ⟨keys, by rw [ownColumn_of_direct? hdirect]⟩

private theorem orderClauses_direct {levels : Nat} {direction : Direction} {options : OrderOptions}
    (hfield : entity.resolveWith field options.type = ⟨.directReference, some association⟩) :
    (orderClauses settings levels entity field direction options).Ensures {} fun expressions =>
      ∃ keys : KeySet, expressions =
        .ofSql (entity.columnFor field options.sqlColumn ++ " IS NULL DESC") ::
          rankBy (entity.column association.foreignKey) keys := by
  rw [orderClauses_eq, orderWith_of_isAssociation hfield rfl]
  refine Ensures.note.bind fun _ _ => ?_
  refine (rankByAssociation_column _).bind ?_
  rintro rank ⟨keys, rfl⟩
  exact Ensures.pure ⟨keys, by rw [ownColumn_of_direct? hdirect, framed, if_pos rfl]⟩

end Direct

/-! ## Polymorphic references -/

/-- A polymorphic link has the key that is declared for it, or else the conventional one, and always
the conventional column of types. -/
theorem exists_declaration_of_polymorphic? {provider : Provider} {owner : Naming.EntityName}
    {schema : EntitySchema}
    (h : (Catalog.ofSchema provider owner schema).polymorphic? field = some association) :
    ∃ d ∈ schema.associations, d.name = field ∧
      association = .step ⟨field, d.foreignKey.getD (field ++ "_id"),
        .polymorphic (field ++ "_type")⟩ := by
  obtain ⟨hmem, rfl, hpolymorphic⟩ := Catalog.named?_eq_some h
  cases association with
  | through => cases hpolymorphic
  | step link =>
    obtain ⟨d, hd, rfl⟩ := exists_describe_of_step hmem
    refine ⟨d, hd, name_describe.symm, ?_⟩
    -- Of all kinds of declarations only one has a link of this kind.
    simp only [Association.name, name_describe]
    unfold describe at hpolymorphic ⊢
    cases hkind : d.kind <;> simp only [hkind] at hpolymorphic ⊢
    case belongsTo =>
      cases hvaries : d.polymorphic <;> rw [hvaries] at hpolymorphic
      · cases hpolymorphic
      · rfl
    all_goals cases hpolymorphic

/-- A condition that compares a column of keys and a column of types with parameters, and asks for
both of them or for one. -/
def ComparesPair (condition : Fragment) (keyColumn typeColumn : String) : Prop :=
  ∃ connective ∈ [" AND ", " OR "], ∃ (id : Int64) (type : String),
    condition = .join connective
      [.equals keyColumn (.integer id), .equals typeColumn (.text type)]

private theorem comparesPair_polymorphicCondition {column text : String} :
    ComparesPair (polymorphicCondition column text) (column ++ "_id") (column ++ "_type") := by
  unfold polymorphicCondition
  simp only
  split
  · next type id _ =>
    refine ⟨" AND ", by simp, id, type, ?_⟩
    simp [Fragment.join, Fragment.equals, String.append_assoc]
  · refine ⟨" OR ", by simp, (Text.readInt64? (Text.trim text.toList)).getD sentinelKey, text, ?_⟩
    simp [Fragment.join, Fragment.equals, String.append_assoc]

/-- Every value can be searched for, also one that stands for NULL elsewhere. -/
theorem searchClause_polymorphic {value : Json} {options : SearchOptions}
    (hfield : (entity.resolveWith field options.type).type = .polymorphicReference)
    (hcolumn : isAggregate (entity.columnFor field options.sqlColumn) = false) :
    searchClause settings entity field value options = do
      .note (.search .polymorphicReference)
      return .condition (polymorphicCondition (entity.columnFor field options.sqlColumn)
        value.typedText) := by
  -- a pair is compared as text, so there is nothing to parse and nothing to refuse
  have hterm : ∃ term, entity.parseValue .polymorphicReference value = .ok term := by
    unfold Entity.parseValue Value.parseValue
    split <;> exact ⟨_, rfl⟩
  obtain ⟨term, hterm⟩ := hterm
  apply searchClause_of_plain hcolumn hfield ⟨rfl, by decide⟩ hterm
  · rintro ⟨-, haccepts⟩
    cases haccepts
  · cases term <;> rfl

private theorem orderClauses_polymorphic {levels : Nat} {direction : Direction} {options : OrderOptions}
    (hfield : (entity.resolveWith field options.type).type = .polymorphicReference) :
    orderClauses settings levels entity field direction options =
      .count (.order .polymorphicReference) (.done
        [.ofSql (entity.columnFor field options.sqlColumn ++ "_type " ++ direction.sql),
          .ofSql (entity.columnFor field options.sqlColumn ++ "_id " ++ direction.sql)]) := by
  rw [orderClauses_eq]
  unfold orderWith
  simp only [hfield]
  rfl

end Compile

/-- Requests for a direct reference compare keys with the column of the key, and test the column of
the field for NULL. Both are the same column if and only if the field reads the key: its name stands
for the reference, and for nothing else. -/
theorem reference_columns {σ : Type} (backend : Backend σ) (s : σ) (compiler : Compiler)
    (bound : Relation) (field : String) (association : Association)
    (hfield : compiler.entity.resolve field = ⟨.directReference, some association⟩) :
    let column := compiler.entity.sqlColumn field
    let key := compiler.entity.column association.foreignKey
    (∀ (value : Json) (options : SearchOptions), options.sqlColumn = none →
      compiler.entity.resolveWith field options.type = compiler.entity.resolve field →
      isAggregate column = false →
        (value.isNullMarker = true →
          ((compiler.bind bound).search field value options).run backend s =
            (.ok (bound.filter (.ofSql (column ++ " IS NULL"))),
              backend.count (.search .directReference) s)) ∧
        (value.isNullMarker = false → ∀ result s',
          ((compiler.bind bound).search field value options).run backend s = (.ok result, s') →
            ∃ keys : KeySet, result = bound.filter (keys.inList key))) ∧
    (∀ (direction : Direction) (options : OrderOptions), options.sqlColumn = none →
      compiler.entity.resolveWith field options.type = compiler.entity.resolve field →
        ∀ result s',
          ((compiler.bind bound).order field direction options).run backend s = (.ok result, s') →
            ∃ keys : KeySet, result = (if options.reorder then bound.reorder else bound).orderBy
              (.ofSql (column ++ " IS NULL DESC") :: rankBy key keys)) ∧
    (column = key ↔ compiler.entity.ReadsKey field association.foreignKey) := by
  intro column key
  have hdirect := Entity.direct?_of_resolve hfield
  refine ⟨fun value options hsql htype haggregate => ⟨fun hvalue => ?_, fun hvalue => ?_⟩,
    fun direction options hsql htype => ?_, Entity.sqlColumn_eq_column_iff hdirect⟩
  · -- A search for NULL makes no plucks, so it has this result on every store.
    have hcolumn : compiler.entity.columnFor field options.sqlColumn = column := by
      rw [hsql]
      rfl
    rw [run_search_of_searchClause backend s bound (searchClause_of_null (by rw [hcolumn, haggregate])
      hvalue (by rw [htype, hfield]; rfl)), hcolumn, htype, hfield]
    rfl
  · -- Whatever the store answers, the keys end up in one place.
    have hensures : ((compiler.bind bound).search field value options).Ensures {} fun result =>
        ∃ keys : KeySet, result = bound.filter (keys.inList key) := by
      rw [Compiler.search_bind]
      refine (searchClause_direct hdirect (htype.trans hfield) ?_ hvalue).map ?_
      · rw [hsql]
        exact haggregate
      · rintro clause ⟨keys, rfl⟩
        exact ⟨keys, rfl⟩
    exact fun result s' hrun => hensures.of_run hrun
  · have hensures : ((compiler.bind bound).order field direction options).Ensures {} fun result =>
        ∃ keys : KeySet, result = (if options.reorder then bound.reorder else bound).orderBy
          (.ofSql (column ++ " IS NULL DESC") :: rankBy key keys) := by
      rw [Compiler.order_bind]
      refine (orderClauses_direct hdirect (htype.trans hfield)).map ?_
      rintro expressions ⟨keys, rfl⟩
      rw [hsql]
      exact ⟨keys, rfl⟩
    exact fun result s' hrun => hensures.of_run hrun

/-- A store in which the authors can be looked up. -/
def Compile.Library.authorStore : Backend Unit :=
  Library.collation.store Library.db fun _ => .ok (Library.entityOf Library.author [])

/-- The key of the author is compared in the column that is tested for NULL. -/
theorem reference_columns_in_library :
    ((Library.books.bind Library.book.relation).search "author" .null {}).run Library.authorStore () =
        (.ok (Library.book.relation.filter (.ofSql "books.author_id IS NULL")), ()) ∧
      (∃ keys : KeySet,
        Library.book.relation.filter ⟨"books.author_id IN (?)", [.integer 1]⟩ =
          Library.book.relation.filter (keys.inList "books.author_id")) ∧
      (∃ keys : KeySet,
        Library.book.relation.orderBy [.ofSql "books.author_id IS NULL DESC",
            ⟨"books.author_id = ? DESC, books.author_id = ? DESC", [.integer 2, .integer 1]⟩] =
          Library.book.relation.orderBy
            (.ofSql "books.author_id IS NULL DESC" :: rankBy "books.author_id" keys)) ∧
      Library.books.entity.ReadsKey "author" "author_id" := by
  have hfield : Library.books.entity.resolve "author" = ⟨.directReference,
      some (.step ⟨"author", "author_id", .direct Library.author⟩)⟩ := by decide +kernel
  have hcolumn : Library.books.entity.sqlColumn "author" = "books.author_id" := by decide +kernel
  have hkey : Library.books.entity.column "author_id" = "books.author_id" := by decide +kernel
  have hsearch : ((Library.books.bind Library.book.relation).search "author" (.string "1") {}).run
      Library.authorStore () =
        (.ok (Library.book.relation.filter ⟨"books.author_id IN (?)", [.integer 1]⟩), ()) := by
    decide +kernel
  have horder : ((Library.books.bind Library.book.relation).order "author" .ascending {}).run
      Library.authorStore () =
        (.ok (Library.book.relation.orderBy [.ofSql "books.author_id IS NULL DESC",
          ⟨"books.author_id = ? DESC, books.author_id = ? DESC", [.integer 2, .integer 1]⟩]), ()) := by
    decide +kernel
  obtain ⟨hsearches, horders, hsame⟩ := reference_columns Library.authorStore () Library.books
    Library.book.relation "author" _ hfield
  -- no column of the table is named like the association, so both sides name the same column
  have hread := hsame.mp (hcolumn.trans hkey.symm)
  have haggregate : isAggregate (Library.books.entity.sqlColumn "author") = false := by
    decide +kernel
  have hnull := (hsearches .null {} rfl rfl haggregate).1 rfl
  have hkeys := (hsearches (.string "1") {} rfl rfl haggregate).2 (by decide +kernel) _ _ hsearch
  have hranked := horders .ascending {} rfl rfl _ _ horder
  simp only [hcolumn, Association.foreignKey, hkey] at hnull hkeys hranked
  exact ⟨hnull, hkeys, hranked, hread⟩

/-- Books that have the name of their author in a column. -/
def Compile.Library.bylinedBooks : Compiler :=
  .all ⟨.sqlite, 100, 3⟩ (.ofSchema { schema? _ := none } Library.book.name
    { Library.bookSchema with columns := [("title", .string), ("author", .string)] })

/-- The author is found by the key, but it is the name that is tested for NULL. -/
theorem reference_columns_of_bylines :
    Library.bylinedBooks.entity.resolve "author" = ⟨.directReference,
        some (.step ⟨"author", "author_id", .direct Library.author⟩)⟩ ∧
      ((Library.bylinedBooks.bind Library.book.relation).search "author" .null {}).run
          Library.authorStore () =
        (.ok (Library.book.relation.filter (.ofSql "books.author IS NULL")), ()) ∧
      ((Library.bylinedBooks.bind Library.book.relation).search "author" (.string "1") {}).run
          Library.authorStore () =
        (.ok (Library.book.relation.filter ⟨"books.author_id IN (?)", [.integer 1]⟩), ()) ∧
      ((Library.bylinedBooks.bind Library.book.relation).order "author" .ascending {}).run
          Library.authorStore () =
        (.ok (Library.book.relation.orderBy [.ofSql "books.author IS NULL DESC",
          ⟨"books.author_id = ? DESC, books.author_id = ? DESC", [.integer 2, .integer 1]⟩]), ()) ∧
      ¬ Library.bylinedBooks.entity.ReadsKey "author" "author_id" := by
  refine ⟨?_, ?_, ?_, ?_, ?_⟩ <;> decide +kernel

/-- Requests for a polymorphic reference compare and order by the column of the field with the endings
for the key and for the type. These are the columns of the association if and only if its name is no
expression, and not another name of the primary key, and no key but the conventional one is declared
for it. -/
theorem polymorphic_columns {σ : Type} (backend : Backend σ) (s : σ) (compiler : Compiler)
    (bound : Relation) (field : String) (association : Association) (provider : Provider)
    (name : Naming.EntityName) (schema : EntitySchema)
    (hentity : compiler.entity = .ofSchema provider name schema)
    (hfield : compiler.entity.resolve field = ⟨.polymorphicReference, some association⟩) :
    let keyColumn := compiler.entity.sqlColumn field ++ "_id"
    let typeColumn := compiler.entity.sqlColumn field ++ "_type"
    (∀ (value : Json) (options : SearchOptions), options.sqlColumn = none →
      compiler.entity.resolveWith field options.type = compiler.entity.resolve field →
      isAggregate (compiler.entity.sqlColumn field) = false →
        ∃ condition, ComparesPair condition keyColumn typeColumn ∧
          ((compiler.bind bound).search field value options).run backend s =
            (.ok (bound.filter condition), backend.count (.search .polymorphicReference) s)) ∧
    (∀ (direction : Direction) (options : OrderOptions), options.sqlColumn = none →
      compiler.entity.resolveWith field options.type = compiler.entity.resolve field →
        ((compiler.bind bound).order field direction options).run backend s =
          (.ok ((if options.reorder then bound.reorder else bound).orderBy
            [.ofSql (typeColumn ++ " " ++ direction.sql),
              .ofSql (keyColumn ++ " " ++ direction.sql)]),
            backend.count (.order .polymorphicReference) s)) ∧
    ∃ d ∈ schema.associations, d.name = field ∧
      ∃ key type, association = .step ⟨field, key, .polymorphic type⟩ ∧
        key = d.foreignKey.getD (field ++ "_id") ∧
        (keyColumn = compiler.entity.column key ∧ typeColumn = compiler.entity.column type ↔
          ¬ Entity.IsExpression field ∧
            (compiler.entity.isKey field = true → compiler.entity.primaryKey = field) ∧
            key = field ++ "_id") := by
  intro keyColumn typeColumn
  obtain ⟨hdirect, hpolymorphic⟩ := Entity.polymorphic?_of_resolve hfield
  refine ⟨fun value options hsql htype haggregate => ?_, fun direction options hsql htype => ?_, ?_⟩
  · -- the search compares the two columns the field spells, whatever the declaration says
    have hcolumn : compiler.entity.columnFor field options.sqlColumn =
        compiler.entity.sqlColumn field := by
      rw [hsql]
      rfl
    refine ⟨polymorphicCondition (compiler.entity.sqlColumn field) value.typedText,
      comparesPair_polymorphicCondition, ?_⟩
    rw [run_search_of_searchClause backend s bound (searchClause_polymorphic (by rw [htype, hfield])
      (by rw [hcolumn, haggregate])), hcolumn]
    rfl
  · rw [Compiler.order_bind, orderClauses_polymorphic (by rw [htype, hfield]), hsql]
    simp only [keyColumn, typeColumn, String.append_assoc]
    rfl
  · -- they are the columns declared only under the conditions of the last part
    rw [hentity] at hpolymorphic
    obtain ⟨d, hd, hname, hassociation⟩ := exists_declaration_of_polymorphic? hpolymorphic
    exact ⟨d, hd, hname, _, _, hassociation, rfl, Entity.sqlColumn_pair_iff hdirect⟩

/-- Reviews of anything, with the column that their key is declared to be in. -/
def Compile.Library.reviews (foreignKey : Option String) : Compiler :=
  .all ⟨.sqlite, 100, 3⟩ (.ofSchema { schema? _ := none }
    (Library.targetOf "Review" "review" "reviews").name
    { typeName := "Review"
      columns := [("body", .text)]
      associations := [{ name := "subject", kind := .belongsTo, polymorphic := true, foreignKey }] })

/-- The subject of a review in the conventional columns. -/
theorem polymorphic_columns_in_library :
    (Library.reviews none).entity.resolve "subject" = ⟨.polymorphicReference,
        some (.step ⟨"subject", "subject_id", .polymorphic "subject_type"⟩)⟩ ∧
      (∃ condition, ComparesPair condition "reviews.subject_id" "reviews.subject_type" ∧
        (((Library.reviews none).bind (.all "reviews" "Review")).search "subject"
          (.string "Book_10") {}).run Library.store () =
            (.ok ((Relation.all "reviews" "Review").filter condition), ())) ∧
      (((Library.reviews none).bind (.all "reviews" "Review")).order "subject" .descending {}).run
        Library.store () =
          (.ok ((Relation.all "reviews" "Review").orderBy
            [.ofSql "reviews.subject_type DESC", .ofSql "reviews.subject_id DESC"]), ()) := by
  have hfield : (Library.reviews none).entity.resolve "subject" = ⟨.polymorphicReference,
      some (.step ⟨"subject", "subject_id", .polymorphic "subject_type"⟩)⟩ := by decide +kernel
  obtain ⟨hsearches, horders, d, -, -, key, type, hassociation, -, hsame⟩ :=
    polymorphic_columns Library.store () (Library.reviews none) (.all "reviews" "Review") "subject" _ _
      _ _ rfl hfield
  -- the declaration names neither column, so both are the conventional ones
  obtain ⟨rfl, rfl⟩ : "subject_id" = key ∧ "subject_type" = type := by simpa using hassociation
  obtain ⟨hkey, htype⟩ := hsame.mpr ⟨by decide, by decide +kernel, rfl⟩
  have hkey' : (Library.reviews none).entity.column "subject_id" = "reviews.subject_id" := by
    decide +kernel
  have htype' : (Library.reviews none).entity.column "subject_type" = "reviews.subject_type" := by
    decide +kernel
  have hsearch := hsearches (.string "Book_10") {} rfl rfl (by decide +kernel)
  have horder := horders .descending {} rfl rfl
  rw [hkey, htype, hkey', htype'] at hsearch horder
  exact ⟨hfield, hsearch, horder⟩

/-- The key is declared to be in another column, but it is the conventional one that is searched and
ordered by. -/
theorem polymorphic_columns_of_declared_key :
    (Library.reviews (some "subject_ref")).entity.resolve "subject" = ⟨.polymorphicReference,
        some (.step ⟨"subject", "subject_ref", .polymorphic "subject_type"⟩)⟩ ∧
      (((Library.reviews (some "subject_ref")).bind (.all "reviews" "Review")).search "subject"
        (.string "Book_10") {}).run Library.store () =
          (.ok ((Relation.all "reviews" "Review").filter
            ⟨"reviews.subject_id = ? AND reviews.subject_type = ?",
              [.integer 10, .text "Book"]⟩), ()) ∧
      (((Library.reviews (some "subject_ref")).bind (.all "reviews" "Review")).order "subject"
        .descending {}).run Library.store () =
          (.ok ((Relation.all "reviews" "Review").orderBy
            [.ofSql "reviews.subject_type DESC", .ofSql "reviews.subject_id DESC"]), ()) := by
  refine ⟨?_, ?_, ?_⟩ <;> decide +kernel

end FieldQuery
