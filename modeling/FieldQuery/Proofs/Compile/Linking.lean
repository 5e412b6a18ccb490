import FieldQuery.Compile.Compiler
import FieldQuery.Proofs.Compile.Carrying

/-!
# Searches over associations

A search over an association adds a condition that holds for exactly the rows that the association
leads from to a target row which matches the value.
-/

namespace FieldQuery.Compile

open FieldQuery.Catalog FieldQuery.Compilation FieldQuery.Sql

variable {σ : Type} {backend : Backend σ} {s s' : σ} {settings : Settings} {entity : Entity}

/-! ## The clause of a search over an association -/

/-- What a search over an association does when it has a result: it looks up the target, carries the
keys of the target rows that match the value back, and tests the column of the owner for them. -/
theorem exists_of_run_associationCondition {association : Association} {value : Json}
    {fuzzy : Bool} {condition : Fragment}
    (h : (associationCondition settings entity association value fuzzy).run backend s =
      (.ok condition, s')) :
    ∃ target found s₀ column keys, association.target? = some target ∧
      backend.entity target.name.typeName s = (.ok found, s₀) ∧
      condition = keys.inList column ∧
      let any := anyCondition settings.dialect found value { fuzzy }
      let carried := correlate settings .filter entity.asTarget target
        (found.relation.filter any.2) association
      carried.run backend (backend.count any.1 s₀) = (.ok (column, keys), s') ∧
        carried.plucks backend (backend.count any.1 s₀) ⊆
          (associationCondition settings entity association value fuzzy).plucks backend s := by
  -- the condition is compiled in four steps: target, entity, rows and keys back
  obtain ⟨target, s₁, htarget, h₁, hplucks₁⟩ := exists_run_of_bind h
  obtain ⟨htarget', rfl⟩ := run_ofExcept_eq_ok.mp htarget
  obtain ⟨found, s₂, hfound, h₂, hplucks₂⟩ := exists_run_of_bind h₁
  obtain ⟨rows, s₃, hrows, h₃, hplucks₃⟩ := exists_run_of_bind h₂
  obtain ⟨⟨column, keys⟩, s₄, hcarried, h₄, -⟩ := exists_run_of_bind h₃
  -- entering the target is a lookup once the depth allows it
  have hfound' : backend.entity target.name.typeName s₁ = (.ok found, s₂) := by
    unfold enter at hfound
    split at hfound
    · cases hfound
    · exact run_entity_eq_ok.mp hfound
  obtain ⟨rfl, rfl⟩ : found.relation.filter
      (anyCondition settings.dialect found value { fuzzy }).2 = rows ∧
      backend.count (anyCondition settings.dialect found value { fuzzy }).1 s₂ = s₃ := by
    cases hrows
    exact ⟨rfl, rfl⟩
  cases h₄
  exact ⟨target, found, s₂, column, keys, requireTarget_eq_ok.mp htarget', hfound', rfl, hcarried,
    fun _ hp => hplucks₁ (hplucks₂ (hplucks₃ (plucks_subset_bind hp)))⟩

/-- A search over an association compares the column of the owner that takes part in it. -/
theorem associationCondition_column (association : Association) (value : Json) (fuzzy : Bool) :
    (associationCondition settings entity association value fuzzy).Ensures {} fun condition =>
      ∃ keys : KeySet,
        condition = keys.inList (entity.column (association.ownColumn entity.asTarget)) := by
  -- whatever is looked up and found, the keys are compared in the association's own column
  refine (Ensures.any _).bind fun target _ => ?_
  refine (Ensures.any _).bind fun found _ => ?_
  refine (Ensures.any _).bind fun rows _ => ?_
  refine (correlate_column settings .filter entity.asTarget target rows association).bind ?_
  rintro ⟨column, keys⟩ rfl
  exact Ensures.pure ⟨keys, rfl⟩

/-- Whether a search goes over the keys of another entity: it is one for an association or for
addresses, and not for NULL in a column. -/
def Translates (entity : Entity) (field : String) (value : Json) (options : SearchOptions) : Prop :=
  let type := (entity.resolveWith field options.type).type
  isAggregate (entity.columnFor field options.sqlColumn) = false ∧
    (type.isAssociation = true ∨ type = .addresses) ∧
    ¬ (value.isNullMarker = true ∧ type.acceptsNull = true)

/-- The condition of a search that goes over the keys of another entity. -/
def translated (settings : Settings) (entity : Entity) (field : String) (value : Json)
    (options : SearchOptions) : Compilation Fragment :=
  let resolved := entity.resolveWith field options.type
  if resolved.type.isAssociation then do
    let association ← .ofExcept (entity.require field resolved.association)
    associationCondition settings entity association value options.fuzzy
  else addressCondition settings entity field value options.fuzzy

/-- The value of a reference is kept as its text, unless it is missing. -/
theorem parseValue_of_translated (entity : Entity) {type : FieldType}
    (htype : type.isAssociation = true ∨ type = .addresses) (value : Json) :
    entity.parseValue type value =
      .ok (if value.isNullMarker then .null else .raw value.typedText) := by
  cases hmarker : value.isNullMarker <;>
    cases type <;> simp_all [FieldType.isAssociation, Entity.parseValue, Value.parseValue]

/-- A search that is translated is counted and then asks for the keys. -/
theorem searchClause_of_translates {field : String} {value : Json} {options : SearchOptions}
    (h : Translates entity field value options) :
    searchClause settings entity field value options = do
      .note (.search (entity.resolveWith field options.type).type)
      return .condition (← translated settings entity field value options) := by
  obtain ⟨hcolumn, htype, hvalue⟩ := h
  unfold searchClause translated
  generalize entity.resolveWith field options.type = resolved at htype hvalue ⊢
  obtain ⟨type, association⟩ := resolved
  simp only at htype hvalue ⊢
  have hterm := parseValue_of_translated entity htype value
  -- with no null marker the value is not compared with NULL
  have hnull : ¬ ((if value.isNullMarker then Value.Term.null else .raw value.typedText) = .null ∧
      type.acceptsNull = true) := by
    rintro ⟨hterm, haccepts⟩
    split at hterm
    · next hmarker => exact hvalue ⟨hmarker, haccepts⟩
    · cases hterm
  simp only [hcolumn, hterm, ofExcept_ok_bind, Bool.false_eq_true, if_false, if_neg hnull]
  -- an association and an address are translated by different functions
  by_cases hassociation : type.isAssociation = true
  · simp only [hassociation, if_true]
    cases entity.require field association <;> rfl
  · simp only [htype.resolve_left hassociation, if_true]
    rfl

/-- The clause of a search for NULL. -/
theorem searchClause_of_null {field : String} {value : Json} {options : SearchOptions}
    (hcolumn : isAggregate (entity.columnFor field options.sqlColumn) = false)
    (hvalue : value.isNullMarker = true)
    (haccepts : (entity.resolveWith field options.type).type.acceptsNull = true) :
    searchClause settings entity field value options = do
      .note (.search (entity.resolveWith field options.type).type)
      return .condition (.ofSql (entity.columnFor field options.sqlColumn ++ " IS NULL")) := by
  unfold searchClause
  have hterm : entity.parseValue (entity.resolveWith field options.type).type value =
      .ok .null := if_pos hvalue
  simp only [hcolumn, hterm, ofExcept_ok_bind, haccepts, Bool.false_eq_true, if_false, and_self,
    if_true]

/-- The clause of a search in a field that does not go over the keys of another entity. -/
theorem searchClause_of_plain {field : String} {value : Json} {options : SearchOptions}
    {type : FieldType} {term : Value.Term} {condition : Fragment}
    (hcolumn : isAggregate (entity.columnFor field options.sqlColumn) = false)
    (hresolved : (entity.resolveWith field options.type).type = type)
    (htype : type.isAssociation = false ∧ type ≠ .addresses)
    (hterm : entity.parseValue type value = .ok term)
    (hnull : ¬ (term = .null ∧ type.acceptsNull = true))
    (hcondition : plainCondition settings.dialect entity field
      (entity.columnFor field options.sqlColumn) options.fuzzy value.typedText type term =
        .ok condition) :
    searchClause settings entity field value options = do
      .note (.search type)
      return .condition condition := by
  unfold searchClause
  simp only [hcolumn, hresolved, hterm, ofExcept_ok_bind, hcondition, if_neg hnull, htype.1,
    if_neg htype.2, Bool.false_eq_true, if_false]

/-- A search without plucks adds its clause. -/
theorem run_search_of_searchClause (backend : Backend σ) (s : σ) {compiler : Compiler}
    (bound : Relation) {field : String} {value : Json} {options : SearchOptions} {clause : Clause}
    {event : CompileEvent}
    (h : searchClause compiler.settings compiler.entity field value options = do
      .note event
      return clause) :
    ((compiler.bind bound).search field value options).run backend s =
      (.ok (clause.addTo bound), backend.count event s) := by
  -- the relation is bound, so the search is the clause and its addition
  show ((searchClause compiler.settings compiler.entity field value options).bind
    fun clause => .done (clause.addTo bound)).run backend s = _
  rw [h]
  rfl

/-- What a search over keys does when it has a result. -/
theorem exists_of_run_searchClause {field : String} {value : Json} {options : SearchOptions}
    {clause : Clause} (h : Translates entity field value options)
    (hrun : (searchClause settings entity field value options).run backend s = (.ok clause, s')) :
    ∃ condition, clause = .condition condition ∧
      let s₀ := backend.count (.search (entity.resolveWith field options.type).type) s
      (translated settings entity field value options).run backend s₀ = (.ok condition, s') ∧
        (translated settings entity field value options).plucks backend s₀ ⊆
          (searchClause settings entity field value options).plucks backend s := by
  rw [searchClause_of_translates h] at hrun ⊢
  obtain ⟨_, s₀, hnote, h₁, hplucks⟩ := exists_run_of_bind hrun
  cases hnote
  obtain ⟨condition, s₁, hcondition, h₂, -⟩ := exists_run_of_bind h₁
  cases h₂
  exact ⟨condition, rfl, hcondition, fun _ hp => hplucks (plucks_subset_bind hp)⟩

/-- What a search does when it has a result: it adds the clause of the field. -/
theorem exists_of_run_search {compiler : Compiler} {bound result : Relation} {field : String}
    {value : Json} {options : SearchOptions}
    (hrun : ((compiler.bind bound).search field value options).run backend s = (.ok result, s')) :
    ∃ clause : Clause, result = clause.addTo bound ∧
      let clauses := searchClause compiler.settings compiler.entity field value options
      clauses.run backend s = (.ok clause, s') ∧
        clauses.plucks backend s ⊆
          ((compiler.bind bound).search field value options).plucks backend s := by
  -- the compiler takes the relation first, which asks nothing
  obtain ⟨_, s₁, hbound, h₁, hplucks⟩ := exists_run_of_bind hrun
  cases hbound
  obtain ⟨clause, s₂, hclause, h₂, -⟩ := exists_run_of_bind h₁
  cases h₂
  exact ⟨clause, rfl, hclause, fun _ hp => hplucks (plucks_subset_bind hp)⟩

/-! ## The rows that are found -/

/-- The condition of a search over an association holds for the rows that the association leads from
to a matching row of the target, if no row has the sentinel in the column of the association. -/
theorem associationCondition_holds_iff {association : Association} {target : Target}
    {db : Database} {value : Json} {fuzzy : Bool} {found : Entity} {condition : Fragment} {s₀ : σ}
    (htarget : association.target? = some target)
    (hfound : backend.entity target.name.typeName s = (.ok found, s₀))
    (htable : found.table = target.table)
    (hanswers : ∀ p ∈ (associationCondition settings entity association value fuzzy).plucks backend
      s, ∀ answer, p.answer = .ok answer → db.Answers p.relation p.column answer)
    (hsentinel : ∀ row ∈ db.rows entity.table,
      row (association.ownColumn entity.asTarget) ≠ some (.integer sentinelKey))
    (h : (associationCondition settings entity association value fuzzy).run backend s =
      (.ok condition, s')) :
    ∀ row ∈ db.rows entity.table,
      db.Holds entity.table condition row ↔
        ∃ t ∈ db.rows target.table,
          db.Holds target.table (anyCondition settings.dialect found value { fuzzy }).2 t ∧
            association.Leads db entity.asTarget target row t := by
  obtain ⟨target', found', s₁, column, keys, htarget', hfound', rfl, hrun, hplucks⟩ :=
    exists_of_run_associationCondition h
  obtain rfl := Option.some.inj (htarget'.symm.trans htarget)
  obtain ⟨hok, rfl⟩ := Prod.mk.inj (hfound'.symm.trans hfound)
  obtain rfl := Except.ok.inj hok
  -- The way starts from the rows of the target that match.
  have hmatching : Describes .membership db
      (found'.relation.filter (anyCondition settings.dialect found' value { fuzzy }).2) fun row t =>
        row = t ∧ t ∈ db.rows target'.table ∧
          db.Holds target'.table (anyCondition settings.dialect found' value { fuzzy }).2 t := by
    refine Describes.of_selects (fun row => ?_) fun _ _ _ hbefore => hbefore
    rw [← htable]
    exact Database.selects_filter.trans (and_congr_left' Database.selects_all)
  have hensures := correlate_ensures settings entity.asTarget association hmatching htable
  obtain ⟨rfl, hkeys⟩ := (hensures.sound _ (fun _ _ _ _ _ _ => trivial) fun p hp answer hanswer => by
    obtain ⟨rows, hrows, hcolumn⟩ := hanswers p (hplucks hp) answer hanswer
    exact ⟨rows, hrows, List.pairwise_of_forall fun _ _ => trivial, hcolumn⟩).1 _ _ hrun
  -- The keys that come back are compared with the column of the owner.
  intro row hrow
  have hown : row.value entity.table (qualified entity.table
      (association.ownColumn entity.asTarget)) ≠ some (.integer sentinelKey) := by
    rw [Row.value_qualified]
    exact hsentinel row hrow
  refine (Database.holds_inList_of_ne_sentinel hown).trans ?_
  simp only [hkeys.mem_iff, Row.value_qualified, Association.leads_iff htarget]
  constructor
  · rintro ⟨key, ⟨t, _, ⟨rfl, ht, hmatches⟩, hcarries⟩, hkey⟩
    exact ⟨_, ht, hmatches, key, hkey, hcarries⟩
  · rintro ⟨t, ht, hmatches, key, hkey, hcarries⟩
    exact ⟨key, ⟨t, t, ⟨rfl, ht, hmatches⟩, hcarries⟩, hkey⟩

/-- A clause that adds a condition is one. -/
theorem Clause.eq_condition_of_addTo {clause : Clause} {bound : Relation} {condition : Fragment}
    (h : clause.addTo bound = bound.filter condition) : clause = .condition condition := by
  have hconditions := congrArg Relation.conditions h
  cases clause with
  | condition fragment => simpa [addTo, Relation.filter] using hconditions
  | having fragment => simp [addTo, Relation.filter, Relation.having] at hconditions

/-- The column of a condition is no aggregate. -/
theorem isAggregate_eq_false_of_run {field : String} {value : Json} {options : SearchOptions}
    {condition : Fragment}
    (hrun : (searchClause settings entity field value options).run backend s =
      (.ok (.condition condition), s')) :
    isAggregate (entity.columnFor field options.sqlColumn) = false := by
  -- an aggregate would have given a condition on groups
  refine Bool.eq_false_iff.mpr fun hcolumn => ?_
  simp only [searchClause, hcolumn, if_true] at hrun
  obtain ⟨_, s₁, -, hrun, -⟩ := exists_run_of_bind hrun
  cases hrun

/-- The condition that a search over an association adds holds for exactly the rows of the entity that
the association leads from to a row of the target that matches the value. A condition is added unless
the column is an aggregate. -/
theorem search_selects_linked {compiler : Compiler} {bound result : Relation} {field : String}
    {value : Json} {options : SearchOptions} {type : FieldType} {association : Association}
    {target : Target} {db : Database} {found : Entity} {s₀ : σ}
    (hfield : compiler.entity.resolveWith field options.type = ⟨type, some association⟩)
    (htype : type.isAssociation = true)
    (hvalue : value.isNullMarker = false)
    (htarget : association.target? = some target)
    (hfound : backend.entity target.name.typeName (backend.count (.search type) s) =
      (.ok found, s₀))
    (htable : found.table = target.table)
    (hanswers : ∀ p ∈ ((compiler.bind bound).search field value options).plucks backend s,
      ∀ answer, p.answer = .ok answer → db.Answers p.relation p.column answer)
    (hsentinel : ∀ row ∈ db.rows compiler.entity.table,
      row (association.ownColumn compiler.entity.asTarget) ≠ some (.integer sentinelKey))
    (hrun : ((compiler.bind bound).search field value options).run backend s = (.ok result, s')) :
    (isAggregate (compiler.entity.columnFor field options.sqlColumn) = false →
      ∃ condition, result = bound.filter condition) ∧
    ∀ condition, result = bound.filter condition →
      ∀ row ∈ db.rows compiler.entity.table,
        db.Holds compiler.entity.table condition row ↔
          ∃ t ∈ db.rows target.table,
            db.Holds target.table
              (anyCondition compiler.settings.dialect found value { fuzzy := options.fuzzy }).2 t ∧
            association.Leads db compiler.entity.asTarget target row t := by
  -- the search gets to the association only past the aggregate and the null test
  have htranslates (hcolumn : isAggregate (compiler.entity.columnFor field options.sqlColumn) = false) :
      Translates compiler.entity field value options := by
    simp [Translates, hcolumn, hfield, htype, hvalue]
  have htranslated : translated compiler.settings compiler.entity field value options =
      associationCondition compiler.settings compiler.entity association value options.fuzzy := by
    simp [translated, hfield, htype, Entity.require]
  obtain ⟨clause, rfl, hclause, hplucks⟩ := exists_of_run_search hrun
  refine ⟨fun hcolumn => ?_, fun condition hresult => ?_⟩
  · obtain ⟨condition, rfl, -, -⟩ := exists_of_run_searchClause (htranslates hcolumn) hclause
    exact ⟨condition, rfl⟩
  · obtain rfl := Clause.eq_condition_of_addTo hresult
    obtain ⟨_, ⟨⟩, hcondition, hplucks'⟩ :=
      exists_of_run_searchClause (htranslates (isAggregate_eq_false_of_run hclause)) hclause
    rw [htranslated, hfield] at hcondition hplucks'
    exact associationCondition_holds_iff htarget hfound htable
      (fun p hp => hanswers p (hplucks (hplucks' hp))) hsentinel hcondition

/-! ## A library -/

namespace Library

/-- A target without namespaces, with its names in the singular and the plural. -/
def targetOf (typeName singular plural : String) : Target :=
  ⟨⟨singular, plural, typeName, [], typeName⟩, plural, "id"⟩

def author : Target := targetOf "Author" "author" "authors"

def book : Target := targetOf "Book" "book" "books"

def genre : Target := targetOf "Genre" "genre" "genres"

/-- The genres of an author are those of the books that point at the author. -/
def genres : Association :=
  .through "genres" "author_id" (.step ⟨"books", "author_id", .reversed .many book none⟩)
    (some (.step ⟨"genres", "book_id", .manyToMany genre "books_genres" "genre_id"⟩)) (some genre) true

/-- An entity with a name as its only text. -/
def entityOf (target : Target) (associations : List Association) : Entity where
  name := target.name
  schema := { typeName := target.name.typeName, columns := [("name", .string)] }
  table := target.table
  catalog := ⟨target.name, associations⟩
  decodeId? _ := none

def rowOf (cells : List (String × Key)) : Row :=
  fun column => cells.lookup column

/-- Two authors with a book each, one of crime and one of poetry. A text condition holds if it asks
for the whole name. -/
def db : Database where
  rows
    | "authors" => [rowOf [("id", .integer 1)], rowOf [("id", .integer 2)]]
    | "books" =>
      [rowOf [("id", .integer 10), ("author_id", .integer 1)],
       rowOf [("id", .integer 20), ("author_id", .integer 2)]]
    | "books_genres" =>
      [rowOf [("book_id", .integer 10), ("genre_id", .integer 7)],
       rowOf [("book_id", .integer 20), ("genre_id", .integer 8)]]
    | "genres" =>
      [rowOf [("id", .integer 7), ("name", .text "crime")],
       rowOf [("id", .integer 8), ("name", .text "poetry")]]
    | _ => []
  other _ condition row :=
    match row "name" with
    | some (.text name) => condition.params == [.text ("%" ++ name ++ "%")]
    | _ => false

/-- Rows are ordered by their keys, from the highest to the lowest. -/
def collation : Collation where
  dialect := .sqlite
  other _ _ a b :=
    let key (row : Row) := match row "id" with | some (.integer n) => n.toInt | _ => 0
    decide (key b ≤ key a)
  other_total _ _ a b := by
    simp only [Bool.or_eq_true, decide_eq_true_eq]
    exact Int.le_total _ _
  other_trans _ _ a b c hab hbc := by
    simp only [decide_eq_true_eq] at hab hbc ⊢
    exact Int.le_trans hbc hab

def compiler : Compiler :=
  .all ⟨.sqlite, 100, 3⟩ (entityOf author [genres])

/-- The only entity that is known is the genre. -/
def find (identifier : String) : Except QueryError Entity :=
  if identifier = "Genre" then .ok (entityOf genre []) else .error (.unknownEntity identifier)

def store : Backend Unit :=
  collation.store db find

end Library

/-- A search for a genre finds the authors with a book of it. -/
theorem search_selects_authors_of_crime :
    ∃ condition, Library.author.relation.filter ⟨"authors.id IN (?)", [.integer 1]⟩ =
        Library.author.relation.filter condition ∧
      ∀ row ∈ Library.db.rows "authors",
        Library.db.Holds "authors" condition row ↔
          ∃ t ∈ Library.db.rows "genres",
            Library.db.Holds "genres" ⟨"genres.name LIKE ?", [.text "%crime%"]⟩ t ∧
              Library.genres.Leads Library.db Library.author Library.genre row t := by
  have hfield : Library.compiler.entity.resolveWith "genres" ({} : SearchOptions).type =
      ⟨.reversedMany, some Library.genres⟩ := by decide +kernel
  have hcolumn : isAggregate (Library.compiler.entity.columnFor "genres" none) = false := by
    decide +kernel
  have hsentinel : ∀ row ∈ Library.db.rows "authors", row "id" ≠ some (.integer sentinelKey) := by
    decide +kernel
  have hrun : ((Library.compiler.bind Library.author.relation).search "genres" (.string "crime")
      {}).run Library.store () =
        (.ok (Library.author.relation.filter ⟨"authors.id IN (?)", [.integer 1]⟩), ()) := by
    decide +kernel
  obtain ⟨hcondition, hselects⟩ := search_selects_linked hfield rfl rfl rfl rfl rfl
    (fun _ hp _ hanswer => Collation.store_answers hp hanswer) hsentinel hrun
  obtain ⟨condition, hresult⟩ := hcondition hcolumn
  exact ⟨condition, hresult, hselects condition hresult⟩

end FieldQuery.Compile
