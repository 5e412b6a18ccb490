import FieldQuery.Proofs.Compile.Hops
import FieldQuery.Proofs.Compile.Balance

/-!
# Forcing the type of a field

A type may be forced on a field, and the association of the field is then looked up by its name
alone, whatever its kind is. If no name stands for two associations, a type that the field has
anyway changes nothing about a search or an ordering: they are the same compilations, and so have
the same results and make the same plucks on every store.
-/

namespace FieldQuery

open FieldQuery.Catalog FieldQuery.Compile FieldQuery.Schema FieldQuery.Sql FieldQuery.Text

/-! ## Names of associations -/

namespace Catalog

variable {catalog : FieldQuery.Catalog}

/-- The names of the associations of an entity are declared names, in the same order. -/
theorem names_describeAll_sublist (provider : Provider) (owner : Naming.EntityName)
    (schema : EntitySchema) :
    ((describeAll provider owner schema).map Association.name).Sublist
      (schema.associations.map (·.name)) := by
  unfold describeAll
  simp only
  generalize (schema.associations.filter _).map (describe provider owner) = links
  -- induction over the declarations: each gives one association of its own name or none
  induction schema.associations with
  | nil => exact List.Sublist.refl _
  | cons d rest ih =>
    cases hd : describeAssociation? provider owner links d with
    | none =>
      rw [List.filterMap_cons_none hd, List.map_cons]
      exact ih.cons _
    | some association =>
      have hname : association.name = d.name := by
        unfold describeAssociation? at hd
        split at hd
        · obtain ⟨link, hlink, rfl⟩ := Option.map_eq_some_iff.mp hd
          have hname : link.name = d.name := by simpa using List.find?_some hlink
          exact hname
        · obtain ⟨link, -, hthrough⟩ := Option.bind_eq_some_iff.mp hd
          cases hthrough
          rfl
      rw [List.filterMap_cons_some hd, List.map_cons, List.map_cons, hname]
      exact ih.cons_cons _

/-- Every name stands for one association, also where a field may have `_id` after it. -/
structure Unambiguous (catalog : FieldQuery.Catalog) : Prop where
  nodup : (catalog.associations.map Association.name).Nodup
  name_ne : ∀ a ∈ catalog.associations, ∀ b ∈ catalog.associations, b.name ≠ a.name ++ "_id"

/-- A catalog is unambiguous if the declared names are. -/
theorem unambiguous_ofSchema {provider : Provider} {owner : Naming.EntityName} {schema : EntitySchema}
    (hnodup : (schema.associations.map (·.name)).Nodup)
    (hname : ∀ a ∈ schema.associations, ∀ b ∈ schema.associations, b.name ≠ a.name ++ "_id") :
    Unambiguous (ofSchema provider owner schema) := by
  have hsublist := names_describeAll_sublist provider owner schema
  -- Every association has the name of a declaration.
  have hdeclared : ∀ a ∈ (ofSchema provider owner schema).associations,
      ∃ d ∈ schema.associations, d.name = a.name := fun a ha =>
    List.mem_map.mp (hsublist.subset (List.mem_map_of_mem ha))
  refine ⟨hnodup.sublist hsublist, fun a ha b hb => ?_⟩
  obtain ⟨d, hd, hda⟩ := hdeclared a ha
  obtain ⟨e, he, heb⟩ := hdeclared b hb
  rw [← hda, ← heb]
  exact hname d hd e he

/-- What a catalog finds under a name has this name and the property that was asked for. -/
theorem named?_eq_some {property : Association → Bool} {name : String} {association : Association}
    (h : catalog.named? property name = some association) :
    association ∈ catalog.associations ∧ association.name = name ∧ property association = true := by
  have hfound := List.find?_some h
  simp only [Bool.and_eq_true, beq_iff_eq] at hfound
  exact ⟨mem_of_named? h, hfound⟩

namespace Unambiguous

variable (hcatalog : Catalog.Unambiguous catalog)
include hcatalog

/-- What is found of some kind is found without regard to its kind. -/
theorem named?_any {property : Association → Bool} {name : String} {association : Association}
    (h : catalog.named? property name = some association) :
    catalog.named? (fun _ => true) name = some association := by
  obtain ⟨hmem, rfl, -⟩ := named?_eq_some h
  -- names are unique, so whatever property is asked for the first of the name is the one
  cases hany : catalog.named? (fun _ => true) association.name with
  | none =>
    have hnone := List.find?_eq_none.mp hany association hmem
    simp at hnone
  | some other =>
    obtain ⟨hother, hname, -⟩ := named?_eq_some hany
    rw [List.inj_on_of_nodup_map hcatalog.nodup hother hmem hname]

private theorem associated?_of_named? {property : Association → Bool} {field : String}
    {association : Association} (h : catalog.named? property field = some association) :
    catalog.associated? field = some association := by
  simp [associated?, hcatalog.named?_any h]

/-- A direct link is found by its own name and by that of its key. -/
theorem associated?_of_direct? {field : String} {association : Association}
    (h : catalog.direct? field = some association) :
    catalog.associated? field = some association := by
  unfold direct? at h
  cases hstrip : strip? "_id" field with
  | none =>
    rw [hstrip] at h
    exact hcatalog.associated?_of_named? h
  | some name =>
    rw [hstrip, Option.getD_some] at h
    obtain ⟨hmem, rfl, -⟩ := named?_eq_some h
    have hkey : field = association.name ++ "_id" := eq_append_of_strip? hstrip
    -- No association has the name of the key.
    have hfield : catalog.named? (fun _ => true) field = none := by
      cases hany : catalog.named? (fun _ => true) field with
      | none => rfl
      | some other =>
        obtain ⟨hother, hname, -⟩ := named?_eq_some hany
        exact absurd (hname.trans hkey) (hcatalog.name_ne association hmem other hother)
    simp [associated?, hfield, hstrip, hcatalog.named?_any h]

end Unambiguous

end Catalog

/-! ## The same field twice -/

/-- Two readings of a field that searches and orderings do not tell apart: the association counts
only for the types that lead to one. -/
structure ResolvedField.Alike (a b : ResolvedField) : Prop where
  type : a.type = b.type
  association : b.type.isAssociation = true → a.association = b.association

namespace Entity

variable {entity : Entity} {field : String}

private theorem type_resolveAs (type : FieldType) : (entity.resolveAs field type).type = type := by
  cases type <;> rfl

private theorem isAssociation_plainType : (entity.plainType field).isAssociation = false := by
  unfold plainType
  simp only
  split
  · rfl
  split
  · rfl
  split
  · rfl
  split
  · next type _ => cases type <;> rfl
  · split <;> rfl

private theorem associated?_of_resolveAssociation? (hcatalog : Catalog.Unambiguous entity.catalog)
    {type : FieldType} {association : Association}
    (h : entity.resolveAssociation? field = some (type, association)) :
    entity.catalog.associated? field = some association := by
  simp only [resolveAssociation?, Option.orElse_eq_orElse, Option.orElse_eq_or,
    Option.or_eq_some_iff, Option.map_eq_some_iff, Prod.mk.injEq] at h
  -- The six searches by kind: only the first one takes an ending off the name, and only the last one
  -- has a type that depends on what it finds.
  rcases h with ⟨_, ha, -, rfl⟩ | ⟨-, ⟨_, ha, -, rfl⟩ | ⟨-, ⟨_, ha, -, rfl⟩ | ⟨-, ⟨_, ha, -, rfl⟩ |
    ⟨-, ⟨_, ha, -, rfl⟩ | ⟨-, through, ha, hthrough⟩⟩⟩⟩⟩
  case inl => exact hcatalog.associated?_of_direct? ha
  case inr.inr.inr.inr.inr =>
    have heq : association = through := by
      split at hthrough <;> exact (Prod.mk.inj hthrough).2.symm
    exact heq ▸ hcatalog.associated?_of_named? ha
  all_goals exact hcatalog.associated?_of_named? ha

/-- A field under the type that it has anyway. -/
theorem resolveAs_alike (hcatalog : Catalog.Unambiguous entity.catalog) (field : String) :
    (entity.resolveAs field (entity.resolve field).type).Alike (entity.resolve field) := by
  refine ⟨type_resolveAs _, fun hassociation => ?_⟩
  cases hfound : entity.resolveAssociation? field with
  | none =>
    -- A field that is no association has no type of one.
    have htype : (entity.resolve field).type = entity.plainType field := by
      simp only [resolve, hfound]
      split
      · next h => exact h.symm
      · rfl
    rw [htype, isAssociation_plainType] at hassociation
    cases hassociation
  | some found =>
    obtain ⟨type, association⟩ := found
    have hresolve : entity.resolve field = ⟨type, some association⟩ := by
      simp only [resolve, hfound]
    rw [hresolve] at hassociation ⊢
    have hassociated := associated?_of_resolveAssociation? hcatalog hfound
    cases type <;> first | exact hassociated | cases hassociation

end Entity

namespace Compile

variable {settings : Settings} {entity : Entity} {field : String}

private theorem searchClause_congr {value : Json} {options options' : SearchOptions}
    (hfuzzy : options'.fuzzy = options.fuzzy) (hcolumn : options'.sqlColumn = options.sqlColumn)
    (h : (entity.resolveWith field options'.type).Alike (entity.resolveWith field options.type)) :
    searchClause settings entity field value options' =
      searchClause settings entity field value options := by
  obtain ⟨htype, hassociation⟩ := h
  unfold searchClause
  simp only [hfuzzy, hcolumn, htype]
  -- the associations compared agree where the type is one of an association, and are unused elsewhere
  by_cases hfield : (entity.resolveWith field options.type).type.isAssociation = true
  · rw [hassociation hfield]
  · simp only [hfield, Bool.false_eq_true, if_false]

private theorem orderWith_congr {orderTarget : TargetOrdering} {direction : Direction}
    {options options' : OrderOptions} (hsort : options'.sortField = options.sortField)
    (hcolumn : options'.sqlColumn = options.sqlColumn) (hlimit : options'.limit = options.limit)
    (h : (entity.resolveWith field options'.type).Alike (entity.resolveWith field options.type)) :
    orderWith settings orderTarget entity field direction options' =
      orderWith settings orderTarget entity field direction options := by
  obtain ⟨htype, hassociation⟩ := h
  have hassociations : ∀ association,
      rankByAssociation settings orderTarget entity association options' =
        rankByAssociation settings orderTarget entity association options := by
    intro association
    unfold rankByAssociation
    rw [hsort, hlimit]
  have haddresses : rankByAddresses settings orderTarget entity field options' =
      rankByAddresses settings orderTarget entity field options := by
    unfold rankByAddresses
    rw [hsort, hlimit]
  unfold orderWith
  simp only [htype, hcolumn, hassociations, haddresses]
  -- An ordering looks at the association for the types of one only.
  generalize entity.resolveWith field options.type = resolved at hassociation ⊢
  obtain ⟨type, association⟩ := resolved
  cases type <;> first | rfl | simp only [hassociation rfl]

end Compile

/-- To force the type on a field that it has anyway changes nothing: a search and an ordering are the
same compilation, so on every store they have the same result, error or not, and the same plucks. -/
theorem forced_type_changes_nothing (compiler : Compiler)
    (hcatalog : Catalog.Unambiguous compiler.entity.catalog) (field : String) :
    let type := (compiler.entity.resolve field).type
    (∀ value (options : SearchOptions), options.type = none →
      compiler.search field value { options with type := some type } =
        compiler.search field value options) ∧
      ∀ direction (options : OrderOptions), options.type = none →
        compiler.order field direction { options with type := some type } =
          compiler.order field direction options := by
  intro type
  have halike : (compiler.entity.resolveWith field (some type)).Alike
      (compiler.entity.resolveWith field none) := Entity.resolveAs_alike hcatalog field
  constructor
  · -- a search reads the type only through the resolution
    intro value options hoptions
    have hclause : searchClause compiler.settings compiler.entity field value
        { options with type := some type } =
          searchClause compiler.settings compiler.entity field value options :=
      searchClause_congr rfl rfl (hoptions ▸ halike)
    unfold Compiler.search
    rw [hclause]
  · -- an ordering does too, on its first hop; the hops after it are given no type
    intro direction options hoptions
    have hclauses : orderClauses compiler.settings compiler.settings.maxDepth compiler.entity field
        direction { options with type := some type } =
          orderClauses compiler.settings compiler.settings.maxDepth compiler.entity field direction
            options := by
      rw [orderClauses_eq, orderClauses_eq]
      exact orderWith_congr rfl rfl rfl (hoptions ▸ halike)
    unfold Compiler.order
    rw [hclauses]

/-- Books with their author and their genres. -/
def Compile.Library.bookSchema : EntitySchema where
  typeName := "Book"
  columns := [("title", .string)]
  associations :=
    [{ name := "author", kind := .belongsTo }, { name := "genres", kind := .hasAndBelongsToMany }]

def Compile.Library.books : Compiler :=
  .all ⟨.sqlite, 100, 3⟩ (.ofSchema { schema? _ := none } Library.book.name Library.bookSchema)

/-- The author of a book, found by the name of the key, searched and ordered by as a reference. -/
theorem forced_type_changes_nothing_in_library :
    (Library.books.entity.resolve "author_id").type = .directReference ∧
      Library.books.search "author_id" (.string "Ada") { type := some .directReference } =
        Library.books.search "author_id" (.string "Ada") {} ∧
      Library.books.order "author_id" .descending
          { type := some .directReference, limit := some 5 } =
        Library.books.order "author_id" .descending { limit := some 5 } := by
  have hcatalog : Catalog.Unambiguous Library.books.entity.catalog :=
    Catalog.unambiguous_ofSchema (by decide) (by decide)
  have htype : (Library.books.entity.resolve "author_id").type = .directReference := by
    decide +kernel
  obtain ⟨hsearch, horder⟩ := forced_type_changes_nothing Library.books hcatalog "author_id"
  rw [htype] at hsearch horder
  exact ⟨htype, hsearch (.string "Ada") {} rfl, horder .descending { limit := some 5 } rfl⟩

end FieldQuery
