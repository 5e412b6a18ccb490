import FieldQuery.Proofs.Compile.Forms
import FieldQuery.Proofs.Compile.Linking
import FieldQuery.Proofs.Compile.Series
import FieldQuery.Proofs.Sql.Placeholders

/-!
# Balanced relations

If no name of a table, a column or a key has a `?`, the placeholders of all relations that are
compiled, and of all that are plucked on the way, are those that the compiler writes for its
parameters. This is kept by every step, so it holds for any series of requests.
-/

namespace FieldQuery

open FieldQuery.Catalog FieldQuery.Sql FieldQuery.Compilation

/-! ## Plain names -/

/-- The names of a target are plain. -/
structure Catalog.Target.Plain (target : Target) : Prop where
  table : Sql.Plain target.table
  primaryKey : Sql.Plain target.primaryKey

/-- The names in a kind of link are plain. -/
def Catalog.LinkKind.Plain : LinkKind → Prop
  | .direct target => target.Plain
  | .polymorphic typeColumn => Sql.Plain typeColumn
  | .reversed _ target discriminator =>
    target.Plain ∧ ∀ d ∈ discriminator, Sql.Plain d.typeColumn
  | .manyToMany target joinTable targetKey =>
    target.Plain ∧ Sql.Plain joinTable ∧ Sql.Plain targetKey

/-- The names of a link are plain. -/
structure Catalog.Link.Plain (link : Link) : Prop where
  foreignKey : Sql.Plain link.foreignKey
  kind : link.kind.Plain

/-- The names of an association are plain. -/
def Catalog.Association.Plain : Association → Prop
  | .step link => link.Plain
  | .through _ _ via none target _ => via.Plain ∧ ∀ far ∈ target, far.Plain
  | .through _ _ via (some source) target _ => via.Plain ∧ source.Plain ∧ ∀ far ∈ target, far.Plain

/-- The names of an entity and of its associations are plain. -/
structure Entity.Plain (entity : Entity) : Prop where
  table : Sql.Plain entity.table
  primaryKey : Sql.Plain entity.primaryKey
  columns : ∀ column ∈ entity.schema.columns, Sql.Plain column.1
  searchColumns : ∀ fields ∈ entity.schema.searchColumns, ∀ field ∈ fields, Sql.Plain field
  defaultSort : ∀ field ∈ entity.schema.defaultSort, Sql.Plain field
  associations : ∀ association ∈ entity.catalog.associations, association.Plain

namespace Catalog

/-- A plain column of a plain target has a plain name. -/
theorem Target.Plain.column {target : Target} (h : target.Plain) {name : String}
    (hname : Sql.Plain name) : Sql.Plain (target.column name) :=
  plain_qualified h.table hname

/-- The key of a plain target has a plain name. -/
theorem Target.Plain.keyColumn {target : Target} (h : target.Plain) : Sql.Plain target.keyColumn :=
  h.column h.primaryKey

/-- A plain link leads to a plain target. -/
theorem Link.Plain.target? {link : Link} (h : link.Plain) {target : Target}
    (htarget : link.target? = some target) : target.Plain := by
  obtain ⟨name, foreignKey, kind⟩ := link
  have hkind := h.kind
  cases kind <;> cases htarget
  · exact hkind
  · exact hkind.1
  · exact hkind.1

/-- The condition on the type of the rows of a plain link is balanced. -/
theorem Link.Plain.typeCondition? {link : Link} (h : link.Plain) {target : Target}
    (htarget : target.Plain) {ownerType : String} {condition : Fragment}
    (hcondition : link.typeCondition? target ownerType = some condition) : condition.Balanced := by
  obtain ⟨name, foreignKey, kind⟩ := link
  have hkind := h.kind
  rcases kind with _ | _ | ⟨form, far, _ | d⟩ | _ <;> cases hcondition
  exact Fragment.balanced_equals (htarget.column (hkind.2 d rfl)) _

/-- A plain association leads to a plain target. -/
theorem Association.Plain.target? {association : Association} (h : association.Plain)
    {target : Target} (htarget : association.target? = some target) : target.Plain := by
  match association with
  | .step _ => exact Link.Plain.target? h htarget
  | .through _ _ _ none _ _ => exact h.2 target htarget
  | .through _ _ _ (some _) _ _ => exact h.2.2 target htarget

/-- What a catalog finds under a name is one of its associations. -/
theorem mem_of_named? {catalog : FieldQuery.Catalog} {property : Association → Bool} {name : String}
    {association : Association} (h : catalog.named? property name = some association) :
    association ∈ catalog.associations :=
  List.mem_of_find?_eq_some h

end Catalog

namespace Entity

variable {entity : Entity}

namespace Plain

/-- A plain column of a plain entity has a plain name. -/
theorem column (h : entity.Plain) {name : String} (hname : Sql.Plain name) :
    Sql.Plain (entity.column name) :=
  plain_qualified h.table hname

/-- The key of a plain entity has a plain name. -/
theorem keyColumn (h : entity.Plain) : Sql.Plain entity.keyColumn :=
  h.column h.primaryKey

/-- A plain entity is a plain target. -/
theorem asTarget (h : entity.Plain) : entity.asTarget.Plain :=
  ⟨h.table, h.primaryKey⟩

/-- The rows of a plain entity are balanced. -/
theorem relation (h : entity.Plain) : entity.relation.Balanced :=
  .all h.table _

/-- The expression of a plain field is plain. -/
theorem sqlColumn (h : entity.Plain) {field : String} (hfield : Sql.Plain field) :
    Sql.Plain (entity.sqlColumn field) := by
  unfold Entity.sqlColumn
  split
  · exact hfield
  split
  · exact h.keyColumn
  split
  · exact h.column hfield
  split
  · next association hdirect =>
    have hplain := h.associations association (Catalog.mem_of_named? hdirect)
    refine h.column ?_
    -- A direct reference goes through nothing.
    cases association with
    | step link => exact hplain.foreignKey
    | through => simpa [Association.isDirect] using List.find?_some hdirect
  · exact h.column hfield

/-- The expression of a request is plain, whether it is given or that of the field. -/
theorem columnFor (h : entity.Plain) {field : String} (hfield : Sql.Plain field)
    {sqlColumn : Option String} (hcolumn : ∀ column ∈ sqlColumn, Sql.Plain column) :
    Sql.Plain (entity.columnFor field sqlColumn) := by
  cases sqlColumn with
  | none => exact h.sqlColumn hfield
  | some column => exact hcolumn column rfl

/-- A plain entity is searched in plain fields. -/
theorem searchFields (h : entity.Plain) : ∀ field ∈ entity.searchFields, Sql.Plain field := by
  unfold Entity.searchFields
  split
  · next fields hfields => exact h.searchColumns fields hfields
  · intro field hfield
    obtain ⟨column, hcolumn, rfl⟩ := List.mem_map.mp hfield
    exact h.columns column (List.mem_filter.mp hcolumn).1

/-- A plain entity is ordered by a plain field. -/
theorem defaultSortField (h : entity.Plain) : Sql.Plain entity.defaultSortField := by
  unfold Entity.defaultSortField
  split
  · next field hfield => exact h.defaultSort field hfield
  · cases hcandidate : sortCandidates.find? _ with
    | none => exact h.primaryKey
    | some candidate =>
      have hall : ∀ candidate ∈ sortCandidates, Sql.Plain candidate := by decide
      exact hall candidate (List.mem_of_find?_eq_some hcandidate)

end Plain

private theorem mem_of_resolveAssociation? {field : String} {type : FieldType}
    {association : Association}
    (h : entity.resolveAssociation? field = some (type, association)) :
    association ∈ entity.catalog.associations := by
  simp only [resolveAssociation?, Option.orElse_eq_orElse, Option.orElse_eq_or,
    Option.or_eq_some_iff, Option.map_eq_some_iff, Prod.mk.injEq] at h
  -- Every kind is looked up by its name. Only over two steps has the type to be found out.
  rcases h with ⟨_, ha, -, rfl⟩ | ⟨-, ⟨_, ha, -, rfl⟩ | ⟨-, ⟨_, ha, -, rfl⟩ | ⟨-, ⟨_, ha, -, rfl⟩ |
    ⟨-, ⟨_, ha, -, rfl⟩ | ⟨-, through, ha, hthrough⟩⟩⟩⟩⟩
  case inr.inr.inr.inr.inr =>
    have heq : association = through := by
      split at hthrough <;> exact (Prod.mk.inj hthrough).2.symm
    exact heq ▸ Catalog.mem_of_named? ha
  all_goals exact Catalog.mem_of_named? ha

/-- The association of a field is one of the catalog, whatever type is forced on the field. -/
theorem mem_of_resolveWith {field : String} {type : Option FieldType} {association : Association}
    (h : (entity.resolveWith field type).association = some association) :
    association ∈ entity.catalog.associations := by
  cases type with
  | none =>
    -- a field without a type is an association or the name of one
    simp only [resolveWith, resolve] at h
    split at h
    · next found hfound => exact mem_of_resolveAssociation? (Option.some.inj h ▸ hfound)
    · split at h
      · exact Catalog.mem_of_named? h
      · cases h
  | some type =>
    -- with a type the target's spelling may lead there as well
    simp only [resolveWith, resolveAs] at h
    split at h
    · exact Catalog.mem_of_named? h
    · simp only [Catalog.associated?, Option.orElse_eq_orElse, Option.orElse_eq_or,
        Option.or_eq_some_iff, Option.bind_eq_some_iff] at h
      rcases h with h | ⟨-, name, -, h⟩
      · exact Catalog.mem_of_named? h
      · exact Catalog.mem_of_named? h

end Entity

/-- The scope of a category of addresses is a link of the catalog. -/
theorem Catalog.mem_of_addressScope? {catalog : Catalog} {field : String}
    {scope : Catalog.AddressScope} (hscope : catalog.addressScope? field = some scope) :
    .step scope.link ∈ catalog.associations ∧ scope.link.target? = some scope.target := by
  obtain ⟨category, -, hscope⟩ := Option.bind_eq_some_iff.mp hscope
  obtain ⟨association, hassociation, hscope⟩ := Option.bind_eq_some_iff.mp hscope
  have hmem := Catalog.mem_of_named? hassociation
  cases association with
  -- a chain has no column of its own to address
  | through => cases hscope
  | step link =>
    obtain ⟨target, htarget, hscope⟩ := Option.bind_eq_some_iff.mp hscope
    split at hscope
    · cases hscope
      exact ⟨hmem, htarget⟩
    · cases hscope

private theorem Catalog.plain_of_addressScope? {catalog : Catalog}
    (h : ∀ association ∈ catalog.associations, association.Plain) {field : String}
    {scope : Catalog.AddressScope} (hscope : catalog.addressScope? field = some scope) :
    scope.link.Plain ∧ scope.target.Plain := by
  obtain ⟨hmem, htarget⟩ := Catalog.mem_of_addressScope? hscope
  exact ⟨h _ hmem, Link.Plain.target? (h _ hmem) htarget⟩

namespace Compile

/-! ## Forms and orderings -/

variable {dialect : Dialect} {entity : Entity} {column : String}

private theorem marks_equalForm (h : Sql.Plain column) : marks (equalForm column).1 = 1 := by
  simp only [equalForm, marks_append, h.marks_eq]
  rfl

private theorem marks_textForm (h : Sql.Plain column) (fuzzy : Bool) :
    marks (textForm dialect fuzzy column).1 = 1 := by
  cases fuzzy with
  | false => exact marks_equalForm h
  | true =>
    change marks (column ++ " " ++ dialect.fuzzyOperator ++ " ?") = 1
    simp only [marks_append, h.marks_eq]
    cases dialect <;> rfl

private theorem plain_extractHour (dialect : Dialect) (h : Sql.Plain column) :
    Sql.Plain (dialect.extractHour column) := by
  unfold Dialect.extractHour
  split <;> exact plain_append.mpr ⟨plain_append.mpr ⟨by decide, h⟩, by decide⟩

private theorem plain_extractMinute (dialect : Dialect) (h : Sql.Plain column) :
    Sql.Plain (dialect.extractMinute column) := by
  unfold Dialect.extractMinute
  split <;> exact plain_append.mpr ⟨plain_append.mpr ⟨by decide, h⟩, by decide⟩

private theorem marks_numberForms (h : Sql.Plain column) :
    ∀ form ∈ numberForms column, marks form.1 = form.2 := by
  simp only [numberForms, List.forall_mem_cons, marks_equalForm h, marks_append, h.marks_eq]
  exact ⟨rfl, rfl, rfl, List.forall_mem_nil _⟩

private theorem marks_timeForms (h : Sql.Plain column) :
    ∀ form ∈ timeForms dialect column, marks form.1 = form.2 := by
  have hhour := plain_extractHour dialect h
  have hminute := plain_extractMinute dialect h
  simp only [timeForms, List.forall_mem_cons, marks_equalForm hhour, marks_append, hhour.marks_eq,
    hminute.marks_eq]
  exact ⟨rfl, rfl, List.forall_mem_nil _⟩

private theorem marks_polymorphicForms (h : Sql.Plain column) :
    ∀ form ∈ polymorphicForms column, marks form.1 = form.2 := by
  simp only [polymorphicForms, List.forall_mem_cons, marks_append, h.marks_eq]
  exact ⟨rfl, rfl, List.forall_mem_nil _⟩

private theorem marks_bucketForm (h : Sql.Plain column) (type : FieldType) :
    marks (bucketForm dialect type column).1 = (bucketForm dialect type column).2 := by
  simp only [bucketForm, marks_append, h.marks_eq]
  split <;> cases dialect <;> rfl

/-- The forms of a plain column are balanced. -/
theorem marks_plainForms (hentity : entity.Plain) (h : Sql.Plain column) (fuzzy : Bool)
    (type : FieldType) :
    ∀ form ∈ plainForms dialect entity column fuzzy type, marks form.1 = form.2 := by
  have htext : marks (textForm dialect fuzzy column).1 = (textForm dialect fuzzy column).2 := by
    rw [marks_textForm h]
    cases fuzzy <;> rfl
  -- one case for each kind of form: those by equality, by bucket and by text carry one mark each
  unfold plainForms
  split
  case h_1 => exact marks_polymorphicForms h
  case h_2 | h_3 | h_4 | h_5 => exact List.forall_mem_singleton.mpr (marks_equalForm h)
  -- the roles mask is tested on a column of the entity and not on `column`
  case h_6 =>
    have hmask : Sql.Plain (entity.column "roles_mask") := hentity.column (by decide)
    refine List.forall_mem_singleton.mpr ?_
    simp only [marks_append, hmask.marks_eq]
    rfl
  case h_7 | h_8 => exact List.forall_mem_singleton.mpr (marks_bucketForm h _)
  case h_9 => exact marks_timeForms h
  case h_15 | h_16 | h_17 => exact List.forall_mem_singleton.mpr htext
  case h_18 => exact List.forall_mem_nil _
  all_goals exact marks_numberForms h

private theorem balanced_of_plainCondition (hentity : entity.Plain) (h : Sql.Plain column)
    {field text : String} {fuzzy : Bool} {type : FieldType} {term : Value.Term}
    {condition : Fragment}
    (hcondition : plainCondition dialect entity field column fuzzy text type term = .ok condition) :
    condition.Balanced :=
  marks_plainForms hentity h fuzzy type _ (form_of_plainCondition hcondition)

/-- A search in all fields adds a balanced condition. -/
theorem balanced_anyCondition (hentity : entity.Plain) (value : Json) {options : SearchAnyOptions}
    (hfields : ∀ fields ∈ options.fields, ∀ field ∈ fields, Sql.Plain field) :
    (anyCondition dialect entity value options).2.Balanced := by
  unfold anyCondition
  split
  · -- keys bind one mark each
    exact KeySet.balanced_inList hentity.keyColumn _
  · -- a text binds one mark in each field it is looked for in, and nothing between the fields
    have hplain : ∀ field ∈ options.fields.getD entity.searchFields, Sql.Plain field := by
      cases hoptions : options.fields with
      | none => exact hentity.searchFields
      | some fields => exact hfields fields hoptions
    change marks (Fragment.form _).1 = (Fragment.form _).2
    rw [form_anyTextCondition]
    unfold anyTextForm
    split
    · rfl
    · have hseparator : Sql.Plain " OR " := by decide
      simp only [marks_intercalate hseparator, List.map_map]
      have hone : ∀ field ∈ options.fields.getD entity.searchFields,
          (marks ∘ fun field => (textForm dialect options.fuzzy (entity.sqlColumn field)).1) field =
            1 := fun field hfield => marks_textForm (hentity.sqlColumn (hplain field hfield)) _
      rw [List.map_congr_left hone, List.map_const', List.sum_replicate_nat, Nat.mul_one]

/-- The expression of a sort key is plain. -/
def PlainKey : SortKey → Prop
  | .value expression | .isNull expression | .isEmpty expression => Sql.Plain expression

private theorem plain_keySql {key : SortKey} (h : PlainKey key) : Sql.Plain (dialect.keySql key) := by
  cases key with
  | value expression => exact h
  | isNull expression =>
    cases dialect with
    | mysql => exact plain_append.mpr ⟨plain_append.mpr ⟨by decide, h⟩, by decide⟩
    | postgres | sqlite => exact plain_append.mpr ⟨h, by decide⟩
  | isEmpty expression => exact plain_append.mpr ⟨h, by decide⟩

private theorem plain_sortSql {items : List SortItem} (h : ∀ item ∈ items, PlainKey item.key) :
    Sql.Plain (dialect.sortSql items) := by
  refine plain_intercalate (by decide) fun text htext => ?_
  obtain ⟨item, hitem, rfl⟩ := List.mem_map.mp htext
  refine plain_append.mpr ⟨plain_append.mpr ⟨plain_keySql (h item hitem), ?_⟩, ?_⟩
  · split
    · next direction _ => cases direction <;> decide
    · decide
  · split <;> decide

private theorem plain_orderNullsLast (h : Sql.Plain column) (direction : Direction) :
    Sql.Plain (dialect.orderNullsLast column direction) := by
  refine plain_sortSql ?_
  cases dialect <;> simp [Dialect.nullsLast, PlainKey, h]

private theorem plain_orderText (h : Sql.Plain column) (direction : Direction) :
    Sql.Plain (dialect.orderText column direction) := by
  refine plain_sortSql ?_
  cases dialect <;> simp [Dialect.textOrder, PlainKey, h]

private theorem plain_orderTime (h : Sql.Plain column) (direction : Direction) :
    Sql.Plain (dialect.orderTime column direction) := by
  have hhour := plain_extractHour dialect h
  have hminute := plain_extractMinute dialect h
  refine plain_sortSql ?_
  unfold Dialect.timeOrder
  split <;> simp [PlainKey, h, hhour, hminute]

/-! ## Correlations -/

/-- Entities have plain names, and only balanced relations and plain columns are plucked. -/
def balance : Contract where
  entity _ found := found.Plain
  asks r column := r.Balanced ∧ Sql.Plain column

variable {settings : Settings} {purpose : Purpose} {owner target : Target} {rows : Relation}

private theorem balanced_rankBy (h : Sql.Plain column) (keys : KeySet) :
    ∀ f ∈ rankBy column keys, f.Balanced := by
  intro f hf
  exact KeySet.balanced_of_rankOrder? h (Option.mem_toList.mp hf)

private theorem balanced_narrow (hrows : rows.Balanced) (h : Sql.Plain column) (keys : KeySet) :
    (narrow settings purpose column keys rows).Balanced := by
  have hamong := hrows.filter (KeySet.balanced_inList h keys)
  cases purpose with
  | filter => exact hamong
  | rank => exact (hamong.orderBy (balanced_rankBy h keys)).take _

private theorem balanced_restrict (hrows : rows.Balanced) {condition : Option Fragment}
    (hcondition : ∀ f ∈ condition, f.Balanced) : (restrict condition rows).Balanced := by
  cases condition with
  | none => exact hrows
  | some f => exact hrows.filter (hcondition f rfl)

private theorem keysBack_balanced {link : Link} (hlink : link.Plain) (htarget : target.Plain)
    (hrows : rows.Balanced) :
    (keysBack settings purpose link target rows).Ensures balance fun _ => True := by
  have hpluck : ∀ {r : Relation} {column : String}, r.Balanced → Sql.Plain column →
      (Compilation.keys r column).Ensures balance fun _ => True :=
    fun hr hcolumn => Ensures.keys ⟨hr, hcolumn⟩ fun _ _ => trivial
  -- one case for each kind of link: it says in which column the keys are found
  obtain ⟨name, foreignKey, kind⟩ := link
  have hkind := hlink.kind
  cases kind with
  | direct | polymorphic => exact hpluck hrows htarget.keyColumn
  | reversed => exact hpluck hrows (htarget.column hlink.foreignKey)
  | manyToMany far joinTable targetKey =>
    refine (hpluck hrows htarget.keyColumn).bind fun targets _ => ?_
    -- through a join table there are two plucks, and the second only if the first found a key
    unfold throughJoinTable
    split
    · exact Ensures.pure trivial
    · have hjoin : (narrow settings purpose (qualified joinTable targetKey) targets
          (.all joinTable joinTable)).Balanced :=
        balanced_narrow (.all hkind.2.1 joinTable) (plain_qualified hkind.2.1 hkind.2.2) targets
      exact hpluck hjoin (plain_qualified hkind.2.1 hlink.foreignKey)

private theorem plain_ownerColumn {link : Link} (hlink : link.Plain) (howner : owner.Plain) :
    Sql.Plain (ownerColumn owner link) := by
  unfold ownerColumn
  split
  · exact howner.column hlink.foreignKey
  · exact howner.column hlink.foreignKey
  · exact howner.keyColumn
  · exact howner.keyColumn

private theorem balanced_of_pointsAt? {link : Link} (hlink : link.Plain) (howner : owner.Plain)
    {condition : Fragment} (hcondition : pointsAt? owner link target = some condition) :
    condition.Balanced := by
  obtain ⟨name, foreignKey, kind⟩ := link
  have hkind := hlink.kind
  cases kind <;> cases hcondition
  exact Fragment.balanced_equals (howner.column hkind) _

private theorem balanced_ofOwner {link : Link} (hlink : link.Plain) (htarget : target.Plain)
    (hrows : rows.Balanced) : (ofOwner owner link target rows).Balanced :=
  balanced_restrict hrows fun _ hcondition => hlink.typeCondition? htarget hcondition

private theorem correlate_balanced {association : Association} (hassociation : association.Plain)
    (howner : owner.Plain) (htarget : target.Plain) (hrows : rows.Balanced) :
    (correlate settings purpose owner target rows association).Ensures balance fun found =>
      Sql.Plain found.1 := by
  refine correlate_cases (motive := fun association way => association.Plain →
    (way rows).Ensures balance fun found => Sql.Plain found.1) ?step ?two ?unsupported association
    hassociation
  case step =>
    -- one step plucks once, from the rows of the target that are its owner's
    intro link hlink
    refine (keysBack_balanced hlink htarget
      (balanced_ofOwner hlink htarget hrows)).bind fun keys _ => ?_
    exact Ensures.pure (plain_ownerColumn hlink howner)
  case two =>
    -- two steps: the keys of the nearer rows first, and with them those of the rows between
    rintro _ _ via source _ _ middle hmiddle ⟨hvia, hsource, -⟩
    have hmiddle : middle.Plain := Link.Plain.target? hvia hmiddle
    refine (keysBack_balanced hsource htarget
      (balanced_ofOwner hsource htarget hrows)).bind fun found _ => ?_
    split
    · exact Ensures.pure (plain_ownerColumn hvia howner)
    · have hmiddles : (restrict (pointsAt? middle source target) middle.relation).Balanced :=
        balanced_restrict (Relation.Balanced.all hmiddle.table _)
          fun _ hcondition => balanced_of_pointsAt? hsource hmiddle hcondition
      have hbetween : (narrow settings purpose (ownerColumn middle source) found
          (restrict (pointsAt? middle source target) middle.relation)).Balanced :=
        balanced_narrow hmiddles (plain_ownerColumn hsource hmiddle) found
      refine (keysBack_balanced hvia hmiddle
        (balanced_ofOwner hvia hmiddle hbetween)).bind fun keys _ => ?_
      exact Ensures.pure (plain_ownerColumn hvia howner)
  case unsupported => exact fun _ _ _ _ => Ensures.fail _

/-! ## Searches -/

private theorem enter_balanced (target : Target) :
    (enter settings target).Ensures balance fun found => found.Plain := by
  unfold enter
  split
  · exact Ensures.fail _
  · exact Ensures.entity _ fun _ h => h

private theorem matching_balanced {found : Entity} (hfound : found.Plain) (value : Json) (fuzzy : Bool)
    (hrows : rows.Balanced) :
    (matching settings found value fuzzy rows).Ensures balance fun r => r.Balanced := by
  refine Ensures.note.bind fun _ _ => ?_
  exact Ensures.pure (hrows.filter (balanced_anyCondition hfound value nofun))

private theorem associationCondition_balanced (hentity : entity.Plain) {association : Association}
    (hassociation : association.Plain) (value : Json) (fuzzy : Bool) :
    (associationCondition settings entity association value fuzzy).Ensures balance fun f =>
      f.Balanced := by
  refine (Ensures.ofExcept (fun target : Target => target.Plain) fun target h =>
    hassociation.target? (requireTarget_eq_ok.mp h)).bind fun target htarget => ?_
  refine (enter_balanced target).bind fun found hfound => ?_
  refine (matching_balanced hfound value fuzzy hfound.relation).bind fun rows hrows => ?_
  refine (correlate_balanced hassociation hentity.asTarget htarget hrows).bind fun carried h => ?_
  exact Ensures.pure (KeySet.balanced_inList h _)

/-- The addresses of a scope are a balanced relation. -/
theorem balanced_addressScope {scope : Catalog.AddressScope} (hlink : scope.link.Plain)
    (htarget : scope.target.Plain) (ownerType : String) : (scope.relation ownerType).Balanced := by
  have hcolumn : Sql.Plain (scope.target.column "category") := htarget.column (by decide)
  have hcategory := (Relation.Balanced.all htarget.table scope.target.name.typeName).filter
    (Fragment.balanced_equals hcolumn (.text scope.category))
  unfold Catalog.AddressScope.relation
  simp only
  split
  · next condition hcondition => exact hcategory.filter (hlink.typeCondition? htarget hcondition)
  · exact hcategory

private theorem addressCondition_balanced (hentity : entity.Plain) (field : String) (value : Json)
    (fuzzy : Bool) :
    (addressCondition settings entity field value fuzzy).Ensures balance fun f => f.Balanced := by
  unfold addressCondition
  split
  · exact Ensures.fail _
  · next scope hscope =>
    obtain ⟨hlink, htarget⟩ := Catalog.plain_of_addressScope? hentity.associations hscope
    refine (enter_balanced scope.target).bind fun found hfound => ?_
    refine (matching_balanced hfound value fuzzy
      (balanced_addressScope hlink htarget _)).bind fun rows hrows => ?_
    have hkeys : (Compilation.keys rows (scope.target.column scope.link.foreignKey)).Ensures balance
        fun _ => True :=
      Ensures.keys ⟨hrows, htarget.column hlink.foreignKey⟩ fun _ _ => trivial
    refine hkeys.bind fun keys _ => ?_
    exact Ensures.pure (KeySet.balanced_inList hentity.keyColumn _)

/-- The clause of a search leaves a balanced relation balanced. -/
theorem searchClause_balanced (hentity : entity.Plain) {field : String} (hfield : Sql.Plain field)
    (value : Json) {options : SearchOptions}
    (hcolumn : ∀ column ∈ options.sqlColumn, Sql.Plain column) :
    (searchClause settings entity field value options).Ensures balance fun clause =>
      ∀ r : Relation, r.Balanced → (clause.addTo r).Balanced := by
  -- the four ways of a search in the order they are tried: aggregate, empty value, association
  -- or address, plain column
  have hplain := hentity.columnFor hfield hcolumn
  unfold searchClause
  simp only
  split
  · refine Ensures.note.bind fun _ _ => ?_
    exact Ensures.pure fun r hr => hr.having (Fragment.balanced_equals hplain _)
  refine (Ensures.ofExcept (fun _ => True) fun _ _ => trivial).bind fun term _ => ?_
  refine Ensures.note.bind fun _ _ => ?_
  split
  · refine Ensures.pure fun r hr => hr.filter (Fragment.balanced_ofSql ?_)
    exact plain_append.mpr ⟨hplain, by decide⟩
  split
  · refine (Ensures.ofExcept (fun association : Association => association.Plain)
      fun association h => ?_).bind fun association hassociation => ?_
    · exact hentity.associations association (Entity.mem_of_resolveWith (require_eq_ok.mp h))
    · refine (associationCondition_balanced hentity hassociation value _).bind fun f hf => ?_
      exact Ensures.pure fun r hr => hr.filter hf
  split
  · refine (addressCondition_balanced hentity field value _).bind fun f hf => ?_
    exact Ensures.pure fun r hr => hr.filter hf
  · refine (Ensures.ofExcept (fun f : Fragment => f.Balanced)
      fun f h => balanced_of_plainCondition hentity hplain h).bind fun f hf => ?_
    exact Ensures.pure fun r hr => hr.filter hf

/-! ## Orderings -/

/-- How targets are ordered keeps to balanced expressions. -/
def BalancedOrdering (orderTarget : TargetOrdering) : Prop :=
  ∀ typeName sortField, (∀ field ∈ sortField, Sql.Plain field) →
    (orderTarget typeName sortField).Ensures balance fun found =>
      found.1.Plain ∧ ∀ f ∈ found.2, f.Balanced

variable {orderTarget : TargetOrdering} {options : OrderOptions}

private theorem rankByAssociation_balanced (horder : BalancedOrdering orderTarget)
    (hentity : entity.Plain)
    {association : Association} (hassociation : association.Plain)
    (hsort : ∀ field ∈ options.sortField, Sql.Plain field) :
    (rankByAssociation settings orderTarget entity association options).Ensures balance
      fun rank => ∀ f ∈ rank, f.Balanced := by
  refine (Ensures.ofExcept (fun target : Target => target.Plain) fun target h =>
    hassociation.target? (requireTarget_eq_ok.mp h)).bind fun target htarget => ?_
  refine (horder target.name.typeName options.sortField hsort).bind fun found hfound => ?_
  have hrows := (hfound.1.relation.orderBy hfound.2).take (settings.cap options.limit)
  refine (correlate_balanced hassociation hentity.asTarget htarget hrows).bind fun carried h => ?_
  exact Ensures.pure (balanced_rankBy h _)

private theorem rankByAddresses_balanced (horder : BalancedOrdering orderTarget)
    (hentity : entity.Plain)
    (field : String) (hsort : ∀ field ∈ options.sortField, Sql.Plain field) :
    (rankByAddresses settings orderTarget entity field options).Ensures balance
      fun rank => ∀ f ∈ rank, f.Balanced := by
  unfold rankByAddresses
  split
  · exact Ensures.fail _
  · next scope hscope =>
    obtain ⟨hlink, htarget⟩ := Catalog.plain_of_addressScope? hentity.associations hscope
    refine (horder scope.target.name.typeName options.sortField hsort).bind fun found hfound => ?_
    have hrows := ((balanced_addressScope hlink htarget entity.typeName).orderBy hfound.2).take
      (settings.cap options.limit)
    have hkeys : (Compilation.keys (ordered settings options.limit found.2
        (scope.relation entity.typeName)) (scope.target.column scope.link.foreignKey)).Ensures
          balance fun _ => True :=
      Ensures.keys ⟨hrows, htarget.column hlink.foreignKey⟩ fun _ _ => trivial
    exact hkeys.bind fun keys _ => Ensures.pure (balanced_rankBy hentity.keyColumn keys)

/-- One level of ordering: the expressions of any field are balanced. -/
theorem orderWith_balanced (horder : BalancedOrdering orderTarget) (hentity : entity.Plain)
    {field : String} (hfield : Sql.Plain field) (direction : Direction)
    (hcolumn : ∀ column ∈ options.sqlColumn, Sql.Plain column)
    (hsort : ∀ field ∈ options.sortField, Sql.Plain field) :
    (orderWith settings orderTarget entity field direction options).Ensures balance
      fun expressions => ∀ f ∈ expressions, f.Balanced := by
  have hplain := hentity.columnFor hfield hcolumn
  have hdirection : ∀ d : Direction, Sql.Plain d.sql := by
    intro d
    cases d <;> decide
  have hkey : Sql.Plain (entity.keyColumn ++ " " ++ direction.sql) :=
    plain_append.mpr ⟨plain_append.mpr ⟨hentity.keyColumn, by decide⟩, hdirection _⟩
  have hsingle : ∀ sql, Sql.Plain sql → ∀ f ∈ [Fragment.ofSql sql], f.Balanced :=
    fun sql h => List.forall_mem_singleton.mpr (Fragment.balanced_ofSql h)
  have hassociation : (Compilation.ofExcept (entity.require field
      (entity.resolveWith field options.type).association)).Ensures balance
        fun association => association.Plain :=
    Ensures.ofExcept _ fun association h =>
      hentity.associations association (Entity.mem_of_resolveWith (require_eq_ok.mp h))
  unfold orderWith
  refine Ensures.note.bind fun _ _ => ?_
  split
  case h_1 =>
    refine hassociation.bind fun association h => ?_
    refine (rankByAssociation_balanced horder hentity h hsort).bind fun rank hrank => ?_
    refine Ensures.pure (List.forall_mem_cons.mpr ⟨Fragment.balanced_ofSql ?_, hrank⟩)
    exact plain_append.mpr ⟨hplain, by decide⟩
  -- A polymorphic reference is ordered by both of its columns.
  case h_2 =>
    refine Ensures.pure (List.forall_mem_cons.mpr ⟨Fragment.balanced_ofSql ?_, hsingle _ ?_⟩)
    · exact plain_append.mpr ⟨plain_append.mpr ⟨hplain, by decide⟩, hdirection _⟩
    · exact plain_append.mpr ⟨plain_append.mpr ⟨hplain, by decide⟩, hdirection _⟩
  case h_3 | h_4 | h_5 =>
    refine hassociation.bind fun association h => ?_
    refine (rankByAssociation_balanced horder hentity h hsort).bind fun rank hrank => ?_
    exact Ensures.pure (List.forall_mem_append.mpr ⟨hrank, hsingle _ hkey⟩)
  case h_6 =>
    refine (rankByAddresses_balanced horder hentity field hsort).bind fun rank hrank => ?_
    exact Ensures.pure (List.forall_mem_append.mpr ⟨hrank, hsingle _ hkey⟩)
  case h_7 =>
    refine Ensures.pure (hsingle _ (plain_append.mpr ⟨plain_append.mpr ⟨?_, by decide⟩, ?_⟩))
    · exact hentity.column (by decide)
    · exact hdirection _
  case h_8 | h_9 | h_10 => exact Ensures.pure (hsingle _ (plain_orderText hplain direction))
  case h_11 => exact Ensures.pure (hsingle _ (plain_orderTime hplain direction))
  all_goals exact Ensures.pure (hsingle _ (plain_orderNullsLast hplain direction))

/-- The expressions of an ordering are balanced, however many associations are followed. -/
theorem orderClauses_balanced {levels : Nat} (hentity : entity.Plain) {field : String}
    (hfield : Sql.Plain field) (direction : Direction)
    (hcolumn : ∀ column ∈ options.sqlColumn, Sql.Plain column)
    (hsort : ∀ field ∈ options.sortField, Sql.Plain field) :
    (orderClauses settings levels entity field direction options).Ensures balance
      fun expressions => ∀ f ∈ expressions, f.Balanced := by
  -- induction on the hops left: without one there is no ordering to descend into, and with one more
  -- the ordering of the target is what the induction hypothesis is about
  induction levels generalizing entity field options with
  | zero =>
    rw [orderClauses]
    exact orderWith_balanced (fun _ _ _ => Ensures.fail _) hentity hfield direction hcolumn hsort
  | succ levels ih =>
    rw [orderClauses]
    refine orderWith_balanced (fun typeName sortField hfields => ?_) hentity hfield direction
      hcolumn hsort
    refine (Ensures.entity (fun found => found.Plain) fun _ h => h).bind fun found hfound => ?_
    have hnext : Sql.Plain (sortField.getD found.defaultSortField) := by
      cases sortField with
      | none => exact hfound.defaultSortField
      | some field => exact hfields field rfl
    have hown : (orderClauses settings levels found (sortField.getD found.defaultSortField)
        direction { limit := options.limit, reorder := true }).Ensures balance
          fun expressions => ∀ f ∈ expressions, f.Balanced := ih hfound hnext nofun nofun
    refine hown.bind fun expressions hexpressions => ?_
    exact Ensures.pure ⟨hfound, hexpressions⟩

end Compile

/-! ## Requests -/

/-- The fields and the expressions that a request names are plain. -/
def Request.Plain : Request → Prop
  | .order field _ options =>
    Sql.Plain field ∧ (∀ column ∈ options.sqlColumn, Sql.Plain column) ∧
      ∀ sortField ∈ options.sortField, Sql.Plain sortField
  | .search field _ options =>
    Sql.Plain field ∧ ∀ column ∈ options.sqlColumn, Sql.Plain column
  | .searchAny _ options => ∀ fields ∈ options.fields, ∀ field ∈ fields, Sql.Plain field

/-- A request leaves a balanced relation balanced, and its clauses come last. -/
theorem Request.compile_balanced {settings : Settings} {entity : Entity} (hentity : entity.Plain)
    {request : Request} (hrequest : request.Plain) {r : Relation} (hr : r.Balanced) :
    (request.compile ⟨settings, entity, some r⟩).Ensures Compile.balance fun r' =>
      r'.Balanced ∧ request.Extends r r' := by
  -- the relation is bound, so taking it from the compiler costs no lookup
  have hbound : (Compiler.bound ⟨settings, entity, some r⟩).Ensures Compile.balance
      fun bound => bound = r := Ensures.pure rfl
  cases request with
  | order field direction options =>
    obtain ⟨hfield, hcolumn, hsort⟩ := hrequest
    refine hbound.bind ?_
    rintro _ rfl
    refine (Compile.orderClauses_balanced hentity hfield direction hcolumn hsort).bind
      fun expressions hexpressions => ?_
    cases hreorder : options.reorder with
    | false =>
      refine Ensures.pure ⟨hr.orderBy hexpressions, List.prefix_rfl, List.prefix_rfl, ?_⟩
      simp [kept, hreorder, Relation.orderBy]
    | true =>
      refine Ensures.pure ⟨hr.reorder.orderBy hexpressions, List.prefix_rfl, List.prefix_rfl, ?_⟩
      simp [kept, hreorder]
  | search field value options =>
    refine hbound.bind ?_
    rintro _ rfl
    refine (Compile.searchClause_balanced hentity hrequest.1 value hrequest.2).bind
      fun clause hclause => ?_
    refine Ensures.pure ⟨hclause _ hr, ?_⟩
    cases clause with
    | condition f => exact ⟨List.prefix_append _ _, List.prefix_rfl, List.prefix_rfl⟩
    | having f => exact ⟨List.prefix_rfl, List.prefix_append _ _, List.prefix_rfl⟩
  | searchAny value options =>
    refine hbound.bind ?_
    rintro _ rfl
    refine Ensures.note.bind fun _ _ => ?_
    refine Ensures.pure ⟨hr.filter (Compile.balanced_anyCondition hentity value hrequest), ?_⟩
    exact ⟨List.prefix_append _ _, List.prefix_rfl, List.prefix_rfl⟩

/-- All relations of a series of requests that starts from the rows of an entity, those that are
given and those that are plucked on the way, are turned into statements whose placeholders are
aligned with their parameters, and the columns that are plucked have no placeholders. The clauses of the
relations that are given stand in the order of the requests. -/
theorem series_aligned {σ : Type} {backend : Backend σ} {settings : Settings} {entity : Entity}
    {requests : List Request} {s : σ} (hentity : entity.Plain)
    (hfound : ∀ i s₁ e s₂, backend.Reached s s₁ → backend.entity i s₁ = (.ok e, s₂) → e.Plain)
    (hrequests : ∀ request ∈ requests, request.Plain) :
    ∀ call ∈ (Compiler.all settings entity).series backend requests s,
      (∀ r ∈ call.relations, ∀ projection, Sql.Plain projection → r.Aligned projection) ∧
        (∀ p ∈ call.plucks, Sql.Plain p.column) ∧
        ∀ r', call.result = .ok r' → ∃ r ∈ call.bound, call.request.Extends r r' := by
  have hstep : ∀ request ∈ requests, ∀ r : Relation, r.Balanced →
      (request.compile ⟨settings, entity, some r⟩).Ensures Compile.balance fun r' =>
        r'.Balanced ∧ request.Extends r r' :=
    fun request hrequest r hr => request.compile_balanced hentity (hrequests request hrequest) hr
  intro call hcall
  -- every step balances on its own, so the whole series does
  obtain ⟨hgiven, hplucked⟩ := Compiler.forall_mem_series hstep
    (fun _ _ _ _ _ _ => trivial) hentity.relation s hfound call hcall
  refine ⟨fun r hr projection hprojection => ?_, fun p hp => (hplucked p hp).2,
    fun r' hr' => (hgiven r' hr').2⟩
  -- a relation of a call was either plucked from or is its result
  rcases List.mem_append.mp hr with hr | hr
  · obtain ⟨p, hp, rfl⟩ := List.mem_map.mp hr
    exact (hplucked p hp).1.aligned hprojection
  · have hok : call.result = .ok r := by
      cases hresult : call.result with
      | ok r' => simpa [hresult, Except.toOption, eq_comm] using hr
      | error e => simp [hresult, Except.toOption] at hr
    exact (hgiven r hok).1.aligned hprojection

namespace Compile.Library

private theorem plain_targetOf (typeName singular : String) {plural : String} (h : Sql.Plain plural) :
    (targetOf typeName singular plural).Plain :=
  ⟨h, (by decide : Sql.Plain "id")⟩

private theorem plain_entityOf {target : Target} (h : target.Plain) {associations : List Association}
    (hassociations : ∀ a ∈ associations, a.Plain) : (entityOf target associations).Plain where
  table := h.table
  primaryKey := (by decide : Sql.Plain "id")
  columns := List.forall_mem_singleton.mpr (by decide)
  searchColumns := nofun
  defaultSort := nofun
  associations := hassociations

private theorem plain_genre : genre.Plain := plain_targetOf _ _ (by decide)

private theorem plain_genres : genres.Plain := by
  refine ⟨⟨by decide, plain_targetOf _ _ (by decide), nofun⟩,
    ⟨by decide, plain_genre, by decide, by decide⟩, ?_⟩
  rintro _ ⟨⟩
  exact plain_genre

end Compile.Library

/-- A search for a genre and then an ordering by the genres, in the library. -/
theorem series_aligned_in_library :
    Sql.Plain "COUNT(*)" ∧
      ∀ call ∈ Compile.Library.compiler.series Compile.Library.store
          [.search "genres" (.string "crime") {}, .order "genres" .ascending {}] (),
        (∀ r ∈ call.relations, r.Aligned "COUNT(*)") ∧ (∀ p ∈ call.plucks, Sql.Plain p.column) ∧
          ∀ r', call.result = .ok r' → ∃ r ∈ call.bound, call.request.Extends r r' := by
  -- the aggregate is no column of the catalog, so its plainness is read off the text
  have hprojection : Sql.Plain "COUNT(*)" := by decide
  have hauthor : (Compile.Library.entityOf Compile.Library.author [Compile.Library.genres]).Plain :=
    Compile.Library.plain_entityOf (Compile.Library.plain_targetOf _ _ (by decide))
      (List.forall_mem_singleton.mpr Compile.Library.plain_genres)
  have hfound : ∀ i s₁ e s₂, Compile.Library.store.Reached () s₁ →
      Compile.Library.store.entity i s₁ = (.ok e, s₂) → e.Plain := by
    intro i s₁ e s₂ _ h
    have hentity := congrArg Prod.fst h
    simp only [Compile.Library.store, Collation.store, Compile.Library.find] at hentity
    split at hentity <;> cases hentity
    exact Compile.Library.plain_entityOf Compile.Library.plain_genre (List.forall_mem_nil _)
  have hfield : Sql.Plain "genres" := by decide
  refine ⟨hprojection, fun call hcall => ?_⟩
  obtain ⟨haligned, hplucked, hextends⟩ := series_aligned hauthor hfound
    (by simp [Request.Plain, hfield]) call hcall
  exact ⟨fun r hr => haligned r hr _ hprojection, hplucked, hextends⟩

end FieldQuery
