import FieldQuery.Catalog.Description

/-!
# What the associations of a catalog are made of

Declarations are arbitrary: an association may go through one that goes through another one itself,
through one that is not declared, or through itself, and names may be declared twice. What a catalog
makes of them is well formed all the same. Every link is the description of a declaration over one
step, an association through another one goes over a link of the same entity first, with the key of
this link, and then over a link of the entity in the middle, if there is one. A target is missing only
where a row may point at rows of any type, or where nothing tells what the second step would lead to.
-/

namespace FieldQuery.Catalog

open FieldQuery.Naming FieldQuery.Schema

variable {provider : Provider} {owner : EntityName} {schema : EntitySchema} {link : Link}
  {d : AssociationDeclaration} {association : Association}

/-! ## Well-formed associations -/

/-- A link that a declaration of an entity over one step describes. -/
def Declares (provider : Provider) (owner : EntityName) (schema : EntitySchema) (link : Link) :
    Prop :=
  ∃ d ∈ schema.associations, d.through = none ∧ describe provider owner d = link

/-- A link of the entity that an association leads to. -/
def Continues (provider : Provider) (via : Association) (link : Link) : Prop :=
  ∃ middle, via.target? = some middle ∧ ∃ owner schema,
    findSchema? provider middle.name.typeName = some (owner, schema) ∧
      Declares provider owner schema link

/-- Nothing tells where an association through another one leads: no type is declared, and the second
step is missing, without a class name in its place, or leads to rows of any type. -/
def LeavesTargetOpen (d : AssociationDeclaration) (source : Option Association) : Prop :=
  d.sourceType = none ∧
    ((∃ step ∈ source, step.isPolymorphic = true) ∨ source = none ∧ d.className = none)

/-- The parts of an association through another one, and the declaration that it is made from. -/
structure Composed (provider : Provider) (owner : EntityName) (schema : EntitySchema)
    (foreignKey : String) (via : Association) (source : Option Association) (target : Option Target)
    (d : AssociationDeclaration) : Prop where
  mem : d ∈ schema.associations
  through_eq : d.through = some via.name
  declares : ∃ link, via = .step link ∧ Declares provider owner schema link
  foreignKey_eq : foreignKey = via.foreignKey
  continues : ∀ step ∈ source, ∃ link, step = .step link ∧ Continues provider via link
  leavesOpen : target = none → LeavesTargetOpen d source

/-- The parts of an association are those that its entity, and the one in the middle, declare. -/
def Association.WellFormed (provider : Provider) (owner : EntityName) (schema : EntitySchema) :
    Association → Prop
  | .step link => Declares provider owner schema link
  | .through name foreignKey via source target _ =>
    ∃ d, Composed provider owner schema foreignKey via source target d ∧ d.name = name

/-! ## Targets -/

private theorem Link.target?_eq_none_iff :
    link.target? = none ↔ ∃ column, link.kind = .polymorphic column := by
  unfold Link.target?
  cases link.kind <;> simp

private theorem isPolymorphic_of_target?_eq_none (h : link.target? = none) :
    (Association.step link).isPolymorphic = true := by
  obtain ⟨column, hkind⟩ := Link.target?_eq_none_iff.mp h
  obtain ⟨name, foreignKey, kind⟩ := link
  obtain rfl : kind = _ := hkind
  rfl

/-- The middle of a second step is known. -/
theorem Continues.exists_target {via : Association} (h : Continues provider via link) :
    ∃ middle, via.target? = some middle :=
  let ⟨middle, hmiddle, _⟩ := h
  ⟨middle, hmiddle⟩

/-- Where the target of a well-formed association is missing, it is that of a polymorphic link, or
nothing tells where the second step leads. -/
theorem Association.WellFormed.of_target?_eq_none (h : association.WellFormed provider owner schema)
    (htarget : association.target? = none) :
    association.isPolymorphic = true ∨
      ∃ name foreignKey via source isCollection,
        association = .through name foreignKey via source none isCollection ∧
          ∃ d ∈ schema.associations, d.name = name ∧ d.through = some via.name ∧
            LeavesTargetOpen d source := by
  -- a step leads anywhere only if it is polymorphic; a chain has a declaration that says why
  cases association with
  | step link => exact Or.inl (isPolymorphic_of_target?_eq_none htarget)
  | through name foreignKey via source target isCollection =>
    obtain rfl : target = none := htarget
    obtain ⟨d, hd, hname⟩ := h
    exact Or.inr ⟨name, foreignKey, via, source, isCollection, rfl, d, hd.mem, hname, hd.through_eq,
      hd.leavesOpen rfl⟩

/-! ## Descriptions -/

/-- The links of an entity are those that it declares. -/
theorem declares_of_mem
    (h : link ∈ (schema.associations.filter fun d => d.through.isNone).map (describe provider owner)) :
    Declares provider owner schema link := by
  obtain ⟨d, hd, hlink⟩ := List.mem_map.mp h
  obtain ⟨hmem, hstep⟩ := List.mem_filter.mp hd
  exact ⟨d, hmem, Option.isNone_iff_eq_none.mp hstep, hlink⟩

private theorem continues_of_describeSource? {via : Link}
    (h : describeSource? provider via d = some link) :
    Continues provider (.step via) link := by
  obtain ⟨middle, hmiddle, h⟩ := Option.bind_eq_some_iff.mp h
  obtain ⟨⟨owner, schema⟩, hschema, h⟩ := Option.bind_eq_some_iff.mp h
  obtain ⟨declared, hfound, h⟩ := Option.bind_eq_some_iff.mp h
  obtain ⟨candidate, -, hcandidate⟩ := List.exists_of_findSome?_eq_some hfound
  refine ⟨middle, hmiddle, owner, schema, hschema, declared, List.mem_of_find?_eq_some hcandidate, ?_⟩
  -- A declaration through another one is no second step.
  split at h
  · cases h
  · next hstep =>
    cases h
    exact ⟨by simpa using hstep, rfl⟩

private theorem leavesTargetOpen_of_throughTarget? {source : Option Link}
    (h : throughTarget? provider owner d source = none) :
    LeavesTargetOpen d (source.map .step) := by
  -- no source type is declared, so the target is the second step's or that of a class name
  unfold throughTarget? at h
  split at h
  · cases h
  · next link htype =>
    exact ⟨htype, Or.inl ⟨.step link, rfl, isPolymorphic_of_target?_eq_none h⟩⟩
  · next htype => exact ⟨htype, Or.inr ⟨rfl, Option.map_eq_none_iff.mp h⟩⟩

/-- Whatever an entity declares, every association of its catalog is well formed. -/
theorem wellFormed_of_mem_describeAll (h : association ∈ describeAll provider owner schema) :
    association.WellFormed provider owner schema := by
  obtain ⟨d, hd, hdescribe⟩ := List.mem_filterMap.mp h
  unfold describeAssociation? at hdescribe
  split at hdescribe
  · -- a step is among the declared links
    obtain ⟨link, hlink, rfl⟩ := Option.map_eq_some_iff.mp hdescribe
    exact declares_of_mem (List.mem_of_find?_eq_some hlink)
  · next name hthrough =>
    -- a chain: its first step is a declared link, and its second one was described from the table
    -- that step leads to
    obtain ⟨via, hvia, hdescribe⟩ := Option.bind_eq_some_iff.mp hdescribe
    cases hdescribe
    have hname : via.name = name := by simpa using List.find?_some hvia
    refine ⟨d, ⟨hd, hthrough.trans (congrArg some hname.symm),
      ⟨via, rfl, declares_of_mem (List.mem_of_find?_eq_some hvia)⟩, rfl, fun step hstep => ?_,
      leavesTargetOpen_of_throughTarget?⟩, rfl⟩
    obtain ⟨link, hlink, rfl⟩ := Option.map_eq_some_iff.mp hstep
    exact ⟨link, rfl, continues_of_describeSource? hlink⟩

/-- Neither step of a well-formed association through another one goes through another one. -/
theorem Association.WellFormed.isThrough_eq_false {name foreignKey : String} {via : Association}
    {source : Option Association} {target : Option Target} {isCollection : Bool}
    (h : (Association.through name foreignKey via source target isCollection).WellFormed provider owner
      schema) :
    via.isThrough = false ∧ ∀ step ∈ source, step.isThrough = false := by
  -- the declaration names a single step, and so does the one it continues with
  obtain ⟨d, hd, -⟩ := h
  obtain ⟨link, rfl, -⟩ := hd.declares
  refine ⟨rfl, fun step hstep => ?_⟩
  obtain ⟨next, rfl, -⟩ := hd.continues step hstep
  rfl

/-- A description keeps the name of its declaration. -/
theorem name_describe : (describe provider owner d).name = d.name := by
  unfold describe
  cases d.kind with
  | belongsTo => cases d.polymorphic <;> rfl
  | hasOne | hasMany | hasAndBelongsToMany => rfl

/-- What an association of a catalog goes through is in the catalog as well. -/
theorem mem_describeAll_of_through {name foreignKey : String} {via : Association}
    {source : Option Association} {target : Option Target} {isCollection : Bool}
    (h : .through name foreignKey via source target isCollection ∈ describeAll provider owner schema) :
    via ∈ describeAll provider owner schema := by
  obtain ⟨d, -, hdescribe⟩ := List.mem_filterMap.mp h
  unfold describeAssociation? at hdescribe
  split at hdescribe
  · obtain ⟨link, -, hstep⟩ := Option.map_eq_some_iff.mp hdescribe
    cases hstep
  · next declared hdeclared =>
    obtain ⟨link, hlink, hdescribe⟩ := Option.bind_eq_some_iff.mp hdescribe
    cases hdescribe
    -- The link is the first one of its name, so its own declaration is described by it as well.
    obtain ⟨sibling, hsibling, hthrough, hdescribed⟩ := declares_of_mem (List.mem_of_find?_eq_some hlink)
    have hname : link.name = sibling.name := by rw [← hdescribed, name_describe]
    have hvia : link.name = declared := by simpa using List.find?_some hlink
    refine List.mem_filterMap.mpr ⟨sibling, hsibling, ?_⟩
    unfold describeAssociation?
    rw [hthrough, ← hname, hvia, hlink]
    rfl

end FieldQuery.Catalog
