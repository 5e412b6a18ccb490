import FieldQuery.Proofs.Entity.Lookups

/-!
# Targets and entities

The table and the key of a target are found when the catalog of the owner is described, and those of
the entity that a request descends into when it is looked up. Both are read from the schema of one
type, so they agree if the target and the entity have one name. That is so if every name that is
looked up is read back from its type name, and if every association names a target at all.
-/

namespace FieldQuery

open FieldQuery.Naming FieldQuery.Schema

/-! ## Names that are looked up -/

namespace Naming.EntityName

/-- An identifier whose name, if it is one, is read back from its type name. -/
def Stable (identifier : String) : Prop :=
  ∀ name ∈ parse? identifier, parse? name.typeName = some name

instance (identifier : String) : Decidable (Stable identifier) :=
  inferInstanceAs (Decidable (∀ _ ∈ _, _))

end Naming.EntityName

open EntityName

namespace Catalog

variable {provider : Provider} {owner : EntityName}

/-- The name of the target that is looked for to describe a declaration of one step. -/
def targetName? (d : AssociationDeclaration) : Option String :=
  match d.kind with
  | .belongsTo => if d.polymorphic then none else some (d.className.getD (camelize d.name))
  | .hasOne => some (d.className.getD (camelize d.name))
  | .hasMany | .hasAndBelongsToMany => some (d.className.getD (classify d.name))

/-- The target of a link is the one that is looked for. -/
theorem target?_describe (d : AssociationDeclaration) :
    (describe provider owner d).target? = (targetName? d).map (targetFor provider owner) := by
  unfold describe targetName?
  cases d.kind with
  | belongsTo => cases d.polymorphic <;> rfl
  | hasOne | hasMany | hasAndBelongsToMany => rfl

/-- The declaration of the second step of an association through `via`, and its owner. -/
def secondStep? (provider : Provider) (via : Link) (d : AssociationDeclaration) :
    Option (EntityName × AssociationDeclaration) := do
  let middle ← via.target?
  let (name, schema) ← findSchema? provider middle.name.typeName
  let source ← (sourceCandidates d).findSome? fun candidate =>
    schema.associations.find? fun a => a.name == candidate
  if source.through.isSome then none else some (name, source)

private theorem describeSource?_eq (via : Link) (d : AssociationDeclaration) :
    describeSource? provider via d =
      (secondStep? provider via d).map fun step => describe provider step.1 step.2 := by
  unfold describeSource? secondStep?
  -- both read the same three look-ups in the same order, and fail together at each of them
  rcases via.target? with _ | middle
  · rfl
  simp only [bind, Option.bind_some]
  rcases findSchema? provider middle.name.typeName with _ | ⟨name, schema⟩
  · rfl
  simp only [Option.bind_some]
  rcases (sourceCandidates d).findSome? _ with _ | source
  · rfl
  simp only [Option.bind_some]
  split <;> rfl

/-- The names of targets that are looked for to describe an association, with the entities that
they are looked for by. -/
def soughtBy (provider : Provider) (owner : EntityName) (links : List Link)
    (d : AssociationDeclaration) : List (EntityName × String) :=
  match d.through with
  | none => (targetName? d).toList.map (Prod.mk owner)
  | some via =>
    match links.find? fun l => l.name == via with
    | none => []
    | some link =>
      let step := secondStep? provider link d
      (step.toList.flatMap fun s => (targetName? s.2).toList.map (Prod.mk s.1)) ++
        match d.sourceType, step with
        | some type, _ => [(owner, type)]
        | none, some _ => []
        | none, none => d.className.toList.map (Prod.mk owner)

/-- The names of targets that are looked for to describe all associations of an entity. -/
def sought (provider : Provider) (owner : EntityName) (schema : EntitySchema) :
    List (EntityName × String) :=
  let declared := schema.associations.filter fun d => d.through.isNone
  schema.associations.flatMap (soughtBy provider owner (declared.map (describe provider owner)))

/-- The identifiers that are looked up for a target: one candidate after another until one is
registered. -/
def tried (provider : Provider) : List String → List String
  | [] => []
  | candidate :: rest =>
    candidate :: if (findSchema? provider candidate).isSome then [] else tried provider rest

/-! ## Faithful targets -/

/-- A target whose name is read back from its type name, and which has the table and the key of the
schema of its type, if there is one. -/
structure Target.Faithful (provider : Provider) (target : Target) : Prop where
  parse?_typeName : parse? target.name.typeName = some target.name
  eq_of_schema? : ∀ schema, provider.schema? target.name.typeName = some schema →
    target = ⟨target.name, schema.tableFor target.name, schema.primaryKey⟩

private theorem findSchema?_eq_some_iff {identifier : String} {name : EntityName}
    {schema : EntitySchema} :
    findSchema? provider identifier = some (name, schema) ↔
      parse? identifier = some name ∧ provider.schema? name.typeName = some schema := by
  unfold findSchema?
  constructor
  · intro h
    obtain ⟨found, hname, h⟩ := Option.bind_eq_some_iff.mp h
    obtain ⟨registered, hschema, h⟩ := Option.bind_eq_some_iff.mp h
    cases h
    exact ⟨hname, hschema⟩
  · rintro ⟨hname, hschema⟩
    simp [hname, hschema]

/-- What is found under the candidates is found under one that was looked up. -/
theorem exists_mem_tried {candidates : List String} {found : EntityName × EntitySchema}
    (h : candidates.findSome? (findSchema? provider) = some found) :
    ∃ i ∈ tried provider candidates, findSchema? provider i = some found := by
  induction candidates with
  | nil => cases h
  | cons candidate rest ih =>
    rw [List.findSome?_cons] at h
    unfold tried
    cases hcandidate : findSchema? provider candidate with
    | some other =>
      -- The search stops at the first candidate that is registered.
      rw [hcandidate] at h
      exact ⟨candidate, List.mem_cons_self, hcandidate.trans h⟩
    | none =>
      rw [hcandidate] at h
      obtain ⟨i, hi, hfound⟩ := ih h
      exact ⟨i, by simp [hi], hfound⟩

/-- A target that is looked for by names that are read back is faithful. -/
theorem faithful_targetFor {identifier : String} (hname : (parse? identifier).isSome)
    (hstable : ∀ i ∈ tried provider (targetCandidates owner identifier), Stable i) :
    (targetFor provider owner identifier).Faithful provider := by
  cases hfound : (targetCandidates owner identifier).findSome? (findSchema? provider) with
  | some found =>
    obtain ⟨name, schema⟩ := found
    have htarget : targetFor provider owner identifier =
        ⟨name, schema.tableFor name, schema.primaryKey⟩ := by
      simp only [targetFor, hfound]
    obtain ⟨i, hi, hregistered⟩ := exists_mem_tried hfound
    obtain ⟨hparse, hschema⟩ := findSchema?_eq_some_iff.mp hregistered
    rw [htarget]
    refine ⟨hstable i hi name hparse, fun other hother => ?_⟩
    rw [Option.some.inj (hschema.symm.trans hother)]
  | none =>
    obtain ⟨name, hparse⟩ := Option.isSome_iff_exists.mp hname
    have htarget : targetFor provider owner identifier = ⟨name, name.tableName, "id"⟩ := by
      simp only [targetFor, hfound, hparse, Option.getD_some]
    rw [htarget]
    have hfirst : identifier ∈ targetCandidates owner identifier := List.mem_cons_self
    have htried : identifier ∈ tried provider (targetCandidates owner identifier) := by
      unfold targetCandidates tried
      exact List.mem_cons_self
    refine ⟨hstable identifier htried name hparse, fun schema hschema => ?_⟩
    -- Nothing is registered under the name, since it would have been found.
    have hnone := List.findSome?_eq_none_iff.mp hfound identifier hfirst
    rw [findSchema?_eq_some_iff.mpr ⟨hparse, hschema⟩] at hnone
    cases hnone

/-- The targets of an association: of its steps, and where it leads. -/
def Association.targets : Association → List Target
  | .step link => link.target?.toList
  | .through _ _ via none target _ => via.targets ++ target.toList
  | .through _ _ via (some source) target _ => via.targets ++ source.targets ++ target.toList

private theorem mem_targets_through {name foreignKey : String} {via : Link} {source : Option Link}
    {far : Option Target} {isCollection : Bool} {target : Target} :
    target ∈ (Association.through name foreignKey (.step via) (source.map .step) far
        isCollection).targets ↔
      target ∈ via.target? ∨ target ∈ source.bind Link.target? ∨ target ∈ far := by
  cases source <;> simp [Association.targets]

/-- The names that are looked for are names, and all that is looked up for them is read back. -/
def Found (provider : Provider) (names : List (EntityName × String)) : Prop :=
  ∀ s ∈ names, (parse? s.2).isSome ∧
    ∀ i ∈ tried provider (targetCandidates s.1 s.2), Stable i

private theorem faithful_of_mem_target?_describe {d : AssociationDeclaration}
    (h : Found provider ((targetName? d).toList.map (Prod.mk owner))) {target : Target}
    (htarget : target ∈ (describe provider owner d).target?) : target.Faithful provider := by
  rw [target?_describe] at htarget
  obtain ⟨name, hname, rfl⟩ := Option.map_eq_some_iff.mp htarget
  obtain ⟨hvalid, hstable⟩ := h (owner, name) (by simp [hname])
  exact faithful_targetFor hvalid hstable

/-- All targets of an association are faithful. -/
theorem faithful_of_mem_describeAssociation? {links : List Link} {d : AssociationDeclaration}
    (hlinks : ∀ link ∈ links, ∀ target ∈ link.target?, target.Faithful provider)
    (h : Found provider (soughtBy provider owner links d)) {association : Association}
    (hassociation : association ∈ describeAssociation? provider owner links d) :
    ∀ target ∈ association.targets, target.Faithful provider := by
  unfold describeAssociation? at hassociation
  unfold soughtBy at h
  cases hthrough : d.through with
  | none =>
    rw [hthrough] at hassociation
    obtain ⟨link, hlink, rfl⟩ := Option.map_eq_some_iff.mp hassociation
    intro target htarget
    exact hlinks link (List.mem_of_find?_eq_some hlink) target (Option.mem_toList.mp htarget)
  | some via =>
    rw [hthrough] at hassociation h
    obtain ⟨link, hlink, hassociation⟩ := Option.bind_eq_some_iff.mp hassociation
    cases hassociation
    simp only [hlink] at h
    have hsource : ∀ target ∈ (describeSource? provider link d).bind Link.target?,
        target.Faithful provider := by
      intro target htarget
      rw [describeSource?_eq] at htarget
      obtain ⟨source, hsource, htarget⟩ := Option.bind_eq_some_iff.mp htarget
      obtain ⟨step, hstep, rfl⟩ := Option.map_eq_some_iff.mp hsource
      refine faithful_of_mem_target?_describe (fun s hs => h s ?_) htarget
      rw [hstep]
      exact List.mem_append_left _ (by simpa using hs)
    have hfar : ∀ target ∈ throughTarget? provider owner d (describeSource? provider link d),
        target.Faithful provider := by
      intro target htarget
      unfold throughTarget? at htarget
      split at htarget
      · next found type htype =>
        -- A declared source type is the target.
        cases htarget
        have hs := h (owner, type) (List.mem_append_right _ (by simp [htype]))
        exact faithful_targetFor hs.1 hs.2
      · next source htype hsome => exact hsource target (by simpa [hsome] using htarget)
      · next htype hnone =>
        -- Without a second step the class name is left.
        obtain ⟨name, hname, rfl⟩ := Option.map_eq_some_iff.mp htarget
        rw [describeSource?_eq, Option.map_eq_none_iff] at hnone
        have hs := h (owner, name) (List.mem_append_right _ (by simp [htype, hnone, hname]))
        exact faithful_targetFor hs.1 hs.2
    intro target htarget
    rcases mem_targets_through.mp htarget with htarget | htarget | htarget
    · exact hlinks link (List.mem_of_find?_eq_some hlink) target htarget
    · exact hsource target htarget
    · exact hfar target htarget

/-- All targets in a catalog are faithful. -/
theorem faithful_of_mem_describeAll {schema : EntitySchema}
    (h : Found provider (sought provider owner schema)) {association : Association}
    (hassociation : association ∈ describeAll provider owner schema) :
    ∀ target ∈ association.targets, target.Faithful provider := by
  obtain ⟨d, hd, hdescribe⟩ := List.mem_filterMap.mp hassociation
  refine faithful_of_mem_describeAssociation? (fun link hlink target htarget => ?_)
    (fun s hs => h s (List.mem_flatMap.mpr ⟨d, hd, hs⟩)) hdescribe
  -- The links are described from the declarations of one step.
  obtain ⟨declared, hdeclared, rfl⟩ := List.mem_map.mp hlink
  obtain ⟨hmem, hstep⟩ := List.mem_filter.mp hdeclared
  refine faithful_of_mem_target?_describe (fun s hs => h s ?_) htarget
  refine List.mem_flatMap.mpr ⟨declared, hmem, ?_⟩
  simpa [soughtBy, Option.isNone_iff_eq_none.mp hstep] using hs

end Catalog

/-! ## Entities that are found -/

/-- All targets of the associations of an entity are faithful. -/
def Entity.Faithful (provider : Provider) (entity : Entity) : Prop :=
  ∀ association ∈ entity.catalog.associations, ∀ target ∈ association.targets,
    target.Faithful provider

namespace EntityCache

variable {provider : Provider} {identifier : String}

/-- The names of targets that are looked for when the entity of an identifier is loaded, with the
entities that they are looked for by. -/
def sought (provider : Provider) (identifier : String) : List (EntityName × String) :=
  match Entity.load provider identifier with
  | .ok entity => Catalog.sought provider entity.name entity.schema
  | .error _ => []

/-- All identifiers that are looked up when some are: these themselves, and those that are tried for
the targets of the entities that they name. -/
def lookedUp (provider : Provider) (identifiers : List String) : List String :=
  identifiers ++ (identifiers.flatMap (sought provider)).flatMap fun s =>
    Catalog.tried provider (Catalog.targetCandidates s.1 s.2)

/-- Every identifier that is looked up is read back from its type name, and every name of a target
is one. -/
structure Settled (provider : Provider) (identifiers : List String) : Prop where
  stable : ∀ i ∈ lookedUp provider identifiers, Stable i
  named : ∀ s ∈ identifiers.flatMap (sought provider), (parse? s.2).isSome

variable {identifiers earlier : List String} {cache : EntityCache} {entity : Entity}

/-- What is settled for some identifiers is settled for fewer of them. -/
theorem Settled.mono (h : Settled provider identifiers) (hsub : earlier ⊆ identifiers) :
    Settled provider earlier := by
  -- what fewer identifiers lead to is among what more of them lead to
  have hsought : ∀ s ∈ earlier.flatMap (sought provider),
      s ∈ identifiers.flatMap (sought provider) := by
    intro s hs
    obtain ⟨i, hi, hs⟩ := List.mem_flatMap.mp hs
    exact List.mem_flatMap.mpr ⟨i, hsub hi, hs⟩
  refine ⟨fun i hi => h.stable i ?_, fun s hs => h.named s (hsought s hs)⟩
  refine List.mem_append.mpr ((List.mem_append.mp hi).imp (fun hi => hsub hi) fun hi => ?_)
  obtain ⟨s, hs, hi⟩ := List.mem_flatMap.mp hi
  exact List.mem_flatMap.mpr ⟨s, hsought s hs, hi⟩

/-- The targets of an entity that was loaded are faithful. -/
theorem Settled.faithful (h : Settled provider identifiers) (hmem : identifier ∈ identifiers)
    (hload : Entity.load provider identifier = .ok entity) : entity.Faithful provider := by
  obtain ⟨schema, -, -, hentity⟩ := exists_schema_of_load hload
  -- everything the entity's schema leads to is settled with the identifier itself
  have hfound : Catalog.Found provider (Catalog.sought provider entity.name entity.schema) := by
    intro s hs
    have hsought : s ∈ identifiers.flatMap (sought provider) :=
      List.mem_flatMap.mpr ⟨identifier, hmem, by simpa [sought, hload] using hs⟩
    refine ⟨h.named s hsought, fun i hi => h.stable i ?_⟩
    exact List.mem_append_right _ (List.mem_flatMap.mpr ⟨s, hsought, hi⟩)
  intro association hassociation
  rw [hentity] at hfound hassociation
  exact Catalog.faithful_of_mem_describeAll hfound hassociation

/-- If all names are read back, every spelling of a type loads the same entity. -/
theorem load_firstSpelling (hearlier : ∀ i ∈ earlier, Stable i) (hstable : Stable identifier) :
    Entity.load provider (firstSpelling earlier identifier) = Entity.load provider identifier := by
  have hfirst : Stable (firstSpelling earlier identifier) := by
    unfold firstSpelling
    cases hspelling : (spelledType? identifier).bind (spelling? earlier) with
    | none => exact hstable
    | some first =>
      obtain ⟨type, -, hfind⟩ := Option.bind_eq_some_iff.mp hspelling
      exact hearlier first (List.mem_of_find?_eq_some hfind)
  refine (load_eq_iff (spelledType?_firstSpelling earlier identifier)
    firstSpelling_of_parse?_eq_none).mpr fun entity hload => ?_
  have htype := spelledType?_firstSpelling earlier identifier
  obtain ⟨-, -, hname, -⟩ := exists_schema_of_load hload
  have hspelled : spelledType? identifier = some entity.typeName := spelledType?_of_load hload
  rw [hspelled] at htype
  obtain ⟨name, hparse, hsame⟩ := Option.map_eq_some_iff.mp htype
  -- Both names have one type name, from which each is read back.
  have hback := hfirst name hparse
  rw [hsame] at hback
  rw [hparse, ← hback]
  exact hstable entity.name hname

/-- A look-up in a cache is settled by the identifier alone. -/
theorem Holds.lookup_of_settled (h : Holds provider earlier cache)
    (hstable : ∀ i ∈ earlier ++ [identifier], Stable i) :
    (cache.lookup provider identifier).1 = Entity.load provider identifier := by
  obtain ⟨hearlier, hidentifier⟩ := List.forall_mem_append.mp hstable
  rw [(h.lookup identifier).1,
    load_firstSpelling hearlier (hidentifier identifier (List.mem_singleton_self identifier))]

/-- The entity of a faithful target has its name, its table and its key. -/
theorem asTarget_of_load {target : Catalog.Target} (h : target.Faithful provider)
    (hload : Entity.load provider target.name.typeName = .ok entity) :
    ⟨entity.name, entity.table, entity.primaryKey⟩ = target := by
  obtain ⟨schema, hschema, hname, hentity⟩ := exists_schema_of_load hload
  rw [h.parse?_typeName] at hname
  obtain heq := Option.some.inj hname
  rw [h.eq_of_schema? schema (by rw [heq]; exact hschema), heq, hentity]
  rfl

/-- What a cache holds was loaded under one of the identifiers that were looked up. -/
theorem Holds.exists_load (h : Holds provider earlier cache) {type : String}
    (hheld : cache.entries.lookup type = some entity) :
    ∃ i ∈ earlier, Entity.load provider i = .ok entity := by
  rw [h.lookup_eq] at hheld
  -- the entry was loaded for the first spelling of its type
  obtain ⟨first, hfirst, hload⟩ := Option.bind_eq_some_iff.mp hheld
  refine ⟨first, List.mem_of_find?_eq_some hfirst, ?_⟩
  cases hresult : Entity.load provider first with
  | error e => simp [hresult, Except.toOption] at hload
  | ok found => simpa [hresult, Except.toOption] using hload

/-- The entity that is found for a target of an entity in the cache has the name, the table and the
key of the target. -/
theorem Holds.lookup_target (h : Holds provider earlier cache) (hsettled : Settled provider earlier)
    {type : String} {owner : Entity} (howner : cache.entries.lookup type = some owner)
    {association : Catalog.Association} (hassociation : association ∈ owner.catalog.associations)
    {target : Catalog.Target} (htarget : target ∈ association.targets)
    (hfound : (cache.lookup provider target.name.typeName).1 = .ok entity) :
    entity.name = target.name ∧ entity.table = target.table ∧
      entity.primaryKey = target.primaryKey := by
  obtain ⟨i, hi, hload⟩ := h.exists_load howner
  have hfaithful := hsettled.faithful hi hload association hassociation target htarget
  -- The type name of a faithful target is read back, so the cache is still settled with it.
  have hstable : ∀ j ∈ earlier ++ [target.name.typeName], Stable j := by
    refine List.forall_mem_append.mpr ⟨fun j hj => hsettled.stable j (List.mem_append_left _ hj),
      List.forall_mem_singleton.mpr fun name hname => ?_⟩
    rw [hfaithful.parse?_typeName] at hname
    obtain rfl := Option.some.inj hname
    exact hfaithful.parse?_typeName
  rw [h.lookup_of_settled hstable] at hfound
  rw [← asTarget_of_load hfaithful hfound]
  exact ⟨rfl, rfl, rfl⟩

end EntityCache

end FieldQuery
