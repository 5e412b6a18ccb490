import FieldQuery.Entity.Cache
import Mathlib.Data.List.Dedup
import Mathlib.Data.List.Perm.Basic

/-!
# Series of look-ups

Identifiers are looked up one after another on one cache. An entity is kept under its canonical type
name, in the form in which it was spelled first. So every answer is the one that a fresh cache gives
to the first of the identifiers that names the same type. Whether a look-up fails, the type name and
the schema do not depend on the identifiers before. The forms of the name, and with them the table
and the catalog, are those of the first spelling, which need not be those of the identifier itself:
`post_1_2` and `post_12` both name the type `Post12`.
-/

namespace FieldQuery

open FieldQuery.Naming FieldQuery.Schema

variable {provider : Provider} {identifier : String}

/-! ## Spellings of a type -/

namespace EntityCache

/-- The canonical type name that an identifier spells, if it is a name at all. -/
def spelledType? (identifier : String) : Option String :=
  (EntityName.parse? identifier).map (·.typeName)

/-- The first of some identifiers that spells a type. -/
def spelling? (identifiers : List String) (type : String) : Option String :=
  identifiers.find? fun earlier => spelledType? earlier == some type

/-- The first of some identifiers that spells the same type as a given one; that one itself if there
is none. -/
def firstSpelling (identifiers : List String) (identifier : String) : String :=
  ((spelledType? identifier).bind (spelling? identifiers)).getD identifier

private theorem spelledType?_of_spelling? {identifiers : List String} {type first : String}
    (h : spelling? identifiers type = some first) : spelledType? first = some type := by
  have hfirst := List.find?_some h
  exact eq_of_beq hfirst

/-- The first spelling of an identifier is of its type. -/
theorem spelledType?_firstSpelling (identifiers : List String) (identifier : String) :
    spelledType? (firstSpelling identifiers identifier) = spelledType? identifier := by
  unfold firstSpelling
  -- the first spelling is one of the type, or the identifier itself
  cases htype : spelledType? identifier with
  | none => simpa using htype
  | some type =>
    cases hfirst : spelling? identifiers type with
    | none => simpa [hfirst] using htype
    | some first => simpa [hfirst] using spelledType?_of_spelling? hfirst

private theorem spelling?_append (identifiers rest : List String) (type : String) :
    spelling? (identifiers ++ rest) type =
      (spelling? identifiers type).or (spelling? rest type) :=
  List.find?_append

private theorem spelling?_cons (rest : List String) (type : String) :
    spelling? (identifier :: rest) type =
      if spelledType? identifier = some type then some identifier else spelling? rest type := by
  unfold spelling?
  rw [List.find?_cons]
  by_cases h : spelledType? identifier = some type
  · simp [h]
  · have hbeq : (spelledType? identifier == some type) = false := beq_eq_false_iff_ne.mpr h
    simp [h, hbeq]

/-- With no identifier before it, an identifier is spelled as it is. -/
@[simp]
theorem firstSpelling_nil (identifier : String) : firstSpelling [] identifier = identifier := by
  unfold firstSpelling
  cases spelledType? identifier <;> rfl

/-- From its own place on, an identifier does not change its first spelling. -/
theorem firstSpelling_append_cons (earlier rest : List String) (identifier : String) :
    firstSpelling (earlier ++ identifier :: rest) identifier = firstSpelling earlier identifier := by
  unfold firstSpelling
  cases htype : spelledType? identifier with
  | none => rfl
  | some type =>
    simp only [Option.bind_some, spelling?_append, spelling?_cons, htype, if_true]
    cases spelling? earlier type <;> rfl

end EntityCache

/-! ## Loading by the spelled type -/

namespace Entity

private theorem load_of_parse?_eq_none (h : EntityName.parse? identifier = none) :
    Entity.load provider identifier = .error (.invalidIdentifier identifier) := by
  simp [Entity.load, EntityName.parse, h, bind, Except.bind]

/-- What is loaded for a name depends on the schema of its type. -/
theorem load_of_parse?_eq_some {name : EntityName} (h : EntityName.parse? identifier = some name) :
    Entity.load provider identifier =
      match provider.schema? name.typeName with
      | some schema => .ok (ofSchema provider name schema)
      | none => .error (.unknownEntity name.typeName) := by
  simp only [Entity.load, EntityName.parse, h, bind, Except.bind]
  cases provider.schema? name.typeName <;> rfl

/-- What is found under a type without a schema does not depend on the spelling. -/
theorem load_of_schema?_eq_none {type : String}
    (htype : EntityCache.spelledType? identifier = some type)
    (hschema : provider.schema? type = none) :
    Entity.load provider identifier = .error (.unknownEntity type) := by
  obtain ⟨name, hname, rfl⟩ := Option.map_eq_some_iff.mp htype
  rw [load_of_parse?_eq_some hname, hschema]

private theorem exists_load_of_schema?_eq_some {type : String} {schema : EntitySchema}
    (htype : EntityCache.spelledType? identifier = some type)
    (hschema : provider.schema? type = some schema) :
    ∃ name, EntityName.parse? identifier = some name ∧ name.typeName = type ∧
      Entity.load provider identifier = .ok (ofSchema provider name schema) := by
  obtain ⟨name, hname, rfl⟩ := Option.map_eq_some_iff.mp htype
  refine ⟨name, hname, rfl, ?_⟩
  rw [load_of_parse?_eq_some hname, hschema]

end Entity

namespace EntityCache

/-! ## One look-up -/

section

variable {cache : EntityCache}

/-- A look-up of what is no name fails and changes nothing. -/
theorem lookup_of_invalid (hname : EntityName.parse? identifier = none) :
    cache.lookup provider identifier = (.error (.invalidIdentifier identifier), cache) := by
  simp [EntityCache.lookup, EntityName.parse, hname]

/-- A look-up gives what is held under the type, whatever the spelling. -/
theorem lookup_of_held {name : EntityName} {entity : Entity}
    (hname : EntityName.parse? identifier = some name)
    (hheld : cache.entries.lookup name.typeName = some entity) :
    cache.lookup provider identifier = (.ok entity, cache) := by
  simp [EntityCache.lookup, EntityName.parse, hname, hheld]

/-- A look-up of a type without a schema fails and changes nothing. -/
theorem lookup_of_unknown {name : EntityName} (hname : EntityName.parse? identifier = some name)
    (hheld : cache.entries.lookup name.typeName = none)
    (hschema : provider.schema? name.typeName = none) :
    cache.lookup provider identifier = (.error (.unknownEntity name.typeName), cache) := by
  simp [EntityCache.lookup, EntityName.parse, hname, hheld, hschema]

/-- A look-up of a type that is not held loads the entity of this spelling and keeps it. -/
theorem lookup_of_new {name : EntityName} {schema : EntitySchema}
    (hname : EntityName.parse? identifier = some name)
    (hheld : cache.entries.lookup name.typeName = none)
    (hschema : provider.schema? name.typeName = some schema) :
    cache.lookup provider identifier = (.ok (.ofSchema provider name schema),
      ⟨(name.typeName, .ofSchema provider name schema) :: cache.entries⟩) := by
  simp [EntityCache.lookup, EntityName.parse, hname, hheld, hschema]

/-- A new entry is not found under another key. -/
theorem lookup_cons_of_ne {type new : String} {entity : Entity}
    {entries : List (String × Entity)} (h : type ≠ new) :
    List.lookup type ((new, entity) :: entries) = entries.lookup type := by
  have hbeq : (type == new) = false := beq_eq_false_iff_ne.mpr h
  rw [List.lookup_cons, hbeq]

end

/-- What a look-up does: it fails for what is no name, gives what is held under the type name, fails
if there is nothing and no schema either, and loads and keeps the entity otherwise. -/
theorem lookup_cases (provider : Provider) (identifier : String) (cache : EntityCache) :
    (EntityName.parse? identifier = none ∧
      cache.lookup provider identifier = (.error (.invalidIdentifier identifier), cache)) ∨
    ∃ name, EntityName.parse? identifier = some name ∧
      ((∃ entity, cache.entries.lookup name.typeName = some entity ∧
          cache.lookup provider identifier = (.ok entity, cache)) ∨
        (cache.entries.lookup name.typeName = none ∧ provider.schema? name.typeName = none ∧
          cache.lookup provider identifier = (.error (.unknownEntity name.typeName), cache)) ∨
        ∃ schema, cache.entries.lookup name.typeName = none ∧
          provider.schema? name.typeName = some schema ∧
          cache.lookup provider identifier = (.ok (.ofSchema provider name schema),
            ⟨(name.typeName, .ofSchema provider name schema) :: cache.entries⟩)) := by
  -- in the order of the lookup: the name, the entry held for its type, the schema
  cases hname : EntityName.parse? identifier with
  | none => exact Or.inl ⟨rfl, lookup_of_invalid hname⟩
  | some name =>
    refine Or.inr ⟨name, rfl, ?_⟩
    cases hheld : cache.entries.lookup name.typeName with
    | some entity => exact Or.inl ⟨entity, rfl, lookup_of_held hname hheld⟩
    | none =>
      cases hschema : provider.schema? name.typeName with
      | none => exact Or.inr (Or.inl ⟨rfl, rfl, lookup_of_unknown hname hheld hschema⟩)
      | some schema =>
        exact Or.inr (Or.inr ⟨schema, rfl, rfl, lookup_of_new hname hheld hschema⟩)

/-- A look-up fails for a name or for a schema only. -/
theorem error_of_lookup {cache next : EntityCache} {e : QueryError}
    (h : cache.lookup provider identifier = (.error e, next)) :
    e = .invalidIdentifier identifier ∨ ∃ type, e = .unknownEntity type := by
  -- of the four ways a lookup goes, two are failures
  rcases lookup_cases provider identifier cache with ⟨-, h'⟩ | ⟨name, -, ⟨entity, -, h'⟩ |
    ⟨-, -, h'⟩ | ⟨schema, -, -, h'⟩⟩
  all_goals
    rw [h'] at h
    cases h
  · exact Or.inl rfl
  · exact Or.inr ⟨_, rfl⟩

/-- A look-up does not fail for the depth of the recursion. -/
theorem ne_recursionLimit_of_lookup {cache next : EntityCache} {e : QueryError}
    (h : cache.lookup provider identifier = (.error e, next)) (depth : Nat) :
    e ≠ .recursionLimit depth := by
  rcases error_of_lookup h with rfl | ⟨type, rfl⟩ <;> simp

/-- What a cache holds after some look-ups: under every type name the entity of its first spelling,
if the type has a schema. -/
structure Holds (provider : Provider) (earlier : List String) (cache : EntityCache) : Prop where
  lookup_eq : ∀ type, cache.entries.lookup type =
    (spelling? earlier type).bind fun first => (Entity.load provider first).toOption
  nodup : (cache.entries.map Prod.fst).Nodup

/-- A fresh cache holds what follows no look-up at all. -/
theorem holds_empty (provider : Provider) : Holds provider [] {} where
  lookup_eq _ := rfl
  nodup := List.nodup_nil

variable {earlier : List String} {cache : EntityCache}

/-- Nothing is held under a type without a schema, nor under one that was not spelled yet. -/
theorem Holds.lookup_eq_none (h : Holds provider earlier cache) {type : String}
    (htype : cache.entries.lookup type = none) :
    provider.schema? type = none ∨ spelling? earlier type = none := by
  rw [h.lookup_eq] at htype
  cases hfirst : spelling? earlier type with
  | none => exact Or.inr rfl
  | some first =>
    -- a spelling was looked up before, so had there been a schema the entity would be held
    left
    cases hschema : provider.schema? type with
    | none => rfl
    | some schema =>
      obtain ⟨name, -, -, hload⟩ :=
        Entity.exists_load_of_schema?_eq_some (spelledType?_of_spelling? hfirst) hschema
      simp [hfirst, hload, Except.toOption] at htype

/-- A look-up that finds or changes nothing new keeps what is held. -/
theorem Holds.append (h : Holds provider earlier cache)
    (hsame : ∀ type, spelledType? identifier = some type → spelling? earlier type = none →
      (Entity.load provider identifier).toOption = none) :
    Holds provider (earlier ++ [identifier]) cache where
  lookup_eq type := by
    rw [h.lookup_eq, spelling?_append, spelling?_cons]
    -- the first spelling of a type decides, and the new identifier is the first only where it loads
    -- nothing
    cases hfirst : spelling? earlier type with
    | some first => rfl
    | none =>
      by_cases htype : spelledType? identifier = some type
      · simp [htype, hsame type htype hfirst]
      · simp [htype, spelling?]
  nodup := h.nodup

/-- An answer is what a fresh cache gives to the first spelling, and the cache after it holds also
what was looked up. -/
theorem Holds.lookup (h : Holds provider earlier cache) (identifier : String) :
    (cache.lookup provider identifier).1 =
        Entity.load provider (firstSpelling earlier identifier) ∧
      Holds provider (earlier ++ [identifier]) (cache.lookup provider identifier).2 := by
  rcases lookup_cases provider identifier cache with ⟨hname, hlookup⟩ | ⟨name, hname, hcases⟩
  · have htype : spelledType? identifier = none := by simp [spelledType?, hname]
    rw [hlookup]
    refine ⟨?_, h.append fun type hspelled => ?_⟩
    · simp [firstSpelling, htype, Entity.load_of_parse?_eq_none hname]
    · simp [htype] at hspelled
  have htype : spelledType? identifier = some name.typeName := by simp [spelledType?, hname]
  have hfirst : firstSpelling earlier identifier =
      (spelling? earlier name.typeName).getD identifier := by
    simp [firstSpelling, htype]
  rcases hcases with ⟨entity, hheld, hlookup⟩ | ⟨hheld, hschema, hlookup⟩ |
    ⟨schema, hheld, hschema, hlookup⟩
  · -- The entity is the one of the first spelling.
    rw [h.lookup_eq] at hheld
    obtain ⟨first, hspelling, hload⟩ := Option.bind_eq_some_iff.mp hheld
    rw [hlookup, hfirst, hspelling]
    refine ⟨?_, h.append fun type hspelled hnone => ?_⟩
    · cases hresult : Entity.load provider first with
      | ok found => simpa [hresult, Except.toOption, eq_comm] using hload
      | error e => simp [hresult, Except.toOption] at hload
    · obtain rfl := Option.some.inj (htype.symm.trans hspelled)
      rw [hspelling] at hnone
      cases hnone
  · -- Without a schema all spellings fail alike.
    have hspelled : spelledType? (firstSpelling earlier identifier) = some name.typeName :=
      (spelledType?_firstSpelling earlier identifier).trans htype
    rw [hlookup]
    refine ⟨(Entity.load_of_schema?_eq_none hspelled hschema).symm, h.append fun _ _ _ => ?_⟩
    rw [Entity.load_of_schema?_eq_none htype hschema]
    rfl
  · -- The type has a schema and is not held, so it is spelled for the first time.
    have hload : Entity.load provider identifier = .ok (.ofSchema provider name schema) := by
      rw [Entity.load_of_parse?_eq_some hname, hschema]
    have hnew : spelling? earlier name.typeName = none := by
      rcases h.lookup_eq_none hheld with hnone | hnone
      · rw [hschema] at hnone
        cases hnone
      · exact hnone
    rw [hlookup, hfirst, hnew]
    refine ⟨hload.symm, fun type => ?_, ?_⟩
    · rw [spelling?_append, spelling?_cons, htype]
      by_cases hequal : type = name.typeName
      · subst hequal
        simp [hnew, hload, Except.toOption]
      · have hunequal : ¬ name.typeName = type := fun heq => hequal heq.symm
        rw [lookup_cons_of_ne hequal]
        simp [hunequal, h.lookup_eq, spelling?]
    · refine List.nodup_cons.mpr ⟨fun hmem => ?_, h.nodup⟩
      obtain ⟨⟨type, entity⟩, hentry, heq⟩ := List.mem_map.mp hmem
      have hall := List.lookup_eq_none_iff.mp hheld (type, entity) hentry
      simp at heq
      simp [heq] at hall

/-! ## A whole series -/

/-- The answers to look-ups made one after another on a cache, and the cache after them. -/
def lookupAll (provider : Provider) :
    List String → EntityCache → List (Except QueryError Entity) × EntityCache
  | [], cache => ([], cache)
  | identifier :: rest, cache =>
    let (answer, next) := cache.lookup provider identifier
    let (answers, last) := lookupAll provider rest next
    (answer :: answers, last)

/-- The answers of a series are those of the first spellings, and the cache after it holds all that
was looked up. -/
theorem Holds.lookupAll (h : Holds provider earlier cache) (identifiers : List String) :
    (lookupAll provider identifiers cache).1 = identifiers.map (fun identifier =>
        Entity.load provider (firstSpelling (earlier ++ identifiers) identifier)) ∧
      Holds provider (earlier ++ identifiers)
        (EntityCache.lookupAll provider identifiers cache).2 := by
  -- induction on the identifiers: each lookup leaves a cache that holds it as well
  induction identifiers generalizing earlier cache with
  | nil =>
    rw [List.append_nil]
    exact ⟨rfl, h⟩
  | cons identifier rest ih =>
    obtain ⟨hanswer, hnext⟩ := h.lookup identifier
    obtain ⟨hanswers, hlast⟩ := ih hnext
    rw [List.append_assoc, List.singleton_append] at hanswers hlast
    simp only [EntityCache.lookupAll, List.map_cons, List.cons.injEq]
    refine ⟨⟨?_, hanswers⟩, hlast⟩
    rw [hanswer, firstSpelling_append_cons]

/-- A fresh cache loads what it is asked for. -/
theorem lookup_empty (provider : Provider) (identifier : String) :
    (EntityCache.lookup provider identifier {}).1 = Entity.load provider identifier :=
  ((holds_empty provider).lookup identifier).1.trans (by rw [firstSpelling_nil])

/-! ## What the first spelling decides -/

/-- An entity that is loaded is that of the schema of its type, under the name that was parsed. -/
theorem exists_schema_of_load {entity : Entity} (h : Entity.load provider identifier = .ok entity) :
    ∃ schema, provider.schema? entity.typeName = some schema ∧
      EntityName.parse? identifier = some entity.name ∧
      entity = .ofSchema provider entity.name schema := by
  cases hname : EntityName.parse? identifier with
  | none =>
    rw [Entity.load_of_parse?_eq_none hname] at h
    cases h
  | some name =>
    rw [Entity.load_of_parse?_eq_some hname] at h
    cases hschema : provider.schema? name.typeName with
    | none => simp [hschema] at h
    | some schema =>
      simp only [hschema, Except.ok.injEq] at h
      subst h
      exact ⟨schema, hschema, rfl, rfl⟩

/-- An entity that is loaded is of the type that was spelled. -/
theorem spelledType?_of_load {entity : Entity} (h : Entity.load provider identifier = .ok entity) :
    spelledType? identifier = some entity.typeName := by
  obtain ⟨-, -, hname, -⟩ := exists_schema_of_load h
  exact congrArg (Option.map (·.typeName)) hname

/-- Two spellings of one type load two entities of one type name and one schema, or fail alike. -/
theorem load_congr (provider : Provider) {other : String} (h : spelledType? other = spelledType? identifier)
    (hname : EntityName.parse? other = none → other = identifier) :
    (Entity.load provider other).map (fun e => (e.typeName, e.schema)) =
      (Entity.load provider identifier).map fun e => (e.typeName, e.schema) := by
  -- without a type the two identifiers are one; with one, the schema alone decides
  cases htype : spelledType? identifier with
  | none =>
    rw [htype] at h
    rw [hname (Option.map_eq_none_iff.mp h)]
  | some type =>
    rw [htype] at h
    cases hschema : provider.schema? type with
    | none =>
      rw [Entity.load_of_schema?_eq_none h hschema, Entity.load_of_schema?_eq_none htype hschema]
    | some schema =>
      -- both names carry the type they share, and nothing more of them is compared
      obtain ⟨name, -, hsame, hload⟩ := Entity.exists_load_of_schema?_eq_some h hschema
      obtain ⟨name', -, hsame', hload'⟩ := Entity.exists_load_of_schema?_eq_some htype hschema
      rw [hload, hload']
      simp [Except.map, Entity.typeName, Entity.ofSchema, hsame, hsame']

/-- Two spellings of one type load the same entity exactly if they spell the same name. -/
theorem load_eq_iff {other : String} (h : spelledType? other = spelledType? identifier)
    (hname : EntityName.parse? other = none → other = identifier) :
    Entity.load provider other = Entity.load provider identifier ↔
      ∀ entity, Entity.load provider identifier = .ok entity →
        EntityName.parse? other = some entity.name := by
  constructor
  · intro heq entity hload
    obtain ⟨-, -, hspelled, -⟩ := exists_schema_of_load (heq.trans hload)
    exact hspelled
  · intro hsame
    cases hload : Entity.load provider identifier with
    | ok entity =>
      obtain ⟨schema, hschema, -, hentity⟩ := exists_schema_of_load hload
      rw [Entity.load_of_parse?_eq_some (hsame entity hload)]
      simp only [show provider.schema? entity.name.typeName = some schema from hschema]
      exact congrArg Except.ok hentity.symm
    -- a failure names the type or the identifier, and both are the same here
    | error e =>
      have hmap := load_congr provider h hname
      rw [hload] at hmap
      cases hother : Entity.load provider other with
      | ok entity => simp [hother, Except.map] at hmap
      | error e' => simpa [hother, Except.map] using hmap

/-- What is no name has no other spelling. -/
theorem firstSpelling_of_parse?_eq_none {identifiers : List String}
    (h : EntityName.parse? (firstSpelling identifiers identifier) = none) :
    firstSpelling identifiers identifier = identifier := by
  have htype : spelledType? identifier = none := by
    rw [← spelledType?_firstSpelling identifiers, spelledType?, h]
    rfl
  simp [firstSpelling, htype]

/-! ## The entities of a cache -/

/-- The types of a cache are those of the entities that the look-ups gave. -/
theorem Holds.mem_types (h : Holds provider earlier cache) {type : String} :
    type ∈ cache.entries.map Prod.fst ↔
      ∃ i ∈ earlier, ∃ entity, Entity.load provider (firstSpelling earlier i) = .ok entity ∧
        entity.typeName = type := by
  have hmem : type ∈ cache.entries.map Prod.fst ↔ cache.entries.lookup type ≠ none := by
    rw [Ne, List.lookup_eq_none_iff, List.mem_map]
    constructor
    · rintro ⟨entry, hentry, rfl⟩ hnone
      simpa using hnone entry hentry
    · intro hsome
      by_contra hnone
      exact hsome fun entry hentry => by
        simpa using fun heq : type = entry.1 => hnone ⟨entry, hentry, heq.symm⟩
  rw [hmem, h.lookup_eq]
  constructor
  · intro hne
    obtain ⟨entity, hentity⟩ := Option.ne_none_iff_exists'.mp hne
    obtain ⟨first, hfirst, hload⟩ := Option.bind_eq_some_iff.mp hentity
    have htype := spelledType?_of_spelling? hfirst
    have hsame : firstSpelling earlier first = first := by simp [firstSpelling, htype, hfirst]
    cases hresult : Entity.load provider first with
    | error e => simp [hresult, Except.toOption] at hload
    | ok found =>
      refine ⟨first, List.mem_of_find?_eq_some hfirst, found, by rw [hsame, hresult], ?_⟩
      exact Option.some.inj ((spelledType?_of_load hresult).symm.trans htype)
  · rintro ⟨i, hi, entity, hload, rfl⟩
    have htype := spelledType?_of_load hload
    rw [spelledType?_firstSpelling] at htype
    -- The identifier itself spells the type, so some first one does.
    cases hfirst : spelling? earlier entity.typeName with
    | none =>
      have hnone := List.find?_eq_none.mp hfirst i hi
      simp [htype] at hnone
    | some first =>
      have hsame : firstSpelling earlier i = first := by simp [firstSpelling, htype, hfirst]
      rw [hsame] at hload
      simp [hload, Except.toOption]

/-- Every answer of a series of look-ups on a fresh cache is the one that a fresh cache gives to the
first identifier of the series that spells the same type. So it fails, and names its type and its
schema, as a fresh cache does for the identifier alone, and it is the same altogether exactly if the
first spelling is one of the same name. A failed look-up adds nothing to a cache, and after the
series there is one entity for every type among the answers. -/
theorem lookupAll_answers (provider : Provider) (identifiers : List String) :
    let fresh (identifier : String) := (EntityCache.lookup provider identifier {}).1
    let first := firstSpelling identifiers
    let result := EntityCache.lookupAll provider identifiers {}
    result.1 = identifiers.map (fun i => fresh (first i)) ∧
      (∀ i, (fresh (first i)).map (fun e => (e.typeName, e.schema)) =
        (fresh i).map fun e => (e.typeName, e.schema)) ∧
      (∀ i, fresh (first i) = fresh i ↔
        ∀ entity, fresh i = .ok entity → EntityName.parse? (first i) = some entity.name) ∧
      (∀ (cache : EntityCache) i e, (cache.lookup provider i).1 = .error e →
        (cache.lookup provider i).2 = cache) ∧
      result.2.size = ((result.1.filterMap Except.toOption).map Entity.typeName).dedup.length := by
  intro fresh first result
  have hfresh : fresh = Entity.load provider := funext (lookup_empty provider)
  obtain ⟨hanswers, hholds⟩ := (holds_empty provider).lookupAll identifiers
  rw [List.nil_append] at hanswers hholds
  refine ⟨?_, fun i => ?_, fun i => ?_, ?_, ?_⟩
  · rw [hfresh]
    exact hanswers
  · rw [hfresh]
    exact load_congr provider (spelledType?_firstSpelling identifiers i) firstSpelling_of_parse?_eq_none
  · rw [hfresh]
    exact load_eq_iff (spelledType?_firstSpelling identifiers i) firstSpelling_of_parse?_eq_none
  · intro cache i e he
    rcases lookup_cases provider i cache with ⟨-, h⟩ | ⟨name, -, ⟨entity, -, h⟩ | ⟨-, -, h⟩ |
      ⟨schema, -, -, h⟩⟩
    · rw [h]
    · rw [h]
    · rw [h]
    · rw [h] at he
      cases he
  · -- Both are lists of the same types, each of them once.
    have hperm : (result.2.entries.map Prod.fst).Perm
        ((result.1.filterMap Except.toOption).map Entity.typeName).dedup := by
      refine (List.perm_ext_iff_of_nodup hholds.nodup (List.nodup_dedup _)).mpr fun type => ?_
      rw [hholds.mem_types, List.mem_dedup, hanswers]
      simp only [List.mem_map, List.mem_filterMap]
      constructor
      · rintro ⟨i, hi, entity, hload, rfl⟩
        exact ⟨entity, ⟨_, ⟨i, hi, rfl⟩, by rw [hload]; rfl⟩, rfl⟩
      · rintro ⟨entity, ⟨_, ⟨i, hi, rfl⟩, hload⟩, rfl⟩
        refine ⟨i, hi, entity, ?_, rfl⟩
        cases hresult : Entity.load provider (firstSpelling identifiers i) with
        | error e => simp [hresult, Except.toOption] at hload
        | ok found => simpa [hresult, Except.toOption] using hload
    calc result.2.size = (result.2.entries.map Prod.fst).length := (List.length_map _).symm
      _ = _ := hperm.length_eq

/-! ## Two names of one type -/

/-- The schema of a type whose name ends in a number. -/
def numbered : Provider :=
  (Registry.ofList [{ typeName := "Post12" }]).provider fun _ _ => none

/-- A fresh cache finds the table `post_12s` under `post_12`, but after a look-up of `post_1_2` the
table `post_1_2s` is found under it. -/
theorem lookupAll_depends_on_first_spelling :
    (EntityCache.lookupAll numbered ["post_1_2", "post_12"] {}).1 ≠
      ["post_1_2", "post_12"].map fun identifier =>
        (EntityCache.lookup numbered identifier {}).1 := by
  intro heq
  have htables := congrArg (List.map fun answer => answer.toOption.map Entity.table) heq
  revert htables
  decide +kernel

end EntityCache

end FieldQuery
