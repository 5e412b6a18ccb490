import FieldQuery.Proofs.Compile.Engine
import FieldQuery.Proofs.Compile.Hops
import FieldQuery.Proofs.Entity.Lookups

/-!
# Chains

An ordering goes down a chain: from a field to the entity that it leads to, from there by the field
that this entity is ordered by to the next one, and so on, in a circle if the defaults say so. The
chain is read off the catalogs and the entities that are found; how an ordering follows it is the
relation `Descends`, with one case for each way in which a level can go.
-/

namespace FieldQuery

open FieldQuery.Compilation FieldQuery.Compile FieldQuery.Schema FieldQuery.Sql

variable {provider : Provider} {σ : Type}

/-! ## Places -/

/-- A place on the way of an ordering: the entities held so far, and the entity and the field that
are ordered by. The type may be forced on the field, and the field of the target may be asked for. -/
structure Place where
  cache : EntityCache
  entity : Entity
  field : String
  type : Option FieldType := none
  sortField : Option String := none

namespace Place

/-- The place where an ordering begins. -/
def start (cache : EntityCache) (entity : Entity) (field : String) (options : OrderOptions) :
    Place :=
  ⟨cache, entity, field, options.type, options.sortField⟩

/-- The hop from a place, if its field leads to another entity. -/
def hop? (place : Place) : Option Hop :=
  place.entity.hop? place.field place.type

/-- The place after one hop: the entity of the target, if it is found, and the field that is asked
for or else its own default. -/
def next? (provider : Provider) (place : Place) : Option Place :=
  place.hop?.bind fun hop =>
    match place.cache.lookup provider hop.target.name.typeName with
    | (.ok found, cache) =>
      some { cache, entity := found, field := place.sortField.getD found.defaultSortField }
    | (.error _, _) => none

variable {cache : EntityCache} {entity : Entity} {field : String} {options : OrderOptions}

private theorem hop?_start :
    (start cache entity field options).hop? = entity.hop? field options.type := rfl

/-- From the start of an ordering the next place is where the ordering of the target starts, if
the target is found. -/
theorem next?_start {engine : Engine provider σ} {hop : Hop} {event : CompileEvent}
    {result : Except QueryError Entity} {s s' : σ}
    (hhop : entity.hop? field options.type = some hop)
    (hfound : engine.entity hop.target.name.typeName (engine.count event s) = (result, s')) :
    (start (engine.cache s) entity field options).next? provider =
      match result with
      | .ok found =>
        some (start (engine.cache s') found (options.sortField.getD found.defaultSortField)
          { limit := options.limit, reorder := true })
      | .error _ => none := by
  -- counting an event leaves the cache as it is, so the lookup starts from the same one
  have hlookup := engine.lookup_of_entity hfound
  rw [engine.cache_count] at hlookup
  rw [next?, hop?_start, hhop]
  simp only [Option.bind_some, start, hlookup]
  cases result <;> rfl

end Place

/-! ## Orderings down a chain -/

namespace Compile

/-- How an ordering with some levels left follows its chain from a place. -/
inductive Descends (engine : Engine provider σ) (settings : Settings) (limit : Option Nat) :
    Nat → Place → σ → Compilation (List Fragment) → Prop where
  /-- The chain ends, and there is a result at once. -/
  | stop {levels : Nat} {place : Place} {s : σ} (event : CompileEvent)
    {result : Except QueryError (List Fragment)} (hplace : place.hop? = none)
    (hresult : ∀ depth, result ≠ .error (.recursionLimit depth)) :
    Descends engine settings limit levels place s (.count event (Compilation.ofExcept result))
  /-- The chain goes on, but no level is left. -/
  | beyond {place : Place} {s : σ} (event : CompileEvent) (hplace : place.hop?.isSome) :
    Descends engine settings limit 0 place s
      (.count event (.fail (.recursionLimit settings.maxDepth)))
  /-- The next entity is not found. -/
  | missing {levels : Nat} {place : Place} {s s' : σ} {event : CompileEvent} {identifier : String}
    {next : Entity → Compilation (List Fragment)} {e : QueryError}
    (hnext : place.next? provider = none)
    (hfound : engine.entity identifier (engine.count event s) = (.error e, s'))
    (he : ∀ depth, e ≠ .recursionLimit depth) :
    Descends engine settings limit (levels + 1) place s
      (.count event (.lookup identifier next))
  /-- The next entity is found and ordered, and its rows are carried back. -/
  | follow {levels : Nat} {place next : Place} {s s' : σ} {event : CompileEvent}
    {identifier : String} {hop : Hop} {x : Entity → Compilation (List Fragment)}
    {carry : Entity → List Fragment → Compilation (List Fragment)}
    (hplace : place.hop? = some hop) (hnext : place.next? provider = some next)
    (hfound : engine.entity identifier (engine.count event s) = (.ok next.entity, s'))
    (hcarry : ∀ own, (carry next.entity own).Begins
      (Heads settings limit own (hop.rows next.entity)) (Limited settings) 3)
    (hx : Descends engine settings limit levels next s' (x next.entity)) :
    Descends engine settings limit (levels + 1) place s
      (.count event (.lookup identifier fun found => x found >>= carry found))

/-- Every ordering follows its chain, and keeps the limit of the request on the way. -/
theorem descends_orderClauses (engine : Engine provider σ) (settings : Settings) (levels : Nat)
    (entity : Entity) (field : String) (direction : Direction) (options : OrderOptions) (s : σ) :
    Descends engine settings options.limit levels (.start (engine.cache s) entity field options) s
      (orderClauses settings levels entity field direction options) := by
  -- Every target is ordered on one level less.
  induction levels generalizing entity field options s with
  | zero =>
    cases hhop : entity.hop? field options.type with
    | none =>
      obtain ⟨result, hresult, horder⟩ :=
        exists_orderClauses_of_hop?_eq_none settings direction hhop
      rw [horder]
      exact .stop _ (Place.hop?_start.trans hhop) hresult
    | some hop =>
      obtain ⟨carry, -, horder, -⟩ := exists_orderClauses_of_hop? settings direction hhop
      rw [horder]
      exact .beyond _ (Option.isSome_of_eq_some (Place.hop?_start.trans hhop))
  | succ levels ih =>
    cases hhop : entity.hop? field options.type with
    | none =>
      obtain ⟨result, hresult, horder⟩ :=
        exists_orderClauses_of_hop?_eq_none settings direction hhop
      rw [horder]
      exact .stop _ (Place.hop?_start.trans hhop) hresult
    | some hop =>
      obtain ⟨carry, hcarry, -, horder⟩ := exists_orderClauses_of_hop? settings direction hhop
      rw [horder]
      rcases hfound : engine.entity hop.target.name.typeName
        (engine.count (.order (entity.resolveWith field options.type).type) s) with ⟨e | found, s'⟩
      · have hlookup := engine.lookup_of_entity hfound
        exact .missing (Place.next?_start hhop hfound) hfound
          (EntityCache.ne_recursionLimit_of_lookup hlookup)
      · have htarget := ih found (options.sortField.getD found.defaultSortField)
          { limit := options.limit, reorder := true } s'
        exact .follow (Place.hop?_start.trans hhop) (Place.next?_start hhop hfound) hfound
          (hcarry.begins found) htarget

end Compile

end FieldQuery
