import FieldQuery.Proofs.Compile.Engine
import FieldQuery.Proofs.Entity.Lookups

/-!
# Running again

An engine forgets nothing: what it has found once it finds again. So a compilation that is run again
later has the same result and the same plucks, if the answers of the executor depend on nothing but
the question. The same holds from two states that find the same entities for all names of a run, as
long as those of these names that are of one type are forms of one name.
-/

namespace FieldQuery

open FieldQuery.Compilation FieldQuery.Naming FieldQuery.Schema FieldQuery.Sql

variable {provider : Provider} {identifier other : String} {cache later : EntityCache}

/-! ## What a look-up leaves behind -/

namespace EntityCache

/-- What was looked up once is found again, and nothing changes any more. -/
theorem lookup_again {answer : Except QueryError Entity}
    (h : cache.lookup provider identifier = (answer, later)) :
    later.lookup provider identifier = (answer, later) := by
  rcases lookup_cases provider identifier cache with ⟨hname, h'⟩ | ⟨name, hname,
    ⟨entity, hheld, h'⟩ | ⟨hheld, hschema, h'⟩ | ⟨schema, hheld, hschema, h'⟩⟩
  · -- three of the four answers leave the cache as it is, and the fourth puts the entity in front
    obtain ⟨rfl, rfl⟩ := Prod.mk.inj (h.symm.trans h')
    exact h'
  · obtain ⟨rfl, rfl⟩ := Prod.mk.inj (h.symm.trans h')
    exact h'
  · obtain ⟨rfl, rfl⟩ := Prod.mk.inj (h.symm.trans h')
    exact h'
  · obtain ⟨rfl, rfl⟩ := Prod.mk.inj (h.symm.trans h')
    exact lookup_of_held hname List.lookup_cons_self

/-- A later cache gives the answers that an earlier one has settled. -/
def Keeps (provider : Provider) (earlier later : EntityCache) : Prop :=
  ∀ identifier answer, earlier.lookup provider identifier = (answer, earlier) →
    later.lookup provider identifier = (answer, later)

/-- A cache keeps its own answers. -/
theorem Keeps.refl (cache : EntityCache) : Keeps provider cache cache :=
  fun _ _ h => h

/-- What a later cache keeps, one after it keeps. -/
theorem Keeps.trans {last : EntityCache} (h : Keeps provider cache later)
    (h' : Keeps provider later last) : Keeps provider cache last :=
  fun identifier answer hanswer => h' identifier answer (h identifier answer hanswer)

/-- A look-up keeps the answers that are settled. -/
theorem keeps_lookup (provider : Provider) (cache : EntityCache) (other : String) :
    Keeps provider cache (cache.lookup provider other).2 := by
  rcases lookup_cases provider other cache with ⟨-, h⟩ | ⟨new, -, ⟨_, -, h⟩ | ⟨-, -, h⟩ |
    ⟨schema, hfree, hnew, h⟩⟩
  · rw [h]
    exact .refl cache
  · rw [h]
    exact .refl cache
  · rw [h]
    exact .refl cache
  -- One entity more, of a type that was not held but has a schema.
  rw [h]
  intro identifier answer hanswer
  rcases lookup_cases provider identifier cache with ⟨hname, h'⟩ | ⟨name, hname,
    ⟨entity, hheld, h'⟩ | ⟨hheld, hschema, h'⟩ | ⟨schema', -, -, h'⟩⟩
  · obtain ⟨rfl, -⟩ := Prod.mk.inj (hanswer.symm.trans h')
    exact lookup_of_invalid hname
  · obtain ⟨rfl, -⟩ := Prod.mk.inj (hanswer.symm.trans h')
    have hne : name.typeName ≠ new.typeName := by
      intro heq
      rw [heq, hfree] at hheld
      cases hheld
    exact lookup_of_held hname ((lookup_cons_of_ne hne).trans hheld)
  · obtain ⟨rfl, -⟩ := Prod.mk.inj (hanswer.symm.trans h')
    have hne : name.typeName ≠ new.typeName := by
      intro heq
      rw [heq, hnew] at hschema
      cases hschema
    exact lookup_of_unknown hname ((lookup_cons_of_ne hne).trans hheld) hschema
  · -- This look-up would have changed the cache.
    have hsize := congrArg (fun result => result.2.entries.length) (hanswer.symm.trans h')
    simp at hsize

/-! ## Names of different types -/

/-- A look-up does not touch what is found for another type. -/
theorem lookup_fst_of_ne
    (h : ∀ type, spelledType? identifier = some type → spelledType? other ≠ some type) :
    ((cache.lookup provider other).2.lookup provider identifier).1 =
      (cache.lookup provider identifier).1 := by
  rcases lookup_cases provider other cache with ⟨-, h'⟩ | ⟨new, hnew, ⟨_, -, h'⟩ | ⟨-, -, h'⟩ |
    ⟨schema, -, -, h'⟩⟩
  · rw [h']
  · rw [h']
  · rw [h']
  -- One entity more, under a key that the look-up of the identifier does not read.
  rw [h']
  cases hname : EntityName.parse? identifier with
  | none => rw [lookup_of_invalid hname, lookup_of_invalid hname]
  | some name =>
    have hne : name.typeName ≠ new.typeName := by
      intro heq
      refine h name.typeName ?_ ?_
      · rw [spelledType?, hname]
        rfl
      · rw [spelledType?, hnew, heq]
        rfl
    simp only [EntityCache.lookup, EntityName.parse, hname, lookup_cons_of_ne hne]
    cases cache.entries.lookup name.typeName with
    | some entity => rfl
    | none => cases provider.schema? name.typeName <;> rfl

/-- Names of one type are forms of one name. -/
def SpelledAlike (names : List String) : Prop :=
  ∀ i ∈ names, ∀ j ∈ names, ∀ name name', EntityName.parse? i = some name →
    EntityName.parse? j = some name' → name.typeName = name'.typeName → name = name'

/-- A look-up sees nothing of an identifier but its name. -/
theorem lookup_congr {name : EntityName} (h : EntityName.parse? identifier = some name)
    (h' : EntityName.parse? other = some name) :
    cache.lookup provider identifier = cache.lookup provider other := by
  simp only [EntityCache.lookup, EntityName.parse, h, h']

/-- Two caches that give the same answer for each of the names. -/
def Agree (provider : Provider) (names : List String) (cache later : EntityCache) : Prop :=
  ∀ i ∈ names, (cache.lookup provider i).1 = (later.lookup provider i).1

variable {names : List String}

/-- A look-up of one of the names does not change the answers for any of them. -/
theorem agree_lookup (provider : Provider) (cache : EntityCache) (hnames : SpelledAlike names)
    (hother : other ∈ names) :
    Agree provider names cache (cache.lookup provider other).2 := by
  intro i hi
  by_cases hsame : ∃ type, spelledType? i = some type ∧ spelledType? other = some type
  · -- The two are forms of one name, which is found again.
    obtain ⟨type, htype, htype'⟩ := hsame
    obtain ⟨name, hname, rfl⟩ := Option.map_eq_some_iff.mp htype
    obtain ⟨name', hname', heq⟩ := Option.map_eq_some_iff.mp htype'
    obtain rfl := hnames i hi other hother name name' hname hname' heq.symm
    rw [lookup_congr hname hname', lookup_congr hname hname']
    exact (congrArg Prod.fst (lookup_again rfl)).symm
  · refine (lookup_fst_of_ne fun type htype htype' => ?_).symm
    exact hsame ⟨type, htype, htype'⟩

end EntityCache

/-! ## Runs on an engine -/

variable {σ α β : Type} {engine : Engine provider σ}

/-- A run keeps what the cache has settled. -/
theorem Engine.keeps_run (engine : Engine provider σ) (x : Compilation α) (s : σ) :
    EntityCache.Keeps provider (engine.cache s) (engine.cache (x.run engine.toBackend s).2) := by
  -- induction on the computation: lookups keep what is held, and the other steps leave it alone
  induction x generalizing s with
  | done a => exact .refl _
  | fail e => exact .refl _
  | lookup i next ih =>
    simp only [run]
    rcases hfound : engine.entity i s with ⟨e | entity, s'⟩
    all_goals
      have hkeeps := EntityCache.keeps_lookup provider (engine.cache s) i
      rw [engine.lookup_of_entity hfound] at hkeeps
    · exact hkeeps
    · exact hkeeps.trans (ih entity s')
  | pluck r c next ih =>
    simp only [run]
    rcases hplucked : engine.pluck r c s with ⟨e | answer, s'⟩
    all_goals
      have hcache := engine.cache_pluck r c s
      rw [hplucked] at hcache
      rw [← hcache]
    · exact .refl _
    · exact ih _ s'
  | count event next ih =>
    simp only [run]
    rw [← engine.cache_count event s]
    exact ih _

variable {answers : Relation → String → Except StorageError (List (Option Key))}

/-- The executor gives one answer to one question. -/
theorem Engine.pluck_congr (hanswers : ∀ r c s, (engine.pluck r c s).1 = answers r c)
    {r : Relation} {c : String} {answer : Except StorageError (List (Option Key))} {s s' : σ}
    (h : engine.pluck r c s = (answer, s')) (t : σ) :
    engine.cache s' = engine.cache s ∧
      ∃ t', engine.pluck r c t = (answer, t') ∧ engine.cache t' = engine.cache t := by
  -- the answer depends on the question alone, and no pluck touches the cache
  have hs := hanswers r c s
  have hcache := engine.cache_pluck r c s
  rw [h] at hs hcache
  refine ⟨hcache, (engine.pluck r c t).2, ?_, engine.cache_pluck r c t⟩
  exact Prod.ext ((hanswers r c t).trans hs.symm) rfl

/-- A compilation that is run again later has the same result, with the same plucks. -/
theorem Engine.run_again (hanswers : ∀ r c s, (engine.pluck r c s).1 = answers r c)
    {x : Compilation α} {s t : σ}
    (ht : EntityCache.Keeps provider (engine.cache (x.run engine.toBackend s).2) (engine.cache t)) :
    (x.run engine.toBackend t).1 = (x.run engine.toBackend s).1 ∧
      x.plucks engine.toBackend t = x.plucks engine.toBackend s := by
  -- The later state is free, so the cache may grow on the way; what the first run finds stays found.
  induction x generalizing s t with
  | done a => exact ⟨rfl, rfl⟩
  | fail e => exact ⟨rfl, rfl⟩
  | lookup i next ih =>
    rcases hs : engine.entity i s with ⟨result, s'⟩
    rcases hlater : engine.entity i t with ⟨result', t'⟩
    have hlookup := engine.lookup_of_entity hs
    -- The first run settles the answer, and nothing after it changes that.
    have hkeeps : EntityCache.Keeps provider (engine.cache s') (engine.cache t) := by
      cases result with
      | error e => simpa only [run, hs] using ht
      | ok entity =>
        simp only [run, hs] at ht
        exact (engine.keeps_run (next entity) s').trans ht
    have hsettled := hkeeps i result (EntityCache.lookup_again hlookup)
    obtain ⟨rfl, hcache⟩ := Prod.mk.inj ((engine.lookup_of_entity hlater).symm.trans hsettled)
    simp only [run, plucks, hs, hlater] at ht ⊢
    cases result' with
    | error e => exact ⟨rfl, rfl⟩
    | ok entity =>
      rw [← hcache] at ht
      exact ih entity ht
  | pluck r c next ih =>
    rcases hs : engine.pluck r c s with ⟨answer, s'⟩
    obtain ⟨-, t', hlater, hcache⟩ := engine.pluck_congr hanswers hs t
    simp only [run, plucks, hs, hlater] at ht ⊢
    cases answer with
    | error e => exact ⟨rfl, rfl⟩
    | ok column =>
      rw [← hcache] at ht
      obtain ⟨hrun, hplucks⟩ := ih _ ht
      exact ⟨hrun, congrArg _ hplucks⟩
  | count event next ih =>
    rw [← engine.cache_count event t] at ht
    exact ih ht

/-! ## Runs from two states -/

/-- The names that a run looks up, in their order. -/
def Compilation.lookups (backend : Backend σ) : Compilation α → σ → List String
  | done _, _ => []
  | fail _, _ => []
  | lookup i next, s =>
    i :: match backend.entity i s with
      | (.ok entity, s') => (next entity).lookups backend s'
      | (.error _, _) => []
  | pluck r c next, s =>
    match backend.pluck r c s with
    | (.ok column, s') => (next (.ofPlucked column)).lookups backend s'
    | (.error _, _) => []
  | count event next, s => next.lookups backend (backend.count event s)

/-- What is done with the result looks up nothing. -/
theorem Compilation.lookups_map {backend : Backend σ} (f : α → β) (x : Compilation α) (s : σ) :
    (f <$> x).lookups backend s = x.lookups backend s := by
  rw [map_eq_pure_bind]
  change (x.bind _).lookups backend s = _
  -- induction on the computation: mapping its result asks for nothing
  induction x generalizing s with
  | done a => rfl
  | fail e => rfl
  | lookup i next ih =>
    simp only [Compilation.bind, lookups]
    rcases backend.entity i s with ⟨e | entity, s'⟩
    · rfl
    · exact congrArg _ (ih entity s')
  | pluck r c next ih =>
    simp only [Compilation.bind, lookups]
    rcases backend.pluck r c s with ⟨e | answer, s'⟩
    · rfl
    · exact ih _ s'
  | count event next ih => exact ih _

variable {names : List String}

/-- A run does not change what is found for the names that it looks up. -/
theorem Engine.agree_run (hnames : EntityCache.SpelledAlike names) {x : Compilation α} {s : σ}
    (hx : x.lookups engine.toBackend s ⊆ names) :
    EntityCache.Agree provider names (engine.cache s)
      (engine.cache (x.run engine.toBackend s).2) := by
  induction x generalizing s with
  | done a => exact fun _ _ => rfl
  | fail e => exact fun _ _ => rfl
  | lookup i next ih =>
    simp only [lookups, run] at hx ⊢
    obtain ⟨hi, hrest⟩ := List.cons_subset.mp hx
    have hlookup := EntityCache.agree_lookup provider (engine.cache s) hnames hi
    rcases hs : engine.entity i s with ⟨e | entity, s'⟩
    all_goals
      rw [engine.lookup_of_entity hs] at hlookup
      rw [hs] at hrest
    · exact hlookup
    · exact fun j hj => (hlookup j hj).trans (ih entity hrest j hj)
  | pluck r c next ih =>
    simp only [lookups, run] at hx ⊢
    rcases hs : engine.pluck r c s with ⟨e | answer, s'⟩
    all_goals
      have hcache := engine.cache_pluck r c s
      rw [hs] at hcache hx
      rw [← hcache]
    · exact fun _ _ => rfl
    · exact ih _ hx
  | count event next ih =>
    simp only [lookups, run] at hx ⊢
    rw [← engine.cache_count event s]
    exact ih hx

/-- From two states that find the same entities for the names of a run its result is the same. -/
theorem Engine.run_congr (hanswers : ∀ r c s, (engine.pluck r c s).1 = answers r c)
    (hnames : EntityCache.SpelledAlike names) {x : Compilation α} {s t : σ}
    (hx : x.lookups engine.toBackend s ⊆ names)
    (hst : EntityCache.Agree provider names (engine.cache s) (engine.cache t)) :
    (x.run engine.toBackend t).1 = (x.run engine.toBackend s).1 := by
  induction x generalizing s t with
  | done a => rfl
  | fail e => rfl
  | lookup i next ih =>
    simp only [lookups] at hx
    obtain ⟨hi, hrest⟩ := List.cons_subset.mp hx
    rcases hs : engine.entity i s with ⟨result, s'⟩
    rcases ht : engine.entity i t with ⟨result', t'⟩
    have hlookup := engine.lookup_of_entity hs
    have hlookup' := engine.lookup_of_entity ht
    obtain rfl : result = result' := by
      simpa only [hlookup, hlookup'] using hst i hi
    -- Both caches have changed, but not in what they give for the names.
    have hs' := EntityCache.agree_lookup provider (engine.cache s) hnames hi
    have ht' := EntityCache.agree_lookup provider (engine.cache t) hnames hi
    rw [hlookup] at hs'
    rw [hlookup'] at ht'
    simp only [run, hs, ht] at hrest ⊢
    cases result with
    | error e => rfl
    | ok entity =>
      exact ih entity hrest fun j hj => (hs' j hj).symm.trans ((hst j hj).trans (ht' j hj))
  | pluck r c next ih =>
    rcases hs : engine.pluck r c s with ⟨answer, s'⟩
    obtain ⟨hcache, t', ht, hcache'⟩ := engine.pluck_congr hanswers hs t
    simp only [lookups, hs] at hx
    simp only [run, hs, ht]
    cases answer with
    | error e => rfl
    | ok column =>
      -- Neither cache has changed.
      rw [← hcache, ← hcache'] at hst
      exact ih _ hx hst
  | count event next ih =>
    simp only [lookups] at hx
    simp only [run]
    rw [← engine.cache_count event s, ← engine.cache_count event t] at hst
    exact ih hx hst

end FieldQuery
