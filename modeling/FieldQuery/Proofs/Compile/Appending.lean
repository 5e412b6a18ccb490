import FieldQuery.Proofs.Compile.Linking
import FieldQuery.Proofs.Compile.Rerun
import FieldQuery.Proofs.Compile.Series
import Mathlib.Data.List.Perm.Basic

/-!
# What requests add

A request adds one clause to the relation that is bound: a search a condition, or one on groups if
its column is an aggregate, and an ordering a list of expressions. The clause and the plucks that
are made for it do not depend on the relation, and nothing else of the relation changes. So two
searches lead to the same relation in either order, except for the order of their conditions. Only
where both look up one type under forms of different names, the order decides which of the forms is
kept.
-/

namespace FieldQuery

open FieldQuery.Compilation FieldQuery.Compile FieldQuery.Schema FieldQuery.Sql

/-! ## Additions -/

/-- What a request adds to a relation. -/
inductive Addition where
  | condition (fragment : Fragment)
  | having (fragment : Fragment)
  /-- Orderings after those already there, or instead of them. -/
  | orders (reorder : Bool) (fragments : List Fragment)

namespace Addition

/-- A relation with an addition. -/
def addTo (r : Relation) : Addition → Relation
  | condition fragment => { r with conditions := r.conditions ++ [fragment] }
  | having fragment => { r with havings := r.havings ++ [fragment] }
  | orders reorder fragments =>
    { r with orders := (if reorder then [] else r.orders) ++ fragments }

/-- The addition of a clause. -/
def ofClause : Clause → Addition
  | .condition fragment => condition fragment
  | .having fragment => having fragment

private theorem addTo_ofClause (clause : Clause) (r : Relation) :
    (ofClause clause).addTo r = clause.addTo r := by
  cases clause <;> rfl

end Addition

namespace Request

/-- The addition that a request compiles to, whatever relation is bound. -/
def addition (compiler : Compiler) : Request → Compilation Addition
  | order field direction options =>
    .orders options.reorder <$> orderClauses compiler.settings compiler.settings.maxDepth
      compiler.entity field direction options
  | search field value options =>
    .ofClause <$> searchClause compiler.settings compiler.entity field value options
  | searchAny value options => do
    let (event, condition) := anyCondition compiler.settings.dialect compiler.entity value options
    .note event
    pure (.condition condition)

/-- A request for a bound relation makes its addition and puts it to the relation. -/
theorem compile_bind (compiler : Compiler) (request : Request) (r : Relation) :
    request.compile (compiler.bind r) = (·.addTo r) <$> request.addition compiler := by
  cases request with
  | order field direction options =>
    change (compiler.bind r).order field direction options = _
    rw [Compiler.order_bind, addition, ← comp_map]
    refine congrArg (· <$> _) (funext fun fragments => ?_)
    -- with `reorder` the new terms replace the old ones, and otherwise they follow them
    cases hreorder : options.reorder <;>
      simp [Addition.addTo, Relation.orderBy, Relation.reorder]
  | search field value options =>
    change (compiler.bind r).search field value options = _
    rw [Compiler.search_bind, addition, ← comp_map]
    refine congrArg (· <$> _) (funext fun clause => ?_)
    exact (Addition.addTo_ofClause clause r).symm
  | searchAny value options => rfl

/-- Whether an addition is of the kind that a request makes for an entity. -/
def Makes (entity : Entity) : Request → Addition → Prop
  | order _ _ options, addition =>
    ∃ fragments, fragments ≠ [] ∧ addition = .orders options.reorder fragments
  | search field _ options, addition =>
    if isAggregate (entity.columnFor field options.sqlColumn) then
      ∃ fragment, addition = .having fragment
    else ∃ fragment, addition = .condition fragment
  | searchAny _ _, addition => ∃ fragment, addition = .condition fragment

end Request

namespace Compile

variable {settings : Settings} {entity : Entity} {field : String}

/-- An ordering has at least one expression. -/
theorem orderWith_ensures_ne_nil {orderTarget : TargetOrdering} {direction : Direction}
    {options : OrderOptions} :
    (orderWith settings orderTarget entity field direction options).Ensures {} (· ≠ []) := by
  have hrank (x : Compilation (List Fragment)) (last : Fragment) :
      (x >>= fun rank => pure (rank ++ [last])).Ensures {} (· ≠ []) :=
    (Ensures.any x).bind fun rank _ =>
      List.append_ne_nil_of_right_ne_nil rank (List.cons_ne_nil last [])
  unfold orderWith
  refine Ensures.note.bind fun _ _ => ?_
  split
  · -- Before the ranking stands the condition for rows without a reference.
    exact (Ensures.any _).bind fun association _ =>
      (Ensures.any _).bind fun rank _ => List.cons_ne_nil _ rank
  · exact List.cons_ne_nil _ _
  · exact (Ensures.any _).bind fun association _ => hrank _ _
  · exact (Ensures.any _).bind fun association _ => hrank _ _
  · exact (Ensures.any _).bind fun association _ => hrank _ _
  · exact hrank _ _
  all_goals exact List.cons_ne_nil _ _

private theorem orderClauses_ensures_ne_nil (levels : Nat) {direction : Direction}
    {options : OrderOptions} :
    (orderClauses settings levels entity field direction options).Ensures {} (· ≠ []) := by
  cases levels <;> exact orderWith_ensures_ne_nil

/-- A search makes a condition, or one on groups if its column is an aggregate. -/
theorem searchClause_ensures_kind {value : Json} {options : SearchOptions} :
    (searchClause settings entity field value options).Ensures {} fun clause =>
      if isAggregate (entity.columnFor field options.sqlColumn) then
        ∃ fragment, clause = .having fragment
      else ∃ fragment, clause = .condition fragment := by
  unfold searchClause
  -- an aggregate is decided by the column alone, before the value is looked at
  by_cases haggregate : isAggregate (entity.columnFor field options.sqlColumn) = true
  · simp only [haggregate, if_true]
    exact Ensures.note.bind fun _ _ => ⟨_, rfl⟩
  · simp only [haggregate, Bool.false_eq_true, if_false]
    -- the three ways left differ in how the condition is compiled, and all end by adding it
    have hcondition (x : Compilation Fragment) : (x >>= fun c => pure (.condition c)).Ensures {}
        fun clause => ∃ fragment, clause = Clause.condition fragment :=
      (Ensures.any x).bind fun c _ => ⟨c, rfl⟩
    refine (Ensures.any _).bind fun term _ => Ensures.note.bind fun _ _ => ?_
    split
    · exact ⟨_, rfl⟩
    split
    · exact (Ensures.any _).bind fun association _ => hcondition _
    split
    · exact hcondition _
    · exact hcondition _

end Compile

private theorem Request.addition_ensures (compiler : Compiler) (request : Request) :
    (request.addition compiler).Ensures {} (request.Makes compiler.entity) := by
  cases request with
  | order field direction options =>
    exact (orderClauses_ensures_ne_nil _).map fun fragments h => ⟨fragments, h, rfl⟩
  | search field value options =>
    refine searchClause_ensures_kind.map fun clause h => ?_
    by_cases haggregate : isAggregate (compiler.entity.columnFor field options.sqlColumn) = true
    · simp only [Makes, haggregate, if_true] at h ⊢
      obtain ⟨fragment, rfl⟩ := h
      exact ⟨fragment, rfl⟩
    · simp only [Makes, haggregate] at h ⊢
      obtain ⟨fragment, rfl⟩ := h
      exact ⟨fragment, rfl⟩
  | searchAny value options => exact ⟨_, rfl⟩

/-- A run that has an addition has one of the kind of the request. -/
theorem Request.makes_of_run {σ : Type} {backend : Backend σ} {compiler : Compiler}
    {request : Request} {s : σ} {addition : Addition}
    (h : ((request.addition compiler).run backend s).1 = .ok addition) :
    request.Makes compiler.entity addition :=
  (request.addition_ensures compiler).of_run (Prod.ext h rfl)

/-! ## Two searches -/

/-- Whether a request is a search. -/
def Request.isSearch : Request → Bool
  | order _ _ _ => false
  | search _ _ _ | searchAny _ _ => true

/-- Two requests, the second one for the relation that the first one gave. -/
def Compiler.both (compiler : Compiler) (a b : Request) (r : Relation) : Compilation Relation := do
  let first ← a.compile (compiler.bind r)
  b.compile (compiler.bind first)

/-- Two results that are both errors, or both the same relation up to the order of conditions. -/
inductive Exchanged : Except QueryError Relation → Except QueryError Relation → Prop where
  | error (e e' : QueryError) : Exchanged (.error e) (.error e')
  | ok {r r' : Relation} (conditions : r.conditions.Perm r'.conditions)
    (havings : r.havings.Perm r'.havings)
    (others : r' = { r with conditions := r'.conditions, havings := r'.havings }) :
    Exchanged (.ok r) (.ok r')

private theorem Request.exists_clause_of_makes {entity : Entity} {request : Request}
    {addition : Addition}
    (h : request.Makes entity addition) (hsearch : request.isSearch = true) :
    ∃ clause, addition = .ofClause clause := by
  cases request with
  | order field direction options => cases hsearch
  | search field value options =>
    simp only [Makes] at h
    split at h
    · obtain ⟨fragment, rfl⟩ := h
      exact ⟨.having fragment, rfl⟩
    · obtain ⟨fragment, rfl⟩ := h
      exact ⟨.condition fragment, rfl⟩
  | searchAny value options =>
    obtain ⟨fragment, rfl⟩ := h
    exact ⟨.condition fragment, rfl⟩

/-- Two clauses may be added in either order. -/
theorem Addition.exchanged_addTo (first second : Clause) (r : Relation) :
    Exchanged (.ok ((ofClause second).addTo ((ofClause first).addTo r)))
      (.ok ((ofClause first).addTo ((ofClause second).addTo r))) := by
  have hswap (clauses : List Fragment) (c d : Fragment) :
      ((clauses ++ [c]) ++ [d]).Perm ((clauses ++ [d]) ++ [c]) := by
    rw [List.append_assoc, List.append_assoc]
    exact (List.Perm.swap d c []).append_left clauses
  -- only where both clauses go to the same list does their order show in it
  cases first <;> cases second
  · exact .ok (hswap _ _ _) (.refl _) rfl
  · exact .ok (.refl _) (.refl _) rfl
  · exact .ok (.refl _) (.refl _) rfl
  · exact .ok (.refl _) (hswap _ _ _) rfl

section Exchange

variable {σ : Type} {backend : Backend σ} {compiler : Compiler} {a b : Request} {s t : σ}

/-- Of two requests the second one goes on from the state that the first one leaves, if that has a
result. -/
theorem run_both (r : Relation) :
    (compiler.both a b r).run backend s =
      match (a.addition compiler).run backend s with
      | (.ok first, s') =>
        ((b.addition compiler).run backend s').map (Except.map (·.addTo (first.addTo r))) id
      | (.error e, s') => (.error e, s') := by
  rw [Compiler.both, Request.compile_bind, run_bind, run_map]
  rcases (a.addition compiler).run backend s with ⟨e | first, s'⟩
  · rfl
  · simp only [Except.map, Request.compile_bind, run_map]
    rfl

/-- Two searches may be exchanged if each of them has the same addition in both orders. -/
theorem exchanged_both (ha : a.isSearch = true) (hb : b.isSearch = true) (r : Relation)
    (hfirst : ∀ first s', (a.addition compiler).run backend s = (.ok first, s') →
      ((b.addition compiler).run backend t).1 = ((b.addition compiler).run backend s').1)
    (hsecond : ∀ second t', (b.addition compiler).run backend t = (.ok second, t') →
      ((a.addition compiler).run backend t').1 = ((a.addition compiler).run backend s).1) :
    Exchanged ((compiler.both a b r).run backend s).1 ((compiler.both b a r).run backend t).1 := by
  rw [run_both, run_both]
  rcases hruna : (a.addition compiler).run backend s with ⟨e | first, s'⟩
  · rcases hrunb : (b.addition compiler).run backend t with ⟨e' | second, t'⟩
    · exact .error e e'
    · -- The second search has a result, but the first one fails after it as well.
      have hagain := hsecond second t' hrunb
      rw [hruna] at hagain
      simp only [Prod.map, hagain]
      exact .error e e
  · have hagain := hfirst first s' hruna
    rcases hrunb : (b.addition compiler).run backend t with ⟨e' | second, t'⟩
    · rw [hrunb] at hagain
      simp only [Prod.map, ← hagain]
      exact .error e' e'
    · -- Both have results, so the same two additions are made in both orders.
      have hagain' := hsecond second t' hrunb
      rw [hrunb] at hagain
      rw [hruna] at hagain'
      simp only [Prod.map, ← hagain, hagain']
      obtain ⟨clause, rfl⟩ := Request.exists_clause_of_makes
        (Request.makes_of_run (congrArg Prod.fst hruna)) ha
      obtain ⟨clause', rfl⟩ := Request.exists_clause_of_makes
        (Request.makes_of_run (congrArg Prod.fst hrunb)) hb
      exact Addition.exchanged_addTo clause clause' r

end Exchange

section OnEngine

variable {provider : Provider} {σ : Type} {engine : Engine provider σ} {compiler : Compiler}
  {answers : Relation → String → Except StorageError (List (Option Key))} {a b : Request}

/-- Two searches may be exchanged later on the same engine. -/
theorem exchanged_later (hanswers : ∀ r c s, (engine.pluck r c s).1 = answers r c)
    (ha : a.isSearch = true) (hb : b.isSearch = true) {r : Relation} {s t : σ}
    (ht : EntityCache.Keeps provider
      (engine.cache ((compiler.both a b r).run engine.toBackend s).2) (engine.cache t)) :
    Exchanged ((compiler.both a b r).run engine.toBackend s).1
      ((compiler.both b a r).run engine.toBackend t).1 := by
  rw [run_both] at ht
  refine exchanged_both ha hb r (fun first s' hrun => ?_) fun second t' hrun => ?_
  · -- The second search has been run before.
    rw [hrun] at ht
    change EntityCache.Keeps provider
      (engine.cache ((b.addition compiler).run engine.toBackend s').2) _ at ht
    exact (engine.run_again hanswers ht).1
  · -- The first one too, whether the second one was run after it or not.
    have hkeeps : EntityCache.Keeps provider
        (engine.cache ((a.addition compiler).run engine.toBackend s).2) (engine.cache t) := by
      rcases hruna : (a.addition compiler).run engine.toBackend s with ⟨e | first, s'⟩
      · rw [hruna] at ht
        exact ht
      · rw [hruna] at ht
        exact (engine.keeps_run (b.addition compiler) s').trans ht
    have hlater := engine.keeps_run (b.addition compiler) t
    rw [hrun] at hlater
    exact (engine.run_again hanswers (hkeeps.trans hlater)).1

/-- Two searches may be exchanged from one state, if the names of one type that they look up are forms
of one name. -/
theorem exchanged_from (hanswers : ∀ r c s, (engine.pluck r c s).1 = answers r c)
    (ha : a.isSearch = true) (hb : b.isSearch = true) {r : Relation} {s : σ}
    (hnames : EntityCache.SpelledAlike ((a.compile (compiler.bind r)).lookups engine.toBackend s ++
      (b.compile (compiler.bind r)).lookups engine.toBackend s)) :
    Exchanged ((compiler.both a b r).run engine.toBackend s).1
      ((compiler.both b a r).run engine.toBackend s).1 := by
  simp only [Request.compile_bind, lookups_map] at hnames
  -- `hnames` speaks of the look-ups of both requests, so of those of each
  have hsuba := List.subset_append_left ((a.addition compiler).lookups engine.toBackend s)
    ((b.addition compiler).lookups engine.toBackend s)
  have hsubb := List.subset_append_right ((a.addition compiler).lookups engine.toBackend s)
    ((b.addition compiler).lookups engine.toBackend s)
  refine exchanged_both ha hb r (fun first s' hrun => ?_) fun second t' hrun => ?_
  · -- what the first left behind agrees with the state before it on all the second one looks up
    have hagree := engine.agree_run hnames hsuba
    rw [hrun] at hagree
    exact (engine.run_congr hanswers hnames hsubb hagree).symm
  · have hagree := engine.agree_run hnames hsubb
    rw [hrun] at hagree
    exact engine.run_congr hanswers hnames hsuba hagree

/-- On an engine whose executor gives one answer to one question, a request makes one addition, or
fails, whatever relation is bound: from the same state, and at any time later. The addition is of
the kind of the request, and nothing else of the relation changes. Two searches may be exchanged:
later on the same engine, and from one state if the names of one type that they look up are forms of
one name. -/
theorem requests_append (engine : Engine provider σ)
    (hanswers : ∀ r c s, (engine.pluck r c s).1 = answers r c) (compiler : Compiler) :
    (∀ (request : Request) (s : σ),
      ∃ (result : Except QueryError Addition) (asked : List Plucked) (s' : σ),
        (∀ addition, result = .ok addition → request.Makes compiler.entity addition) ∧
        (∀ r : Relation,
          (request.compile (compiler.bind r)).run engine.toBackend s =
            (result.map (·.addTo r), s') ∧
          (request.compile (compiler.bind r)).plucks engine.toBackend s = asked) ∧
        ∀ (r : Relation) (t : σ),
          EntityCache.Keeps provider (engine.cache s') (engine.cache t) →
          ((request.compile (compiler.bind r)).run engine.toBackend t).1 =
            result.map (·.addTo r) ∧
          (request.compile (compiler.bind r)).plucks engine.toBackend t = asked) ∧
    ∀ (a b : Request) (r : Relation) (s t : σ), a.isSearch = true → b.isSearch = true →
      (EntityCache.Keeps provider
          (engine.cache ((compiler.both a b r).run engine.toBackend s).2) (engine.cache t) ∨
        t = s ∧ EntityCache.SpelledAlike
          ((a.compile (compiler.bind r)).lookups engine.toBackend s ++
            (b.compile (compiler.bind r)).lookups engine.toBackend s)) →
      Exchanged ((compiler.both a b r).run engine.toBackend s).1
        ((compiler.both b a r).run engine.toBackend t).1 := by
  refine ⟨fun request s => ?_, fun a b r s t ha hb hstate => ?_⟩
  · -- the outcome is the addition's, which is compiled without the relation
    refine ⟨((request.addition compiler).run engine.toBackend s).1,
      (request.addition compiler).plucks engine.toBackend s,
      ((request.addition compiler).run engine.toBackend s).2,
      fun addition h => Request.makes_of_run h, fun r => ?_, fun r t ht => ?_⟩
    · rw [Request.compile_bind, run_map, plucks_map]
      exact ⟨rfl, rfl⟩
    · obtain ⟨hrun, hplucks⟩ := engine.run_again hanswers ht
      rw [Request.compile_bind, run_map, plucks_map, hrun, hplucks]
      exact ⟨rfl, rfl⟩
  · rcases hstate with hlater | ⟨rfl, hnames⟩
    · exact exchanged_later hanswers ha hb hlater
    · exact exchanged_from hanswers ha hb hnames

end OnEngine

namespace Compile.Library

/-- The schemas that the library knows: those of the genres. -/
def schemas : Provider :=
  (Registry.ofList [{ typeName := "Genre", columns := [("name", .string)] }]).provider
    fun _ _ => none

/-- The engine over the store of the library. -/
def engine : Engine schemas (EntityCache × Unit) :=
  .ofExecutor schemas store.pluck

/-- A search for a genre and one for a name may be exchanged, on an engine that has found nothing
yet and also when they have been compiled once. -/
theorem searches_exchanged_in_library :
    let crime := Request.search "genres" (.string "crime") {}
    let poe := Request.searchAny (.string "Poe") {}
    let both := (compiler.both crime poe author.relation).run engine.toBackend ({}, ())
    (∀ r c s, (engine.pluck r c s).1 = (store.pluck r c ()).1) ∧
      both.1 = .ok ((author.relation.filter ⟨"authors.id IN (?)", [.integer 1]⟩).filter
        ⟨"authors.name LIKE ?", [.text "%Poe%"]⟩) ∧
      Exchanged both.1
        ((compiler.both poe crime author.relation).run engine.toBackend ({}, ())).1 ∧
      Exchanged both.1 ((compiler.both poe crime author.relation).run engine.toBackend both.2).1 := by
  intro crime poe both
  have hanswers : ∀ r c s, (engine.pluck r c s).1 = (store.pluck r c ()).1 := fun _ _ _ => rfl
  have hnames : (crime.compile (compiler.bind author.relation)).lookups engine.toBackend ({}, ()) ++
      (poe.compile (compiler.bind author.relation)).lookups engine.toBackend ({}, ()) =
        ["Genre"] := by decide +kernel
  have hexchange := (requests_append engine hanswers compiler).2 crime poe author.relation ({}, ())
  refine ⟨hanswers, by decide +kernel, ?_, ?_⟩
  · refine hexchange ({}, ()) rfl rfl (.inr ⟨rfl, ?_⟩)
    rw [hnames]
    intro i hi j hj name name' hname hname' _
    rw [List.mem_singleton.mp hi] at hname
    rw [List.mem_singleton.mp hj, hname] at hname'
    exact Option.some.inj hname'
  · -- What both searches have found is known from then on.
    have hkeeps : EntityCache.Keeps schemas (engine.cache both.2) (engine.cache both.2) := .refl _
    exact hexchange both.2 rfl rfl (.inl hkeeps)

/-- A measure points at one type under two names. The blank of the second name is left out when the
name is looked up, and then it is another form than the first one. -/
def measure : EntitySchema where
  typeName := "Measure"
  associations :=
    [{ name := "upper", kind := .belongsTo, className := some "SSa" },
     { name := "lower", kind := .belongsTo, className := some "_\tßa" }]

/-- The schemas of measures and of what they point at. -/
def measures : Provider :=
  (Registry.ofList [measure, { typeName := "SSa", columns := [("name", .string)] }]).provider
    fun _ _ => none

/-- Measures under their own name. -/
def measureEntity : Entity :=
  .ofSchema measures ⟨"measure", "measures", "Measure", [], "Measure"⟩ measure

/-- The engine over a store with the key 1 in the table of the first form, and the key 2 elsewhere. -/
def measureEngine : Engine measures (EntityCache × Unit) :=
  .ofExecutor measures fun r _ s =>
    (.ok [some (.integer (if r.table = "s_sas" then 1 else 2))], s)

/-- The result of two searches on an engine that has found nothing yet. -/
def searchBoth (first second : String) : Except QueryError Relation :=
  ((Compiler.both (.all ⟨.sqlite, 100, 3⟩ measureEntity) (.search first (.string "x") {})
    (.search second (.string "x") {}) measureEntity.relation).run measureEngine.toBackend ({}, ())).1

/-- The cache keeps the table of the form that it is asked for first. So two searches may find other
keys than the same two searches in the other order. -/
theorem searches_not_exchanged :
    Entity.load measures "measure" = .ok measureEntity ∧
      (∀ r c s t, (measureEngine.pluck r c s).1 = (measureEngine.pluck r c t).1) ∧
      searchBoth "upper" "lower" =
        .ok ((measureEntity.relation.filter ⟨"measures.upper_id IN (?)", [.integer 1]⟩).filter
          ⟨"measures.lower_id IN (?)", [.integer 1]⟩) ∧
      searchBoth "lower" "upper" =
        .ok ((measureEntity.relation.filter ⟨"measures.lower_id IN (?)", [.integer 2]⟩).filter
          ⟨"measures.upper_id IN (?)", [.integer 2]⟩) ∧
      ¬ Exchanged (searchBoth "upper" "lower") (searchBoth "lower" "upper") := by
  have hname : Naming.EntityName.parse? "measure" =
      some ⟨"measure", "measures", "Measure", [], "Measure"⟩ := by decide +kernel
  have hschema : measures.schema? "Measure" = some measure := by decide +kernel
  have hupper : searchBoth "upper" "lower" =
      .ok ((measureEntity.relation.filter ⟨"measures.upper_id IN (?)", [.integer 1]⟩).filter
        ⟨"measures.lower_id IN (?)", [.integer 1]⟩) := by decide +kernel
  have hlower : searchBoth "lower" "upper" =
      .ok ((measureEntity.relation.filter ⟨"measures.lower_id IN (?)", [.integer 2]⟩).filter
        ⟨"measures.upper_id IN (?)", [.integer 2]⟩) := by decide +kernel
  refine ⟨?_, fun _ _ _ _ => rfl, hupper, hlower, fun hexchanged => ?_⟩
  · rw [Entity.load_of_parse?_eq_some hname, hschema]
    rfl
  · rw [hupper, hlower] at hexchanged
    cases hexchanged with
    | ok conditions _ _ =>
      -- The key 1 is found in one order only.
      have hmem := conditions.subset List.mem_cons_self
      revert hmem
      decide +kernel

end Compile.Library

end FieldQuery
