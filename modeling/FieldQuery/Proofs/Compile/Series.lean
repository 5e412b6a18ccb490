import FieldQuery.Compile.Compiler
import FieldQuery.Proofs.Compile.Trace

/-!
# Series of requests

Requests are made one after another. Each is compiled for the relation that the last successful one
gave, and a failed request leaves the relation as it is. The clauses of a result stand in the order
of the requests.
-/

namespace FieldQuery

open FieldQuery.Compilation FieldQuery.Compile FieldQuery.Sql

variable {σ : Type}

/-! ## Requests -/

/-- An ordering of a bound relation puts its expressions to the relation. -/
theorem Compiler.order_bind (compiler : Compiler) (r : Relation) (field : String)
    (direction : Direction) (options : OrderOptions) :
    (compiler.bind r).order field direction options =
      (if options.reorder then r.reorder else r).orderBy <$>
        orderClauses compiler.settings compiler.settings.maxDepth compiler.entity field direction
          options := by
  -- the relation is bound, and what is done with it comes after all questions
  rw [map_eq_pure_bind]
  rfl

/-- A search in a bound relation puts its clause to the relation. -/
theorem Compiler.search_bind (compiler : Compiler) (r : Relation) (field : String) (value : Json)
    (options : SearchOptions) :
    (compiler.bind r).search field value options =
      (·.addTo r) <$> searchClause compiler.settings compiler.entity field value options := by
  rw [map_eq_pure_bind]
  rfl

/-- A request to a compiler. -/
inductive Request where
  | order (field : String) (direction : Direction) (options : OrderOptions)
  | search (field : String) (value : Json) (options : SearchOptions)
  | searchAny (value : Json) (options : SearchAnyOptions)

/-- What a compiler makes of a request. -/
def Request.compile (compiler : Compiler) : Request → Compilation Relation
  | .order field direction options => compiler.order field direction options
  | .search field value options => compiler.search field value options
  | .searchAny value options => compiler.searchAny value options

/-- What a request keeps of the orderings. -/
def Request.kept : Request → Relation → List Fragment
  | .order _ _ options, r => if options.reorder then [] else r.orders
  | .search _ _ _, r | .searchAny _ _, r => r.orders

/-- Whether a request puts its clauses after those of a relation. -/
structure Request.Extends (request : Request) (r r' : Relation) : Prop where
  conditions : r.conditions <+: r'.conditions
  havings : r.havings <+: r'.havings
  orders : request.kept r <+: r'.orders

/-! ## Calls -/

/-- What came of a request for a relation, and the plucks that were made for it. -/
structure Call where
  request : Request
  bound : Option Relation
  result : Except QueryError Relation
  plucks : List Plucked

/-- The relations that a request led to: those that were plucked, and the one that was given. -/
def Call.relations (call : Call) : List Relation :=
  call.plucks.map (·.relation) ++ call.result.toOption.toList

/-- The calls of a series of requests on a backend. -/
def Compiler.series (backend : Backend σ) (compiler : Compiler) : List Request → σ → List Call
  | [], _ => []
  | request :: rest, s =>
    let compiled := request.compile compiler
    let (result, s') := compiled.run backend s
    let next := match result with
      | .ok relation => compiler.bind relation
      | .error _ => compiler
    ⟨request, compiler.relation, result, compiled.plucks backend s⟩ :: next.series backend rest s'

/-- What holds of a relation, and is ensured by every request on such a relation, holds of all the
relations of a series, and every step of it is one that the requests ensure. -/
theorem Compiler.forall_mem_series {backend : Backend σ} {settings : Settings} {entity : Entity}
    {requests : List Request} {contract : Contract} {inv : Relation → Prop}
    {step : Request → Relation → Relation → Prop} {r : Relation}
    (hstep : ∀ request ∈ requests, ∀ r, inv r →
      (request.compile ⟨settings, entity, some r⟩).Ensures contract fun r' =>
        inv r' ∧ step request r r')
    (hanswers : ∀ r c s answer s', backend.pluck r c s = (.ok answer, s') →
      contract.answers r c answer)
    (hr : inv r) (s : σ)
    (hentity : ∀ i s₁ e s₂, backend.Reached s s₁ → backend.entity i s₁ = (.ok e, s₂) →
      contract.entity i e) :
    ∀ call ∈ Compiler.series backend ⟨settings, entity, some r⟩ requests s,
      (∀ r', call.result = .ok r' → inv r' ∧ ∃ r ∈ call.bound, step call.request r r') ∧
        ∀ p ∈ call.plucks, contract.asks p.relation p.column := by
  induction requests generalizing r s with
  | nil => exact List.forall_mem_nil _
  | cons request rest ih =>
    have hsound := (hstep request List.mem_cons_self r hr).sound s hentity fun p hp answer h => by
      obtain ⟨s₁, hs₁⟩ := exists_answer_of_mem_plucks hp
      exact hanswers _ _ s₁ answer _ (Prod.ext (hs₁.trans h) rfl)
    have hrest : ∀ request ∈ rest, ∀ r, inv r →
        (request.compile ⟨settings, entity, some r⟩).Ensures contract fun r' =>
          inv r' ∧ step request r r' :=
      fun request hrequest => hstep request (List.mem_cons_of_mem _ hrequest)
    have hnext : ∀ i s₁ e s₂, backend.Reached
        ((request.compile ⟨settings, entity, some r⟩).run backend s).2 s₁ →
        backend.entity i s₁ = (.ok e, s₂) → contract.entity i e :=
      fun i s₁ e s₂ h => hentity i s₁ e s₂ ((reached_run backend _ s).trans h)
    simp only [series, List.forall_mem_cons]
    refine ⟨⟨fun r' h => ?_, hsound.2⟩, ?_⟩
    · obtain ⟨hinv, hadds⟩ := hsound.1 r' _ (Prod.ext h rfl)
      exact ⟨hinv, r, rfl, hadds⟩
    · -- The next request goes on from the result, or from the same relation after a failure.
      split
      · next r' h => exact ih hrest (hsound.1 r' _ (Prod.ext h rfl)).1 _ hnext
      · exact ih hrest hr _ hnext

end FieldQuery
