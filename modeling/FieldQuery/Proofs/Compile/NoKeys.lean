import FieldQuery.Proofs.Compile.Hops
import FieldQuery.Proofs.Compile.Linking

/-!
# Requests without keys

The keys that a search or an ordering goes over may run out on the way back to the owner. The first
pluck that gives no key is then the last one. The search is left with a condition that no row
satisfies, and the ordering with the expressions that it has without a ranking.
-/

namespace FieldQuery

open FieldQuery.Catalog FieldQuery.Compile FieldQuery.Compilation FieldQuery.Sql

/-- The column that a search over keys compares: that of the association, or the primary key for
addresses. -/
def Entity.translatedColumn (entity : Entity) (field : String) (type : Option FieldType) :
    String :=
  let resolved := entity.resolveWith field type
  match resolved.association with
  | some association =>
    if resolved.type.isAssociation then entity.column (association.ownColumn entity.asTarget)
    else entity.keyColumn
  | none => entity.keyColumn

namespace Compile

variable {settings : Settings} {entity : Entity}

/-! ## Searches -/

private theorem enter_silent (target : Target) : (enter settings target).Silent := by
  unfold enter
  split
  · trivial
  · exact Silent.entity _

private theorem matching_silent (found : Entity) (value : Json) (fuzzy : Bool) (rows : Relation) :
    (matching settings found value fuzzy rows).Silent :=
  (Silent.note _).bind fun _ => trivial

private theorem associationCondition_stopsAt (association : Association) (value : Json) (fuzzy : Bool) :
    (associationCondition settings entity association value fuzzy).StopsAt
      (KeySet.empty.inList (entity.column (association.ownColumn entity.asTarget))) := by
  refine (Silent.ofExcept _).bind_stopsAt fun target => ?_
  refine (enter_silent target).bind_stopsAt fun found => ?_
  refine (matching_silent found value fuzzy _).bind_stopsAt fun rows => ?_
  exact (correlate_stopsAt _ target rows association).bind rfl fun _ => trivial

private theorem addressCondition_stopsAt (field : String) (value : Json) (fuzzy : Bool) :
    (addressCondition settings entity field value fuzzy).StopsAt
      (KeySet.empty.inList entity.keyColumn) := by
  unfold addressCondition
  split
  · trivial
  · next scope hscope =>
    refine (enter_silent scope.target).bind_stopsAt fun found => ?_
    refine (matching_silent found value fuzzy _).bind_stopsAt fun rows => ?_
    exact (StopsAt.keys rows _).bind rfl fun _ => trivial

/-- A search makes plucks only to translate keys, and stops once there are none. -/
theorem searchClause_stopsAt (field : String) (value : Json) (options : SearchOptions) :
    (searchClause settings entity field value options).StopsAt
      (.condition (KeySet.empty.inList (entity.translatedColumn field options.type))) := by
  unfold searchClause
  simp only
  split
  · exact trivial
  refine (Silent.ofExcept _).bind_stopsAt fun term => ?_
  refine (Silent.note _).bind_stopsAt fun _ => ?_
  split
  · exact trivial
  split
  · -- The keys of an association are compared in the column that it says.
    next htype =>
    cases hassociation : (entity.resolveWith field options.type).association with
    | none => exact trivial
    | some association =>
      have hcolumn : entity.translatedColumn field options.type =
          entity.column (association.ownColumn entity.asTarget) := by
        simp [Entity.translatedColumn, hassociation, htype]
      rw [hcolumn]
      exact (associationCondition_stopsAt association value _).bind rfl fun _ => trivial
  · -- Those of addresses are keys of the owner, and of other fields there are none.
    next htype =>
    have hcolumn : entity.translatedColumn field options.type = entity.keyColumn := by
      unfold Entity.translatedColumn
      simp only [htype]
      split <;> rfl
    rw [hcolumn]
    split
    · exact (addressCondition_stopsAt field value _).bind rfl fun _ => trivial
    · exact (Silent.ofExcept _).bind_stopsAt fun _ => trivial

/-! ## Orderings -/

/-- The plucks of an ordering that goes on are those for the target, and then, if the target has been
ordered, those that carry its rows back. A pluck of the latter that gives no key is the last one, and
leaves the expressions without a ranking. -/
theorem exists_translation {σ : Type} (backend : Backend σ) (levels : Nat) {field : String}
    (direction : Direction) {options : OrderOptions} {hop : Hop}
    (h : entity.hop? field options.type = some hop) (s : σ) :
    let clauses := orderClauses settings levels entity field direction options
    let s₀ := backend.count (.order (entity.resolveWith field options.type).type) s
    let nested := targetOrdering settings levels direction options.limit hop.target.name.typeName
      options.sortField
    ∃ translation, clauses.plucks backend s = nested.plucks backend s₀ ++ translation ∧
      ((∃ e s', nested.run backend s₀ = (.error e, s')) → translation = []) ∧
      ∀ before p after, translation = before ++ p :: after → p.GivesNoKey →
        after = [] ∧
          (clauses.run backend s).1 = .ok (orderExpressions entity field direction options []) := by
  intro clauses s₀ nested
  obtain ⟨carry, hcarry, horder⟩ := exists_orderWith_of_hop? settings direction h
  have hclauses : clauses = .count (.order (entity.resolveWith field options.type).type)
      (nested >>= fun answer => carry answer.1 answer.2) :=
    (orderClauses_eq settings levels entity field direction options).trans (horder _)
  simp only [hclauses, plucks, run, plucks_bind, run_bind]
  rcases hnested : nested.run backend s₀ with ⟨e | ⟨found, own⟩, s₁⟩
  · -- The ordering fails before anything is carried back.
    refine ⟨[], rfl, fun _ => rfl, fun before p after hsplit => ?_⟩
    exact absurd hsplit (by simp)
  · refine ⟨(carry found own).plucks backend s₁, rfl, ?_, fun before p after hsplit hp => ?_⟩
    · rintro ⟨e, s', herror⟩
      cases herror
    · exact (hcarry.stopsAt found own).sound hp hsplit

private theorem orderExpressions_nil (field : String) (direction : Direction) (options : OrderOptions) :
    orderExpressions entity field direction options [] =
      [.ofSql (if (entity.resolveWith field options.type).type = .directReference then
          entity.columnFor field options.sqlColumn ++ " IS NULL DESC"
        else entity.keyColumn ++ " " ++ direction.sql)] := by
  unfold orderExpressions framed
  split <;> rfl

/-! ## Requests -/

/-- Once a pluck gives no key on the way back to the owner, no further pluck is made and the request
has a result. A search adds a comparison with the key that no row has. An ordering adds no ranking:
what is left of it are rows without a reference first, or the primary key. The plucks that order the
target of an ordering are not on the way back and come before it. -/
theorem no_plucks_without_keys {σ : Type} (backend : Backend σ) (compiler : Compiler)
    (bound : Relation) (field : String) (s : σ) :
    (∀ value options before p after,
      let request := (compiler.bind bound).search field value options
      let column := compiler.entity.translatedColumn field options.type
      request.plucks backend s = before ++ p :: after → p.GivesNoKey →
        after = [] ∧
          (request.run backend s).1 = .ok (bound.filter ⟨column ++ " IN (?)", [.integer 0]⟩)) ∧
    ∀ direction options,
      let request := (compiler.bind bound).order field direction options
      let type := (compiler.entity.resolveWith field options.type).type
      let column := compiler.entity.columnFor field options.sqlColumn
      let kept := if options.reorder then bound.reorder else bound
      (compiler.entity.hop? field options.type = none → request.plucks backend s = []) ∧
      ∀ hop, compiler.entity.hop? field options.type = some hop →
        let s₀ := backend.count (.order type) s
        let nested := targetOrdering compiler.settings compiler.settings.maxDepth direction
          options.limit hop.target.name.typeName options.sortField
        ∃ translation, request.plucks backend s = nested.plucks backend s₀ ++ translation ∧
          ((∃ e s', nested.run backend s₀ = (.error e, s')) → translation = []) ∧
          ∀ before p after, translation = before ++ p :: after → p.GivesNoKey →
            after = [] ∧
              (request.run backend s).1 = .ok (kept.orderBy
                [.ofSql (if type = .directReference then column ++ " IS NULL DESC"
                  else compiler.entity.keyColumn ++ " " ++ direction.sql)]) := by
  refine ⟨?search, fun direction options => ⟨?nowhere, ?order⟩⟩
  case search =>
    intro value options before p after request column hplucks hp
    -- the relation is bound, so the search is the clause added to it
    have hsearch : request = _ := Compiler.search_bind compiler bound field value options
    rw [hsearch] at hplucks ⊢
    exact ((searchClause_stopsAt field value options).map (·.addTo bound)).sound hp hplucks
  case nowhere =>
    intro hhop
    obtain ⟨result, -, hclauses⟩ :=
      exists_orderClauses_of_hop?_eq_none compiler.settings direction hhop
    rw [Compiler.order_bind, plucks_map, hclauses]
    exact (Silent.ofExcept result).plucks_eq_nil _
  case order =>
    intro hop hhop s₀ nested
    -- the nested ordering plucks first, and the translation back after it
    obtain ⟨translation, hplucks, hnone, hstops⟩ := exists_translation backend
      compiler.settings.maxDepth direction hhop s
    simp only [Compiler.order_bind, plucks_map, run_map]
    refine ⟨translation, hplucks, hnone, fun before p after hsplit hp => ?_⟩
    obtain ⟨hafter, hresult⟩ := hstops before p after hsplit hp
    refine ⟨hafter, ?_⟩
    rw [hresult, orderExpressions_nil]
    rfl

namespace Library

/-- A store in which every column holds nothing but NULL. -/
def hollow : Backend Unit where
  entity identifier s := (find identifier, s)
  pluck _ _ s := (.ok [none], s)
  count _ s := s

private theorem givesNoKey_of_mem_plucks {α : Type} {x : Compilation α} {p : Plucked}
    (hp : p ∈ x.plucks hollow ()) : p.GivesNoKey := by
  obtain ⟨_, hanswer⟩ := exists_answer_of_mem_plucks hp
  exact ⟨[none], hanswer.symm, List.forall_mem_singleton.mpr rfl⟩

end Library

/-- In a store that holds nothing but NULL, a search for a genre and an ordering by the genres make one
pluck each. -/
theorem no_plucks_without_keys_in_library :
    let search := (Library.compiler.bind Library.author.relation).search "genres" (.string "opera") {}
    let order := (Library.compiler.bind Library.author.relation).order "genres" .ascending {}
    (search.run Library.hollow ()).1 =
        .ok (Library.author.relation.filter ⟨"authors.id IN (?)", [.integer 0]⟩) ∧
      (order.run Library.hollow ()).1 =
        .ok (Library.author.relation.orderBy [.ofSql "authors.id ASC"]) := by
  intro search order
  obtain ⟨hsearch, horder⟩ := no_plucks_without_keys Library.hollow Library.compiler
    Library.author.relation "genres" ()
  -- each request plucks exactly once, so that pluck is the one the statement is about
  have hsearched : (search.plucks Library.hollow ()).length = 1 := by decide +kernel
  have hordered : (order.plucks Library.hollow ()).length = 1 := by decide +kernel
  have hcolumn : Library.compiler.entity.translatedColumn "genres" none = "authors.id" := by
    decide +kernel
  refine ⟨?_, ?_⟩
  · obtain ⟨p, hp⟩ := List.length_eq_one_iff.mp hsearched
    have hnone : p.GivesNoKey := Library.givesNoKey_of_mem_plucks (hp ▸ List.mem_singleton_self p)
    have hresult := (hsearch (.string "opera") {} [] p [] hp hnone).2
    rw [hcolumn] at hresult
    exact hresult
  · have hfield : Library.compiler.entity.resolveWith "genres" none =
        ⟨.reversedMany, some Library.genres⟩ := by decide +kernel
    have hhop : Library.compiler.entity.hop? "genres" none =
        some ⟨Library.genre, Entity.relation⟩ := by
      simp only [Entity.hop?, hfield]
      rfl
    have hnested : (targetOrdering Library.compiler.settings 3 .ascending none "Genre" none).plucks
        Library.hollow () = [] := List.length_eq_zero_iff.mp (by decide +kernel)
    obtain ⟨translation, hplucks, -, hstops⟩ := (horder .ascending {}).2 _ hhop
    have htranslation : order.plucks Library.hollow () = translation :=
      hplucks.trans (congrArg (· ++ translation) hnested)
    obtain ⟨p, hp⟩ := List.length_eq_one_iff.mp hordered
    have hnone : p.GivesNoKey := Library.givesNoKey_of_mem_plucks (hp ▸ List.mem_singleton_self p)
    have hresult := (hstops [] p [] (htranslation.symm.trans hp) hnone).2
    have hkey : Library.compiler.entity.keyColumn = "authors.id" := by decide +kernel
    rw [hfield, if_neg nofun, hkey] at hresult
    exact hresult

end Compile

end FieldQuery
