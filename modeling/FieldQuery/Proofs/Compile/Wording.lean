import FieldQuery.Proofs.Compile.Alike
import FieldQuery.Proofs.Compile.Forms
import FieldQuery.Proofs.Compile.Linking

/-!
# What the texts of searches depend on

The text of a condition depends on the entity, the field, the options and the dialect. Where a
search goes over the keys of another entity, its texts and those of all plucks depend also on
whether the value is matched as a text or names keys, and on the numbers of keys, and on nothing
else of the value and of the answers of the store.
-/

namespace FieldQuery.Compile

open FieldQuery.Catalog FieldQuery.Compilation FieldQuery.Sql

variable {settings : Settings} {entity : Entity} {field : String} {value value' : Json}

/-! ## Correlations of relations of the same text -/

variable {purpose : Purpose} {owner target : Target} {rows rows' : Relation}

/-- The fragment that a clause adds. -/
def Clause.fragment : Clause → Fragment
  | condition f | having f => f

/-- The texts that a search in a field may add without going over keys. -/
def fieldTexts (dialect : Dialect) (entity : Entity) (field : String) (options : SearchOptions) :
    List String :=
  let column := entity.columnFor field options.sqlColumn
  if isAggregate column then [(equalForm column).1]
  else
    (column ++ " IS NULL") ::
      (plainForms dialect entity column options.fuzzy
        (entity.resolveWith field options.type).type).map (·.1)

/-- A search that does not go over keys plucks nothing, and its text is one of those of the
field. -/
theorem searchClause_ensures_text (settings : Settings) {options : SearchOptions}
    (h : ¬ Translates entity field value options) :
    (searchClause settings entity field value options).Ensures { asks := fun _ _ => False }
      fun clause => clause.fragment.sql ∈ fieldTexts settings.dialect entity field options := by
  unfold searchClause fieldTexts
  simp only
  split
  · refine Ensures.note.bind fun _ _ => ?_
    exact Ensures.pure List.mem_cons_self
  next haggregate =>
  refine (Ensures.ofExcept (fun term => entity.parseValue
    (entity.resolveWith field options.type).type value = .ok term) fun _ h => h).bind
      fun term hterm => ?_
  refine Ensures.note.bind fun _ _ => ?_
  split
  · exact Ensures.pure List.mem_cons_self
  next hnull =>
  -- An association or an address would go over keys.
  have htype : ¬ ((entity.resolveWith field options.type).type.isAssociation = true ∨
      (entity.resolveWith field options.type).type = .addresses) := by
    intro htype
    rw [parseValue_of_translated entity htype value, Except.ok.injEq] at hterm
    refine h ⟨by simpa using haggregate, htype, fun ⟨hmarker, haccepts⟩ => hnull ⟨?_, haccepts⟩⟩
    rw [← hterm, if_pos hmarker]
  obtain ⟨hassociation, haddresses⟩ := not_or.mp htype
  rw [if_neg hassociation, if_neg haddresses]
  refine (Ensures.ofExcept (fun f : Fragment => f.sql ∈ _) fun f hf => ?_).bind
    fun f hf => Ensures.pure hf
  exact List.mem_cons_of_mem _ (List.mem_map_of_mem (form_of_plainCondition hf))

/-! ## Searches with plucks -/

variable {σ : Type} {backend : Backend σ} {s s' : σ}

variable {compiler : Compiler} {bound bound' : Relation} {options : SearchOptions}

private theorem search_ensures_text (h : ¬ Translates compiler.entity field value options) :
    ((compiler.bind bound).search field value options).Ensures { asks := fun _ _ => False }
      fun r => ∃ clause : Clause, r = clause.addTo bound ∧
        clause.fragment.sql ∈
          fieldTexts compiler.settings.dialect compiler.entity field options := by
  -- what does not translate asks nothing, so its text is one of the field's own
  have hbound : (compiler.bind bound).bound.Ensures { asks := fun _ _ => False }
      fun r => r = bound := Ensures.pure rfl
  refine hbound.bind ?_
  rintro _ rfl
  refine (searchClause_ensures_text compiler.settings h).bind fun clause hclause => ?_
  exact Ensures.pure ⟨clause, rfl, hclause⟩

/-- Only searches that are translated to keys pluck anything. -/
theorem translates_of_plucks_ne_nil
    (h : ((compiler.bind bound).search field value options).plucks backend s ≠ []) :
    Translates compiler.entity field value options := by
  by_contra hnot
  refine h (List.eq_nil_iff_forall_not_mem.mpr fun p hp => ?_)
  exact ((search_ensures_text hnot).sound s (fun _ _ _ _ _ _ => trivial)
    fun _ _ _ _ => trivial).2 p hp

end FieldQuery.Compile
