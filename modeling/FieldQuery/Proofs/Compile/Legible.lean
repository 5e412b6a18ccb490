import FieldQuery.Proofs.Compile.Balance
import FieldQuery.Proofs.Sql.Operands

/-!
# Legible conditions

Every condition that a search adds can be read: it is a comparison, a conjunction of two, or a
disjunction of matches, over columns that are one operand each. So after any series of requests the
clauses of a statement say that all conditions hold, those with an OR in them included.
-/

namespace FieldQuery

open FieldQuery.Catalog FieldQuery.Compilation FieldQuery.Sql

/-! ## The forms of conditions -/

namespace Compile

variable {dialect : Dialect} {entity : Entity} {column : String}

private theorem isOperand_equalForm (h : IsOperand column) : IsOperand (equalForm column).1 :=
  h.append (by decide) (by decide)

private theorem isOperand_textForm (h : IsOperand column) (fuzzy : Bool) :
    IsOperand (textForm dialect fuzzy column).1 := by
  cases fuzzy with
  | false => exact isOperand_equalForm h
  | true =>
    -- the operator follows the column with a blank, and is no connective in any dialect
    have hoperator : HasTokens Unjoined (" " ++ dialect.fuzzyOperator ++ " ?") ∧
        startsApart (" " ++ dialect.fuzzyOperator ++ " ?").toList := by
      cases dialect <;> decide
    have hform : (textForm dialect true column).1 =
        column ++ (" " ++ dialect.fuzzyOperator ++ " ?") := by
      simp [textForm, String.append_assoc]
    rw [hform]
    exact h.append hoperator.1 hoperator.2

/-- A call of a function, with something before the column. -/
theorem isOperand_call {pre name argument : String} (hpre : pre = name ++ "(" ++ argument ++ " ")
    (hname : IsOperand name) (hargument : HasTokens Paired argument) (h : IsOperand column) :
    IsOperand (pre ++ column ++ ")") := by
  have harguments : HasTokens Paired (argument ++ (" " ++ column)) := by
    exact hargument.append h.paired.blank_append (startsApart_append (by decide) _) fun _ _ =>
      Paired.append
  have hcall := hname.call harguments
  subst hpre
  simpa only [String.append_assoc] using hcall

/-- A call that is converted to a number. -/
theorem isOperand_cast {pre call : String} (hpre : pre = "CAST" ++ "(" ++ call)
    (h : IsOperand (call ++ column ++ ")")) : IsOperand (pre ++ column ++ ") AS INTEGER)") := by
  have hinteger : HasTokens Unjoined " AS INTEGER" := by decide
  have hcast : IsOperand ("CAST" ++ ("(" ++ (call ++ column ++ ")" ++ " AS INTEGER") ++ ")")) :=
    IsOperand.call (by decide) (h.append hinteger (by decide)).paired
  have hpost : ") AS INTEGER)" = ")" ++ " AS INTEGER" ++ ")" := by decide
  subst hpre
  rw [hpost]
  simpa only [String.append_assoc] using hcast

private theorem isOperand_extractHour (dialect : Dialect) (h : IsOperand column) :
    IsOperand (dialect.extractHour column) := by
  cases dialect with
  | sqlite =>
    -- The comma stands right after the format, so both are one word.
    have hcall : IsOperand ("strftime('%H', " ++ column ++ ")") :=
      isOperand_call (by decide : _ = "strftime" ++ "(" ++ "'%H'," ++ " ") (by decide) (by decide) h
    exact isOperand_cast (by decide : _ = "CAST" ++ "(" ++ "strftime('%H', ") hcall
  | mysql | postgres =>
    exact isOperand_call (by decide : _ = "EXTRACT" ++ "(" ++ "HOUR FROM" ++ " ") (by decide)
      (by decide) h

private theorem isOperand_extractMinute (dialect : Dialect) (h : IsOperand column) :
    IsOperand (dialect.extractMinute column) := by
  cases dialect with
  | sqlite =>
    have hcall : IsOperand ("strftime('%M', " ++ column ++ ")") :=
      isOperand_call (by decide : _ = "strftime" ++ "(" ++ "'%M'," ++ " ") (by decide) (by decide) h
    exact isOperand_cast (by decide : _ = "CAST" ++ "(" ++ "strftime('%M', ") hcall
  | mysql | postgres =>
    exact isOperand_call (by decide : _ = "EXTRACT" ++ "(" ++ "MINUTE FROM" ++ " ") (by decide)
      (by decide) h

/-- Two operands with AND between them. -/
theorem legible_and {a b : String} (ha : IsOperand a) (hb : IsOperand b) :
    Legible .disjunction (a ++ " AND " ++ b) :=
  ((Legible.operand ha).conjunction.and (.operand hb)).disjunction

private theorem legible_or {a b : String} (ha : IsOperand a) (hb : IsOperand b) :
    Legible .disjunction (a ++ " OR " ++ b) :=
  (Legible.operand ha).conjunction.disjunction.or (Legible.operand hb).conjunction

private theorem legible_of_isOperand {text : String} (h : IsOperand text) : Legible .disjunction text :=
  (Legible.operand h).conjunction.disjunction

private theorem legible_numberForms (h : IsOperand column) :
    ∀ form ∈ numberForms column, Legible .disjunction form.1 := by
  simp only [numberForms, List.forall_mem_cons]
  refine ⟨legible_of_isOperand (isOperand_equalForm h), ?_, ?_, List.forall_mem_nil _⟩
  · have hleast : IsOperand (column ++ " >= ?") := h.append (by decide) (by decide)
    have hbound : IsOperand (column ++ " < ?") := h.append (by decide) (by decide)
    simpa [String.append_assoc] using legible_and hleast hbound
  · have hmost : IsOperand (column ++ " <= ?") := h.append (by decide) (by decide)
    have hbound : IsOperand (column ++ " > ?") := h.append (by decide) (by decide)
    simpa [String.append_assoc] using legible_and hmost hbound

private theorem legible_timeForms (h : IsOperand column) :
    ∀ form ∈ timeForms dialect column, Legible .disjunction form.1 := by
  have hhour := isOperand_equalForm (isOperand_extractHour dialect h)
  have hminute := isOperand_equalForm (isOperand_extractMinute dialect h)
  simp only [timeForms, List.forall_mem_cons]
  refine ⟨legible_of_isOperand hhour, ?_, List.forall_mem_nil _⟩
  simpa [equalForm, String.append_assoc] using legible_and hhour hminute

/-- A polymorphic reference is compared in two columns, named by one with an ending each. -/
theorem legible_polymorphicForms (h : IsOperand column) :
    ∀ form ∈ polymorphicForms column, Legible .disjunction form.1 := by
  -- the suffixes are of the letters a name is made of, so each column stays one operand
  have hid : IsOperand (column ++ "_id") :=
    h.append_ordinary (c := '_') (by decide) (by decide) (by decide) (by decide)
  have htype : IsOperand (column ++ "_type") :=
    h.append_ordinary (c := '_') (by decide) (by decide) (by decide) (by decide)
  have hsameId := isOperand_equalForm hid
  have hsameType := isOperand_equalForm htype
  simp only [polymorphicForms, List.forall_mem_cons]
  refine ⟨?_, ?_, List.forall_mem_nil _⟩
  · simpa [equalForm, String.append_assoc] using legible_and hsameId hsameType
  · simpa [equalForm, String.append_assoc] using legible_or hsameId hsameType

private theorem legible_bucketForm (h : IsOperand column) (type : FieldType) :
    Legible .disjunction (bucketForm dialect type column).1 := by
  have hbucket : ∀ placeholder, HasTokens Unjoined (" " ++ placeholder) →
      Legible .disjunction
        (column ++ " >= " ++ placeholder ++ " AND " ++ column ++ " <= " ++ placeholder) := by
    intro placeholder hplaceholder
    have hstart : startsApart (" " ++ placeholder).toList := startsApart_append (by decide) _
    have hfirst : IsOperand (column ++ " >=") := h.append (by decide) (by decide)
    have hlast : IsOperand (column ++ " <=") := h.append (by decide) (by decide)
    have hboth := legible_and (hfirst.append hplaceholder hstart) (hlast.append hplaceholder hstart)
    -- the operators are cut at their last space, so that each bound is an operand of its own
    have hge : " >= " = " >=" ++ " " := by decide
    have hle : " <= " = " <=" ++ " " := by decide
    rw [hge, hle]
    simpa only [String.append_assoc] using hboth
  unfold bucketForm
  simp only
  refine hbucket _ ?_
  split
  · cases dialect <;> decide
  · cases dialect <;> decide

/-- Every form that the condition of a field can have. -/
theorem legible_plainForms (hroles : IsOperand (entity.column "roles_mask"))
    (h : IsOperand column) (fuzzy : Bool) (type : FieldType) :
    ∀ form ∈ plainForms dialect entity column fuzzy type, Legible .disjunction form.1 := by
  have hequal := legible_of_isOperand (isOperand_equalForm h)
  have hmask : IsOperand ("(" ++ entity.column "roles_mask" ++ " & ?) > 0") := by
    have hbits : HasTokens Paired (entity.column "roles_mask" ++ " & ?") :=
      (hroles.append (by decide) (by decide)).paired
    have hwhole : IsOperand ("(" ++ (entity.column "roles_mask" ++ " & ?") ++ ")" ++ " > 0") :=
      IsOperand.append_right hbits.enclosed (by decide) (by decide)
    -- the brackets are regrouped around the operand they enclose
    have hpost : " & ?) > 0" = " & ?" ++ ")" ++ " > 0" := by decide
    rw [hpost]
    simpa only [String.append_assoc] using hwhole
  unfold plainForms
  -- the forms by types of fields; equality and match are single operands
  split
  case h_1 => exact legible_polymorphicForms h
  case h_2 | h_3 | h_4 | h_5 => exact List.forall_mem_singleton.mpr hequal
  case h_6 => exact List.forall_mem_singleton.mpr (legible_of_isOperand hmask)
  case h_7 | h_8 => exact List.forall_mem_singleton.mpr (legible_bucketForm h _)
  case h_9 => exact legible_timeForms h
  case h_10 | h_11 | h_12 | h_13 | h_14 => exact legible_numberForms h
  case h_15 | h_16 | h_17 =>
    exact List.forall_mem_singleton.mpr (legible_of_isOperand (isOperand_textForm h fuzzy))
  all_goals exact List.forall_mem_nil _

private theorem paired_placeholders (n : Nat) : HasTokens Paired (KeySet.placeholders n) := by
  unfold KeySet.placeholders
  induction n with
  | zero => decide
  | succ n ih =>
    cases n with
    | zero => decide
    | succ n =>
      -- The comma belongs to the placeholder before it.
      have hfirst : HasTokens Paired "?," := by decide
      have hcomma : "?" ++ ", " = "?," ++ " " := by decide
      rw [List.replicate_succ, List.replicate_succ, String.intercalate_cons_cons, hcomma,
        String.append_assoc, ← List.replicate_succ]
      exact hfirst.append ih.blank_append (startsApart_append (by decide) _) fun _ _ =>
        Paired.append

private theorem isOperand_inList (h : IsOperand column) (keys : KeySet) :
    IsOperand (keys.inList column).sql := by
  -- the brackets close over the list of placeholders, which is one operand with them
  have hmember : HasTokens Unjoined
      (" IN " ++ ("(" ++ KeySet.placeholders keys.members.length ++ ")")) := by
    have hin : HasTokens Unjoined " IN " := by decide
    refine hin.append (paired_placeholders _).enclosed ?_ fun _ _ => Unjoined.append
    rw [String.append_assoc]
    exact startsApart_append (by decide) _
  have hwhole := h.append hmember (startsApart_append (by decide) _)
  have hpre : " IN (" = " IN " ++ "(" := by decide
  rw [KeySet.inList_eq, KeySet.memberText, hpre]
  simpa only [String.append_assoc] using hwhole

private theorem legible_anyTextForm {fields : List String}
    (h : ∀ field ∈ fields, IsOperand (entity.sqlColumn field)) (fuzzy : Bool) :
    Legible .disjunction (anyTextForm dialect entity fields fuzzy).1 := by
  unfold anyTextForm
  cases fields with
  | nil =>
    have hnever : IsOperand "1=0" := by decide
    exact legible_of_isOperand hnever
  -- the first match stands alone, and each of the others follows an OR
  | cons field rest =>
    obtain ⟨hfield, hrest⟩ := List.forall_mem_cons.mp h
    have hothers : ∀ text ∈ rest.map fun field =>
        (textForm dialect fuzzy (entity.sqlColumn field)).1, Legible .conjunction text := by
      intro text htext
      obtain ⟨other, hother, rfl⟩ := List.mem_map.mp htext
      exact (Legible.operand (isOperand_textForm (hrest other hother) fuzzy)).conjunction
    exact (legible_of_isOperand (isOperand_textForm hfield fuzzy)).intercalate_or hothers

/-! ## The conditions of searches -/

private theorem legible_of_plainCondition (hroles : IsOperand (entity.column "roles_mask"))
    (h : IsOperand column) {field text : String} {fuzzy : Bool} {type : FieldType} {term : Value.Term}
    {condition : Fragment}
    (hcondition :
      plainCondition dialect entity field column fuzzy text type term = .ok condition) :
    Legible .disjunction condition.sql := by
  have hform := form_of_plainCondition hcondition
  exact legible_plainForms hroles h fuzzy type condition.form hform

private theorem legible_anyCondition (hkey : IsOperand entity.keyColumn) (value : Json)
    {options : SearchAnyOptions}
    (h : ∀ field ∈ options.fields.getD entity.searchFields, IsOperand (entity.sqlColumn field)) :
    Legible .disjunction (anyCondition dialect entity value options).2.sql := by
  unfold anyCondition
  split
  · exact legible_of_isOperand (isOperand_inList hkey _)
  · have htext : (anyTextCondition dialect entity (options.fields.getD entity.searchFields)
        options.fuzzy value.typedText).sql = _ := congrArg Prod.fst (form_anyTextCondition _ _ _)
    simp only
    rw [htext]
    exact legible_anyTextForm h options.fuzzy

end Compile

/-! ## Columns in conditions -/

/-- The columns that an entity puts into conditions on its own account are one operand each. -/
structure Entity.HasOperands (entity : Entity) : Prop where
  keyColumn : IsOperand entity.keyColumn
  rolesMask : IsOperand (entity.column "roles_mask")
  /-- The columns in which the keys of associations are looked for. -/
  associations : ∀ association ∈ entity.catalog.associations,
    IsOperand (qualified entity.table (association.ownColumn entity.asTarget))

/-- It is enough that the names of the table and of these columns are made of ordinary characters. -/
theorem Entity.HasOperands.of_ordinary {entity : Entity}
    (htable : ∀ c ∈ entity.table.toList, IsOrdinary c)
    (hkey : ∀ c ∈ entity.primaryKey.toList, IsOrdinary c)
    (hown : ∀ association ∈ entity.catalog.associations,
      ∀ c ∈ (association.ownColumn entity.asTarget).toList, IsOrdinary c) : entity.HasOperands where
  keyColumn := .qualified htable hkey
  rolesMask := .qualified htable (by decide)
  associations association hassociation := .qualified htable (hown association hassociation)

/-! ## Searches -/

namespace Compile

variable {settings : Settings} {entity : Entity}

private theorem addressCondition_legible (hentity : entity.HasOperands) (field : String) (value : Json)
    (fuzzy : Bool) :
    (addressCondition settings entity field value fuzzy).Ensures {} fun condition =>
      Legible .disjunction condition.sql := by
  unfold addressCondition
  split
  · exact Ensures.fail _
  · refine (Ensures.any _).bind fun found _ => ?_
    refine (Ensures.any _).bind fun rows _ => ?_
    refine (Ensures.any _).bind fun keys _ => ?_
    exact Ensures.pure (legible_of_isOperand (isOperand_inList hentity.keyColumn keys))

private theorem associationCondition_legible (hentity : entity.HasOperands) {association : Association}
    (hassociation : association ∈ entity.catalog.associations) (value : Json) (fuzzy : Bool) :
    (associationCondition settings entity association value fuzzy).Ensures {} fun condition =>
      Legible .disjunction condition.sql := by
  have hcolumn := hentity.associations association hassociation
  refine (associationCondition_column association value fuzzy).mono ?_
  rintro condition ⟨keys, rfl⟩
  exact legible_of_isOperand (isOperand_inList hcolumn keys)

/-- A search adds a condition that can be read, if it compares with a column that is one operand. -/
theorem searchClause_legible (hentity : entity.HasOperands) {field : String} (value : Json)
    {options : SearchOptions} (hcolumn : IsOperand (entity.columnFor field options.sqlColumn)) :
    (searchClause settings entity field value options).Ensures {} fun clause =>
      ∀ r : Relation, r.IsLegible → (clause.addTo r).IsLegible := by
  unfold searchClause
  simp only
  split
  · -- An aggregate is compared in the HAVING clause.
    refine Ensures.note.bind fun _ _ => ?_
    exact Ensures.pure fun r hr => hr.having (legible_of_isOperand (isOperand_equalForm hcolumn))
  refine (Ensures.any _).bind fun term _ => ?_
  refine Ensures.note.bind fun _ _ => ?_
  split
  · have hnull : IsOperand (entity.columnFor field options.sqlColumn ++ " IS NULL") :=
      hcolumn.append (by decide) (by decide)
    exact Ensures.pure fun r hr => hr.filter (legible_of_isOperand hnull)
  split
  · refine (Ensures.ofExcept (fun association => association ∈ entity.catalog.associations)
      fun association h => Entity.mem_of_resolveWith (require_eq_ok.mp h)).bind
        fun association hassociation => ?_
    refine (associationCondition_legible hentity hassociation value _).bind fun f hf => ?_
    exact Ensures.pure fun r hr => hr.filter hf
  split
  · refine (addressCondition_legible hentity field value _).bind fun f hf => ?_
    exact Ensures.pure fun r hr => hr.filter hf
  · refine (Ensures.ofExcept (fun f : Fragment => Legible .disjunction f.sql)
      fun f h => legible_of_plainCondition hentity.rolesMask hcolumn h).bind fun f hf => ?_
    exact Ensures.pure fun r hr => hr.filter hf

end Compile

/-! ## Series of requests -/

/-- What a request compares with is one operand. Orderings compare with nothing. -/
def Request.HasOperands (entity : Entity) : Request → Prop
  | .order _ _ _ => True
  | .search field _ options => IsOperand (entity.columnFor field options.sqlColumn)
  | .searchAny _ options =>
    ∀ field ∈ options.fields.getD entity.searchFields, IsOperand (entity.sqlColumn field)

/-- A request keeps the conditions of a relation legible. -/
theorem Request.compile_legible {settings : Settings} {entity : Entity}
    (hentity : entity.HasOperands) {request : Request} (hrequest : request.HasOperands entity)
    {r : Relation} (hr : r.IsLegible) :
    (request.compile ⟨settings, entity, some r⟩).Ensures {} Relation.IsLegible := by
  have hbound : (Compiler.bound ⟨settings, entity, some r⟩).Ensures {} fun bound => bound = r :=
    Ensures.pure rfl
  cases request with
  | order field direction options =>
    refine hbound.bind ?_
    rintro _ rfl
    refine (Ensures.any _).bind fun expressions _ => ?_
    refine Ensures.pure ?_
    -- an ordering leaves both lists of conditions as they are
    split
    · exact ⟨hr.conditions, hr.havings⟩
    · exact ⟨hr.conditions, hr.havings⟩
  | search field value options =>
    refine hbound.bind ?_
    rintro _ rfl
    refine (Compile.searchClause_legible hentity value hrequest).bind fun clause hclause => ?_
    exact Ensures.pure (hclause _ hr)
  | searchAny value options =>
    refine hbound.bind ?_
    rintro _ rfl
    refine Ensures.note.bind fun _ _ => ?_
    exact Ensures.pure (hr.filter (Compile.legible_anyCondition hentity.keyColumn value hrequest))

/-- The clauses of a statement say that all conditions of the relation hold, for every relation with
conditions that can be read. That is so for all relations that a series of requests leads to, if it
starts from such a relation and compares with columns that are one operand each. -/
theorem clauses_conjoin :
    (∀ r : Relation, r.IsLegible → ∀ dialect projection, r.Conjoined dialect projection) ∧
      ∀ {σ : Type} (backend : Backend σ) (settings : Settings) (entity : Entity)
        (requests : List Request) (r : Relation) (s : σ), entity.HasOperands →
        (∀ request ∈ requests, request.HasOperands entity) → r.IsLegible →
        ∀ call ∈ Compiler.series backend ⟨settings, entity, some r⟩ requests s,
          ∀ r', call.result = .ok r' →
            r'.IsLegible ∧ ∀ dialect projection, r'.Conjoined dialect projection := by
  refine ⟨fun r hr dialect projection => hr.conjoined dialect projection, ?_⟩
  intro σ backend settings entity requests r s hentity hrequests hr call hcall r' hr'
  -- the series lemma asks for a relation between a call's bounds and results too; here it is trivial
  have hstep : ∀ request ∈ requests, ∀ r : Relation, r.IsLegible →
      (request.compile ⟨settings, entity, some r⟩).Ensures {} fun r' => r'.IsLegible ∧ True := by
    intro request hrequest r hr
    exact (request.compile_legible hentity (hrequests request hrequest) hr).mono
      fun _ h => ⟨h, trivial⟩
  have hseries : (∀ r', call.result = .ok r' → r'.IsLegible ∧ ∃ r ∈ call.bound, True) ∧ _ :=
    Compiler.forall_mem_series hstep (fun _ _ _ _ _ _ => trivial) hr s
      (fun _ _ _ _ _ _ => trivial) call hcall
  have hlegible := (hseries.1 r' hr').1
  exact ⟨hlegible, fun dialect projection => hlegible.conjoined dialect projection⟩

namespace Compile.Library

/-- A match in one of two fields. -/
def nameOrTitle : Fragment :=
  .join " OR " [.equals "authors.name" (.text "a"), .equals "authors.title" (.text "a")]

/-- The authors of a name or a title, but only the first one. -/
def firstNamed : Relation :=
  (author.relation.filter nameOrTitle).filter (.equals "authors.id" (.integer 1))

/-- A match in two fields, of which one is a call, and then a type or a key. -/
def textSearches : List Request :=
  [.searchAny (.string "crime") { fields := some ["name", "lower(title)"] },
    .search "subject" (.string "Post") { type := some .polymorphicReference }]

private theorem firstNamed_isLegible : firstNamed.IsLegible := by
  have hname : IsOperand ("authors.name" ++ " = ?") := by decide
  have htitle : IsOperand ("authors.title" ++ " = ?") := by decide
  have hid : IsOperand ("authors.id" ++ " = ?") := by decide
  have heither : Legible .disjunction nameOrTitle.sql := by
    unfold nameOrTitle Fragment.join Fragment.equals
    exact (legible_of_isOperand hname).intercalate_or
      (List.forall_mem_singleton.mpr (Legible.operand htitle).conjunction)
  have hnone : author.relation.IsLegible := ⟨List.forall_mem_nil _, List.forall_mem_nil _⟩
  exact (hnone.filter heither).filter (legible_of_isOperand hid)

end Compile.Library

/-- A condition with an OR in it next to another one, and the conditions of two searches that have
an OR in them both. -/
theorem clauses_conjoin_in_library :
    Compile.Library.firstNamed.Conjoined .postgres "*" ∧
      ∀ call ∈ Compile.Library.compiler.series Compile.Library.store Compile.Library.textSearches (),
        ∀ r', call.result = .ok r' →
          r'.IsLegible ∧ ∀ dialect projection, r'.Conjoined dialect projection := by
  have hentity : Compile.Library.compiler.entity.HasOperands :=
    .of_ordinary (by decide) (by decide) (List.forall_mem_singleton.mpr (by decide))
  have hfields : ∀ field ∈ ["name", "lower(title)"],
      IsOperand (Compile.Library.compiler.entity.sqlColumn field) := by decide +kernel
  have hsubject : IsOperand (Compile.Library.compiler.entity.columnFor "subject" none) := by
    decide +kernel
  have hrequests : ∀ request ∈ Compile.Library.textSearches,
      request.HasOperands Compile.Library.compiler.entity :=
    List.forall_mem_cons.mpr ⟨hfields, List.forall_mem_singleton.mpr hsubject⟩
  have hall : Compile.Library.author.relation.IsLegible :=
    ⟨List.forall_mem_nil _, List.forall_mem_nil _⟩
  obtain ⟨hconjoined, hseries⟩ := clauses_conjoin
  exact ⟨hconjoined _ Compile.Library.firstNamed_isLegible _ _,
    hseries _ _ _ _ _ _ hentity hrequests hall⟩

end FieldQuery
