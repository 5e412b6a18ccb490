import FieldQuery.Proofs.Compile.Linking
import FieldQuery.Proofs.Number.Decimals
import FieldQuery.Proofs.Value.Numbers

/-!
# Searches for numbers

A search for a number asks for the rows with this number, or, if it is fuzzy and the number is whole,
for those in a range that starts at the number. A range of seconds always has its start in it. The two
ends of a range of decimals are bound as doubles, which are the same for most neighbours above
`2 ^ 53`; then no number is in the range. Main statement: for which numbers a fuzzy search finds what
an exact one does.
-/

namespace FieldQuery

open Number

/-! ## Numbers in conditions -/

namespace Sql

/-- The number that a parameter stands for. -/
def Param.number? : Param → Option ℚ
  | .integer n => some n.toInt
  | .float x => if x.isFinite then some x.value else none
  | _ => none

/-- The numbers in a column that a condition accepts: an equality, or a range that ends before its
second parameter. -/
def Fragment.Accepts (condition : Fragment) (column : String) (v : ℚ) : Prop :=
  match condition.params.map Param.number? with
  | [some p] => condition.sql = column ++ " = ?" ∧ v = p
  | [some p, some q] =>
    (condition.sql = column ++ " >= ? AND " ++ column ++ " < ?" ∧ p ≤ v ∧ v < q) ∨
      (condition.sql = column ++ " <= ? AND " ++ column ++ " > ?" ∧ v ≤ p ∧ q < v)
  | _ => False

end Sql

namespace Compile

open FieldQuery.Compilation FieldQuery.Sql FieldQuery.Value

variable {column text : String} {v p q : ℚ} {value bound : Param}

private theorem accepts_equals (hvalue : value.number? = some p) :
    (Fragment.equals column value).Accepts column v ↔ v = p := by
  simp [Fragment.Accepts, Fragment.equals, hvalue]

/-- The two kinds of ranges differ in the sign that follows the column. -/
theorem range_texts_ne (column : String) :
    column ++ " >= ? AND " ++ column ++ " < ?" ≠ column ++ " <= ? AND " ++ column ++ " > ?" := by
  intro h
  have hlist := congrArg String.toList h
  simp at hlist

private theorem accepts_widened (hvalue : value.number? = some p) (hbound : bound.number? = some q)
    (negative : Bool) :
    (widened column value bound negative).Accepts column v ↔
      if negative then v ≤ p ∧ q < v else p ≤ v ∧ v < q := by
  cases negative <;>
    simp [Fragment.Accepts, widened, hvalue, hbound, range_texts_ne, (range_texts_ne column).symm]

/-! ## Decimals -/

private theorem number?_decimalParam (d : Decimal) :
    (decimalParam d).number? = some d.toBinary64.value := by
  simp [decimalParam, Param.number?, d.isFinite_toBinary64]

/-- An exact search for a decimal, and a fuzzy one for a decimal with a point, ask for its double. -/
theorem accepts_exactDecimal (d : Decimal) :
    (decimalCondition false column text d).Accepts column v ↔ v = d.toBinary64.value := by
  have hcondition : decimalCondition false column text d =
      Fragment.equals column (decimalParam d) := by
    unfold decimalCondition
    dsimp only
    split <;> rfl
  rw [hcondition, accepts_equals (number?_decimalParam d)]

/-- Whether a fuzzy search for a decimal asks for a range: the decimal was typed without a point, and
the next whole number, away from zero, is a decimal too. -/
def IsBare (text : String) (d : Decimal) : Prop :=
  '.' ∉ text.toList ∧ d.mantissa + 1 < 2 ^ 96

private theorem decimalCondition_of_not_isBare {d : Decimal} (hd : '.' ∉ text.toList → d.scale = 0)
    (hbare : ¬ IsBare text d) :
    decimalCondition true column text d = .equals column (decimalParam d) := by
  unfold decimalCondition
  dsimp only
  -- with a point nothing is widened; without one the next mantissa has no room
  by_cases hpoint : '.' ∈ text.toList
  · split
    · simp [hpoint]
    · rfl
  · have hnext : ¬ d.mantissa + 1 < 0x1000000000000000000000000 := fun h => hbare ⟨hpoint, h⟩
    rw [Decimal.next_eq (hd hpoint), dif_neg hnext]

/-- The range goes from the double of the number to that of the next one. -/
theorem accepts_of_isBare {d : Decimal} (hd : '.' ∉ text.toList → d.scale = 0)
    (hbare : IsBare text d) :
    (decimalCondition true column text d).Accepts column v ↔
      if d.isNegative then v ≤ -roundedNat d.mantissa ∧ -roundedNat (d.mantissa + 1) < v
      else roundedNat d.mantissa ≤ v ∧ v < roundedNat (d.mantissa + 1) := by
  obtain ⟨hpoint, hnext⟩ := hbare
  have hscale := hd hpoint
  -- without a point the scale is zero, so the step to the bound is one unit of the mantissa
  have hwhole : d.isWhole = true := by
    simp [Decimal.isWhole, hscale, tenTo, Nat.mod_one]
  have hnext' : d.mantissa + 1 < 0x1000000000000000000000000 := hnext
  unfold decimalCondition
  dsimp only
  rw [Decimal.next_eq hscale]
  simp only [hnext', hwhole, hpoint, dite_true, List.contains_eq_mem, decide_false, Bool.not_false,
    Bool.and_true, if_true]
  rw [accepts_widened (number?_decimalParam d) (number?_decimalParam _),
    Decimal.value_toBinary64 hscale, Decimal.value_toBinary64 rfl]
  -- a negative number widens downwards, and the two bounds swap
  cases hsign : d.isNegative <;> simp [Decimal.isNegative]

/-- A range of decimals has its own start and the number it was made of in it, or it is empty. -/
theorem accepts_start_of_isBare {d : Decimal} (hd : '.' ∉ text.toList → d.scale = 0)
    (hbare : IsBare text d) :
    ((decimalCondition true column text d).Accepts column d.toBinary64.value ↔
      Separated d.mantissa) ∧
    ((decimalCondition true column text d).Accepts column d.value ↔ Separated d.mantissa) := by
  have hscale := hd hbare.1
  have hlt : (roundedNat d.mantissa : ℚ) < roundedNat (d.mantissa + 1) ↔ Separated d.mantissa := by
    rw [Nat.cast_lt, roundedNat_lt_succ_iff]
  have hbetween (h : Separated d.mantissa) :
      (roundedNat d.mantissa : ℚ) ≤ d.mantissa ∧ (d.mantissa : ℚ) < roundedNat (d.mantissa + 1) := by
    exact_mod_cast h.between
  rw [accepts_of_isBare hd hbare, accepts_of_isBare hd hbare, Decimal.value_toBinary64 hscale,
    Decimal.value_of_whole hscale]
  -- below zero the bounds are mirrored, which changes neither comparison
  cases d.isNegative
  · simp only [Bool.false_eq_true, if_false, le_refl, true_and]
    exact ⟨hlt, fun h => hlt.mp (h.1.trans_lt h.2), hbetween⟩
  · simp only [if_true, le_refl, true_and, neg_le_neg_iff, neg_lt_neg_iff]
    exact ⟨hlt, fun h => hlt.mp (h.1.trans_lt h.2), hbetween⟩

/-! ## Durations -/

private theorem accepts_exactDuration (seconds : Int64) :
    (durationCondition false column text seconds).Accepts column v ↔ v = seconds.toInt := by
  have hcondition : durationCondition false column text seconds =
      Fragment.equals column (.integer seconds) := by
    unfold durationCondition
    dsimp only
    split <;> rfl
  rw [hcondition, accepts_equals rfl]

/-- A minute is not empty, so a fuzzy search for a duration always finds its seconds. -/
theorem accepts_fuzzyDuration (seconds : Int64) :
    (durationCondition true column text seconds).Accepts column seconds.toInt := by
  unfold durationCondition
  dsimp only
  -- the bound is one second further out, unless it overflows
  split
  · next bound hbound =>
    have hbound := Text.toInt64?_eq_some_iff.mp hbound
    split
    · rw [accepts_widened rfl rfl, hbound]
      by_cases hnegative : seconds.toInt < 0 <;> simp [hnegative]
    · exact (accepts_equals rfl).mpr rfl
  · exact (accepts_equals rfl).mpr rfl

/-! ## The search -/

/-- The types of the fields in which a fuzzy search for a number may ask for a range. Percentages are
compared with whole points if the column holds integers. -/
def WidensNumbers (entity : Entity) (field : String) (type : FieldType) : Prop :=
  type = .decimal ∨ type = .float ∨ type = .currency ∨ type = .duration ∨
    (type = .percentage ∧ entity.schema.columnType? field ≠ some .integer)

/-- A decimal that was read from a value without a point in its text has no places. -/
theorem scale_of_decimalOf {d : Decimal} (h : decimalOf text = .ok d) (hpoint : '.' ∉ text.toList) :
    d.scale = 0 := by
  have hnumeric : '.' ∉ numericChars text.toList :=
    fun hmem => hpoint (List.mem_of_mem_filter hmem)
  unfold decimalOf at h
  split at h
  · cases h
  · rcases hread : Decimal.read (numericChars text.toList) with fault | d' <;> rw [hread] at h
    · cases h
    · cases h
      exact Decimal.scale_of_read hnumeric hread

/-- What a value for such a field is read as. -/
theorem term_of_parseValue {entity : Entity} {field : String} {type : FieldType} {json : Json}
    {term : Term} (htype : WidensNumbers entity field type)
    (hterm : entity.parseValue type json = .ok term) (hnull : term ≠ .null) :
    (type ≠ .duration ∧ ∃ d, term = .decimal d ∧ ('.' ∉ json.typedText.toList → d.scale = 0)) ∨
      (type = .duration ∧ ∃ seconds, term = .duration seconds) := by
  unfold Entity.parseValue at hterm
  split at hterm
  · cases hterm
    exact absurd rfl hnull
  · next hmarker =>
    -- the types read as decimals differ in name only
    have hdecimal (htype : type ≠ .duration)
        (h : (reported type json.typedText (decimalOf json.typedText)).map Term.decimal = .ok term) :
        type ≠ .duration ∧ ∃ d, term = .decimal d ∧ ('.' ∉ json.typedText.toList → d.scale = 0) := by
      rcases hd : decimalOf json.typedText with fault | d <;> rw [hd] at h <;> cases h
      exact ⟨htype, d, rfl, scale_of_decimalOf hd⟩
    rcases htype with rfl | rfl | rfl | rfl | ⟨rfl, -⟩ <;>
      simp only [Value.parseValue, hmarker, Bool.false_eq_true, if_false] at hterm
    · exact Or.inl (hdecimal (by decide) hterm)
    · exact Or.inl (hdecimal (by decide) hterm)
    · exact Or.inl (hdecimal (by decide) hterm)
    · rcases hseconds : secondsOf json with fault | seconds <;> rw [hseconds] at hterm <;> cases hterm
      exact Or.inr ⟨rfl, seconds, rfl⟩
    · exact Or.inl (hdecimal (by decide) hterm)

private theorem plainCondition_of_decimal {dialect : Dialect} {entity : Entity} {field : String}
    {type : FieldType} (htype : WidensNumbers entity field type) (hduration : type ≠ .duration)
    (fuzzy : Bool) (d : Decimal) :
    plainCondition dialect entity field column fuzzy text type (.decimal d) =
      .ok (decimalCondition fuzzy column text d) := by
  rcases htype with rfl | rfl | rfl | rfl | ⟨rfl, hcolumn⟩
  · rfl
  · rfl
  · rfl
  · exact absurd rfl hduration
  · exact if_neg hcolumn

private theorem searchClause_of_plainCondition {settings : Settings} {entity : Entity} {field : String}
    {json : Json} {options : SearchOptions} {type : FieldType} {term : Term} {condition : Fragment}
    (hcolumn : isAggregate (entity.columnFor field options.sqlColumn) = false)
    (hresolved : (entity.resolveWith field options.type).type = type)
    (htype : WidensNumbers entity field type)
    (hterm : entity.parseValue type json = .ok term) (hnull : term ≠ .null)
    (hcondition : plainCondition settings.dialect entity field
      (entity.columnFor field options.sqlColumn) options.fuzzy json.typedText type term =
        .ok condition) :
    searchClause settings entity field json options = do
      .note (.search type)
      return .condition condition := by
  apply searchClause_of_plain hcolumn hresolved ?_ hterm (fun h => hnull h.1) hcondition
  rcases htype with rfl | rfl | rfl | rfl | ⟨rfl, -⟩ <;> exact ⟨rfl, by decide⟩

private theorem run_search_of_plainCondition {σ : Type} (backend : Backend σ) (s : σ)
    {compiler : Compiler}
    (bound : Relation) {field : String} {json : Json} {options : SearchOptions} {term : Term}
    {condition : Fragment}
    (hcolumn : isAggregate (compiler.entity.columnFor field options.sqlColumn) = false)
    (htype : WidensNumbers compiler.entity field
      (compiler.entity.resolveWith field options.type).type)
    (hterm : compiler.entity.parseValue (compiler.entity.resolveWith field options.type).type json =
      .ok term) (hnull : term ≠ .null)
    (hcondition : plainCondition compiler.settings.dialect compiler.entity field
      (compiler.entity.columnFor field options.sqlColumn) options.fuzzy json.typedText
        (compiler.entity.resolveWith field options.type).type term = .ok condition) :
    ((compiler.bind bound).search field json options).run backend s =
      (.ok (bound.filter condition),
        backend.count (.search (compiler.entity.resolveWith field options.type).type) s) := by
  rw [run_search_of_searchClause backend s bound
    (searchClause_of_plainCondition hcolumn rfl htype hterm hnull hcondition)]
  rfl

/-- A search for a number asks for the rows with this number, and a fuzzy search asks for them as
well, unless it asks for a range of decimals: this one is empty if the number and the next one are the
same double, and otherwise has both the double and the number itself in it. -/
theorem fuzzy_finds_number {σ : Type} (backend : Backend σ) (s : σ) (compiler : Compiler)
    (bound : Relation) (field : String) (json : Json) (options : SearchOptions) (term : Term)
    (hcolumn : isAggregate (compiler.entity.columnFor field options.sqlColumn) = false)
    (htype : WidensNumbers compiler.entity field
      (compiler.entity.resolveWith field options.type).type)
    (hterm : compiler.entity.parseValue (compiler.entity.resolveWith field options.type).type json =
      .ok term) (hnull : term ≠ .null) :
    let column := compiler.entity.columnFor field options.sqlColumn
    let counted := backend.count (.search (compiler.entity.resolveWith field options.type).type) s
    ∃ (exact fuzzy : Fragment) (number : ℚ),
      ((compiler.bind bound).search field json { options with fuzzy := false }).run backend s =
        (.ok (bound.filter exact), counted) ∧
      ((compiler.bind bound).search field json { options with fuzzy := true }).run backend s =
        (.ok (bound.filter fuzzy), counted) ∧
      (∀ v, exact.Accepts column v ↔ v = number) ∧
      (fuzzy.Accepts column number ↔
        ∀ d, term = .decimal d → IsBare json.typedText d → Separated d.mantissa) ∧
      ∀ d, term = .decimal d → IsBare json.typedText d →
        (fuzzy.Accepts column d.value ↔ Separated d.mantissa) := by
  intro column counted
  rcases term_of_parseValue htype hterm hnull with
    ⟨hduration, d, rfl, hscale⟩ | ⟨hduration, seconds, rfl⟩
  · refine ⟨decimalCondition false column json.typedText d,
      decimalCondition true column json.typedText d, d.toBinary64.value, ?_, ?_,
      fun v => accepts_exactDecimal d, ?_, ?_⟩
    · exact run_search_of_plainCondition backend s bound hcolumn htype hterm hnull
        (plainCondition_of_decimal htype hduration false d)
    · exact run_search_of_plainCondition backend s bound hcolumn htype hterm hnull
        (plainCondition_of_decimal htype hduration true d)
    · -- Only a bare number has a range; any other is searched for exactly in both cases.
      by_cases hbare : IsBare json.typedText d
      · rw [(accepts_start_of_isBare hscale hbare).1]
        simp [hbare]
      · rw [decimalCondition_of_not_isBare hscale hbare, accepts_equals (number?_decimalParam d)]
        simp [hbare]
    · rintro _ ⟨⟩ hbare
      exact (accepts_start_of_isBare hscale hbare).2
  · have hcondition (fuzzy : Bool) : plainCondition compiler.settings.dialect compiler.entity field
        column fuzzy json.typedText (compiler.entity.resolveWith field options.type).type
          (.duration seconds) = .ok (durationCondition fuzzy column json.typedText seconds) := by
      rw [hduration]
      rfl
    refine ⟨durationCondition false column json.typedText seconds,
      durationCondition true column json.typedText seconds, seconds.toInt, ?_, ?_,
      fun v => accepts_exactDuration seconds, ?_, fun d h => by cases h⟩
    · exact run_search_of_plainCondition backend s bound hcolumn htype hterm hnull (hcondition false)
    · exact run_search_of_plainCondition backend s bound hcolumn htype hterm hnull (hcondition true)
    · exact iff_of_true (accepts_fuzzyDuration seconds) fun d h => by cases h

namespace Library

/-- A fund has an amount of money. -/
def fund : Entity :=
  { entityOf (targetOf "Fund" "fund" "funds") [] with
    schema := { typeName := "Fund", columns := [("amount", .decimal)] } }

/-- All funds. -/
def funds : Compiler :=
  .all ⟨.sqlite, 100, 3⟩ fund

/-- A debt of three is found by a fuzzy search as well as by an exact one. -/
theorem fuzzy_finds_debt :
    ∃ (exact fuzzy : Fragment) (number : ℚ),
      ((funds.bind fund.relation).search "amount" (.string "-3") { fuzzy := false }).run store () =
        (.ok (fund.relation.filter exact), ()) ∧
      ((funds.bind fund.relation).search "amount" (.string "-3") {}).run store () =
        (.ok (fund.relation.filter fuzzy), ()) ∧
      (∀ v, exact.Accepts "funds.amount" v ↔ v = number) ∧ fuzzy.Accepts "funds.amount" number := by
  have hterm : fund.parseValue (fund.resolveWith "amount" none).type (.string "-3") =
      .ok (.decimal ⟨true, 3, 0, by decide, by decide⟩) := by
    decide +kernel
  obtain ⟨exact, fuzzy, number, hexact, hfuzzy, haccepts, hfinds, -⟩ :=
    fuzzy_finds_number store () funds fund.relation "amount" (.string "-3") {} _ (by decide +kernel)
      (Or.inl (by decide +kernel)) hterm (by decide)
  -- no number of three digits is beyond what the mantissa separates
  refine ⟨exact, fuzzy, number, hexact, hfuzzy, haccepts, hfinds.mpr ?_⟩
  rintro _ ⟨⟩ -
  decide +kernel

/-- From `2 ^ 53` up to the next whole number there is no double, and a fuzzy search finds nothing. -/
theorem fuzzy_misses_number :
    let start : Param := .float ⟨0x4340000000000000⟩
    ∃ (exact fuzzy : Fragment) (number : ℚ),
      ((funds.bind fund.relation).search "amount" (.string "9007199254740992")
        { fuzzy := false }).run store () = (.ok (fund.relation.filter exact), ()) ∧
      ((funds.bind fund.relation).search "amount" (.string "9007199254740992") {}).run store () =
        (.ok (fund.relation.filter fuzzy), ()) ∧
      fuzzy.params = [start, start] ∧
      exact.Accepts "funds.amount" number ∧ ¬ fuzzy.Accepts "funds.amount" number := by
  -- both bounds of the filter round to one number
  intro start
  refine ⟨.equals "funds.amount" start, widened "funds.amount" start start false,
    Binary64.value ⟨0x4340000000000000⟩, by decide +kernel, by decide +kernel, rfl, ?_, ?_⟩
  · exact (accepts_equals rfl).mpr rfl
  · rw [accepts_widened rfl rfl]
    simp

end Library

end Compile

end FieldQuery
