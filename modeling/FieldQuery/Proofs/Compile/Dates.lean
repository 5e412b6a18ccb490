import FieldQuery.Proofs.Calendar.Texts
import FieldQuery.Proofs.Compile.Linking
import FieldQuery.Proofs.Value.Timestamps

/-!
# Searches for dates

A search for a text that is read as a date never fails, and asks for the rows from the start to the
end of a bucket of moments. Main statement: which moments these are, and that the two texts of the
condition enclose the texts of exactly these moments; in a field of dates, those of the days that the
bucket meets. A text that names the afternoon without a number for an hour loses the first morning of
its bucket.
-/

namespace FieldQuery.Compile

open FieldQuery.Calendar FieldQuery.Compilation FieldQuery.Sql FieldQuery.Value

variable {start : Moment} {p : Precision} {value : Json}

/-! ## The bucket of a text -/

section Bucket

variable {text : List Char}

private theorem bucketEnd?_of_dated (h : Dated text start p) :
    p.bucketEnd? start = some (p.last start) := by
  obtain ⟨hyear, hyear'⟩ := h.year
  refine p.bucketEnd?_eq_last start (by unfold lastYear; omega) fun hshort => ?_
  refine h.span_dvd_micros ?_
  -- A noon has no hour, so its bucket is a day or more.
  cases hnoon : isNoon text with
  | false => rfl
  | true =>
    have hspan := (h.micros_of_isNoon hnoon).1
    revert hshort hspan
    cases p <;> decide

/-- The moments that a search for a text asks for: those of its bucket, but if the text stands for a
noon, not those of the first morning. -/
theorem le_and_le_last_iff_of_dated (h : Dated text start p) (t : Moment) :
    start ≤ t ∧ t ≤ p.last start ↔
      p.Agrees start t ∧ ¬ (isNoon text = true ∧ t.date = start.date ∧ t.time.hour < 12) := by
  rw [p.le_and_le_last_iff h.firstDay_eq]
  cases hnoon : isNoon text with
  | false =>
    -- The moment is the first one of its bucket, so nothing of the bucket comes before it.
    have hfirst : p.first start = start := by
      refine Moment.ext_iff.mpr ⟨h.firstDay_eq, ?_⟩
      exact Nat.div_mul_cancel (h.span_dvd_micros hnoon)
    have hstart : p.Agrees start t → ¬ (t.date = start.date ∧ t.time.micros < start.time.micros) := by
      intro hagrees hbefore
      have hle := ((p.first_le_and_le_last_iff start t).mpr hagrees).1
      rw [hfirst, Moment.le_iff] at hle
      rw [Date.ext_iff] at hbefore
      omega
    simpa using hstart
  | true =>
    obtain ⟨-, hmicros⟩ := h.micros_of_isNoon hnoon
    have hmorning : t.time.micros < start.time.micros ↔ t.time.hour < 12 := by
      rw [hmicros, TimeOfDay.hour, Nat.div_lt_iff_lt_mul (by decide)]
    rw [hmorning]
    simp

private theorem isCommon_of_dated (h : Dated text start p) :
    start.date.IsCommon ∧ (p.last start).date.IsCommon := by
  have hyear : (p.lastDay start.date).year = start.date.year := by cases p <;> rfl
  exact ⟨h.year, by rw [Date.IsCommon, Precision.last, hyear]; exact h.year⟩

/-- The texts of a condition on moments enclose the texts of the moments between the two. -/
theorem texts_enclose_iff (h : Dated text start p) {t : Moment} (ht : t.date.IsCommon) :
    start.text ≤ t.preciseText ∧ t.preciseText ≤ (p.last start).preciseText ↔
      start ≤ t ∧ t ≤ p.last start := by
  obtain ⟨hstart, hlast⟩ := isCommon_of_dated h
  rw [Moment.text_le_preciseText_iff hstart ht h.microsecond,
    Moment.preciseText_le_preciseText_iff ht hlast]

/-- The texts of a condition on dates enclose the texts of the days of the bucket. -/
theorem dateTexts_enclose_iff (h : Dated text start p) {d : Date} (hd : d.IsCommon) :
    start.date.text ≤ d.text ∧ d.text ≤ (p.last start).date.text ↔
      ∃ u : Moment, u.date = d ∧ p.Agrees start u := by
  obtain ⟨hstart, hlast⟩ := isCommon_of_dated h
  rw [Date.text_le_text_iff hstart hd, Date.text_le_text_iff hd hlast, p.exists_agrees_iff,
    h.firstDay_eq]
  rfl

end Bucket

/-! ## The search -/

private theorem parseValue_of_timestampOf (entity : Entity) {type : FieldType}
    (htype : type = .date ∨ type = .datetime)
    (h : timestampOf value.typedText.toList = .ok (start, p)) :
    entity.parseValue type value = .ok (.moment start p) := by
  -- A text with a number in it is no marker for a missing value.
  have hnull := isNullMarker_eq_false (dated_of_timestampOf h).digit
  obtain rfl | rfl := htype
  all_goals
    simp only [Entity.parseValue, Value.parseValue, hnull, parseTimestamp, h, reported]
    rfl

private theorem searchClause_of_timestampOf (settings : Settings) (entity : Entity) {field : String}
    {options : SearchOptions} {type : FieldType}
    (hcolumn : isAggregate (entity.columnFor field options.sqlColumn) = false)
    (hresolved : (entity.resolveWith field options.type).type = type)
    (htype : type = .date ∨ type = .datetime)
    (h : timestampOf value.typedText.toList = .ok (start, p)) :
    searchClause settings entity field value options = do
      .note (.search type)
      return .condition (bucketCondition settings.dialect type
        (entity.columnFor field options.sqlColumn) start (p.last start)) := by
  have hterm := parseValue_of_timestampOf entity htype h
  have hlast := bucketEnd?_of_dated (dated_of_timestampOf h)
  apply searchClause_of_plain hcolumn hresolved ?_ hterm (fun h => by cases h.1) ?_
  · -- neither type is compiled as an association
    obtain rfl | rfl := htype <;> exact ⟨rfl, by decide⟩
  · obtain rfl | rfl := htype <;> simp only [plainCondition, hlast]

/-- A search for a text that is read as a date asks for the rows from the start of a bucket to its
end, and does not fail. The two parameters of its condition are the texts of these moments, or those
of their days if the field is one of dates. -/
theorem search_selects_bucket {σ : Type} (backend : Backend σ) (s : σ) (compiler : Compiler)
    (bound : Relation) (field : String) (value : Json) (options : SearchOptions) (start : Moment)
    (p : Precision)
    (hcolumn : isAggregate (compiler.entity.columnFor field options.sqlColumn) = false)
    (htype : (compiler.entity.resolveWith field options.type).type = .date ∨
      (compiler.entity.resolveWith field options.type).type = .datetime)
    (htext : timestampOf value.typedText.toList = .ok (start, p)) :
    let type := (compiler.entity.resolveWith field options.type).type
    let column := compiler.entity.columnFor field options.sqlColumn
    let between (placeholder first last : String) : Fragment :=
      ⟨column ++ " >= " ++ placeholder ++ " AND " ++ column ++ " <= " ++ placeholder,
        [.text first, .text last]⟩
    ∃ last condition, p.bucketEnd? start = some last ∧
      ((compiler.bind bound).search field value options).run backend s =
        (.ok (bound.filter condition), backend.count (.search type) s) ∧
      (type = .datetime → condition =
        between compiler.settings.dialect.timestampPlaceholder start.text last.preciseText) ∧
      (type = .date → condition =
        between compiler.settings.dialect.datePlaceholder start.date.text last.date.text) ∧
      ∀ t : Moment, t.date.IsCommon →
        -- A text that stands for a noon misses the first morning of its bucket.
        (start ≤ t ∧ t ≤ last ↔ p.Agrees start t ∧
          ¬ (isNoon value.typedText.toList = true ∧ t.date = start.date ∧ t.time.hour < 12)) ∧
        -- The texts of the condition on a column of moments.
        (start.text ≤ t.preciseText ∧ t.preciseText ≤ last.preciseText ↔ start ≤ t ∧ t ≤ last) ∧
        -- The texts of the condition on a column of dates.
        (start.date.text ≤ t.date.text ∧ t.date.text ≤ last.date.text ↔
          ∃ u : Moment, u.date = t.date ∧ p.Agrees start u) := by
  intro type column between
  have hdated := dated_of_timestampOf htext
  refine ⟨p.last start, bucketCondition compiler.settings.dialect type column start (p.last start),
    bucketEnd?_of_dated hdated, ?_, fun hdatetime => ?_, fun hdate => ?_,
    fun t ht => ⟨?_, ?_, ?_⟩⟩
  · have hclause := searchClause_of_timestampOf compiler.settings compiler.entity hcolumn rfl htype
      htext
    show ((searchClause compiler.settings compiler.entity field value options).bind
      fun clause => .done (clause.addTo bound)).run backend s = _
    rw [hclause]
    rfl
  · rw [hdatetime]
    rfl
  · rw [hdate]
    rfl
  · exact le_and_le_last_iff_of_dated hdated t
  · exact texts_enclose_iff hdated ht
  · exact dateTexts_enclose_iff hdated ht

namespace Library

/-- What is lent out has to be back at some moment. -/
def loan : Entity :=
  { entityOf (targetOf "Loan" "loan" "loans") [] with
    schema := { typeName := "Loan", columns := [("due_at", .datetime)] } }

/-- All loans. -/
def loans : Compiler :=
  .all ⟨.sqlite, 100, 3⟩ loan

/-- A month is asked for as a whole, also the February of a leap year. -/
theorem search_selects_february :
    ((loans.bind loan.relation).search "due_at" (.string "2024-02") {}).run store () =
        (.ok (loan.relation.filter ⟨"loans.due_at >= ? AND loans.due_at <= ?",
          [.text "2024-02-01 00:00:00", .text "2024-02-29 23:59:59.999999"]⟩), ()) ∧
      ∀ t : Moment, t.date.IsCommon →
        ("2024-02-01 00:00:00" ≤ t.preciseText ∧ t.preciseText ≤ "2024-02-29 23:59:59.999999" ↔
          t.date.year = 2024 ∧ t.date.month = 2) := by
  let start : Moment := ⟨⟨2024, 2, 1, by decide⟩, .midnight⟩
  let last : Moment := ⟨⟨2024, 2, 29, by decide⟩, .last⟩
  -- every text involved is closed, so each is read by evaluation
  have htext : timestampOf (Json.string "2024-02").typedText.toList = .ok (start, .month) := by
    decide +kernel
  have hstart : start.text = "2024-02-01 00:00:00" := by decide +kernel
  have hlast : last.preciseText = "2024-02-29 23:59:59.999999" := by decide +kernel
  have hend : Precision.month.bucketEnd? start = some last := by decide +kernel
  have hnoon : isNoon (Json.string "2024-02").typedText.toList = false := by decide +kernel
  obtain ⟨last', condition, hend', hrun, hcondition, -, hbetween⟩ :=
    search_selects_bucket store () loans loan.relation "due_at" (.string "2024-02") {} start .month
      (by decide +kernel) (by decide +kernel) htext
  obtain rfl : last = last' := Option.some.inj (hend.symm.trans hend')
  obtain rfl := hcondition (by decide +kernel)
  refine ⟨hrun.trans (by decide +kernel), fun t ht => ?_⟩
  obtain ⟨hbucket, htexts, -⟩ := hbetween t ht
  -- the general statement speaks of the year, the month and the marker; only the first two are left
  rw [← hstart, ← hlast, htexts, hbucket, hnoon]
  simp only [Precision.Agrees, Moment.components, Precision.components, List.take,
    List.cons.injEq, and_true, Bool.false_eq_true, false_and, not_false_eq_true, start]
  omega

/-- The mark for the afternoon counts within a word, and moves the start of a whole year to noon: a
morning in the year is not found. -/
theorem search_misses_first_morning :
    ∃ (start last t : Moment),
      timestampOf "shipment 2024".toList = .ok (start, .year) ∧
      Precision.year.bucketEnd? start = some last ∧
      ((loans.bind loan.relation).search "due_at" (.string "shipment 2024") {}).run store () =
        (.ok (loan.relation.filter ⟨"loans.due_at >= ? AND loans.due_at <= ?",
          [.text start.text, .text last.preciseText]⟩), ()) ∧
      t.date.IsCommon ∧ Precision.year.Agrees start t ∧
      ¬ (start ≤ t ∧ t ≤ last) ∧
      ¬ (start.text ≤ t.preciseText ∧ t.preciseText ≤ last.preciseText) := by
  refine ⟨⟨⟨2024, 1, 1, by decide⟩, ⟨12 * hourMicros, by decide⟩⟩,
    ⟨⟨2024, 12, 31, by decide⟩, .last⟩, ⟨⟨2024, 1, 1, by decide⟩, ⟨9 * hourMicros, by decide⟩⟩, ?_⟩
  decide +kernel

end Library

end FieldQuery.Compile
