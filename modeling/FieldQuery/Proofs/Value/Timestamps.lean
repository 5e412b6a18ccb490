import FieldQuery.Value.Parse
import FieldQuery.Proofs.Calendar.Buckets
import FieldQuery.Proofs.Text.Integers
import FieldQuery.Proofs.Text.Trimming

/-!
# What a text stands for as a date

A text that is read as a date stands for the first moment of a bucket, with one exception: a text
that names the afternoon but has no number for an hour stands for noon, because the mark moves the
hour that was filled in. Main statement: what is known of the components of such a moment, by the
number of runs of digits in the text.
-/

namespace FieldQuery.Value

open FieldQuery.Calendar FieldQuery.Text

/-! ## Results -/

/-- Two steps succeed exactly if the first does and the second does with its result. -/
theorem bind_eq_ok_iff {α β : Type} {result : Except ParseFault α} {f : α → Except ParseFault β}
    {b : β} : (result >>= f) = .ok b ↔ ∃ a, result = .ok a ∧ f a = .ok b := by
  cases result with
  | error fault => exact ⟨nofun, fun ⟨a, ha, _⟩ => nomatch ha⟩
  | ok a => exact ⟨fun h => ⟨a, rfl, h⟩, fun ⟨a', ha, h⟩ => by cases ha; exact h⟩

/-- A value that may be missing is there exactly if there is no fault. -/
theorem orFault_eq_ok_iff {α : Type} {fault : ParseFault} {result : Option α} {a : α} :
    orFault fault result = .ok a ↔ result = some a := by
  cases result <;> simp [orFault]

/-! ## Numbers -/

/-- ASCII digits have one byte each. -/
theorem byteLength_of_isDigit {run : List Char} (h : ∀ c ∈ run, c.isDigit) :
    byteLength run = run.length := by
  -- The size is counted up from what was counted before.
  have hfrom : ∀ n, run.foldl (fun n c => n + c.utf8Size) n = n + run.length := by
    induction run with
    | nil => simp
    | cons c run ih =>
      intro n
      have hdigit := toNat_of_isDigit (h c List.mem_cons_self)
      have hascii : c.toNat ≤ 127 := by omega
      have hsize : c.utf8Size = 1 :=
        Char.utf8Size_eq_one_iff.mpr (UInt32.le_iff_toNat_le.mpr hascii)
      rw [List.foldl_cons, hsize, ih (fun d hd => h d (List.mem_cons_of_mem c hd)),
        List.length_cons]
      omega
  rw [byteLength, hfrom]
  omega

/-- The number of a year has at most four digits. -/
theorem readNat?_le_of_isYearRun {run : List Char} {n : Nat} (hyear : isYearRun run)
    (h : readNat? run = some n) : n ≤ 9999 := by
  obtain ⟨-, hdigits, rfl⟩ := readNat?_eq_some_iff.mp h
  have hlength : run.length = 4 := by
    rw [← byteLength_of_isDigit hdigits]
    simpa [isYearRun] using hyear
  have hlt := ofDigitChars_lt hdigits 0
  rw [hlength] at hlt
  omega

/-! ## Runs of digits -/

/-- A run that is read on from a part of it has its characters from the part and the text. -/
theorem mem_of_mem_digitRunsFrom {current text run : List Char} {c : Char}
    (h : run ∈ digitRunsFrom current text) (hc : c ∈ run) : c ∈ current ∨ c ∈ text := by
  induction text generalizing current with
  | nil => grind [digitRunsFrom]
  | cons d text ih => grind [digitRunsFrom]

private theorem mem_of_mem_digitRuns {text run : List Char} {c : Char} (h : run ∈ digitRuns text)
    (hc : c ∈ run) : c ∈ text :=
  (mem_of_mem_digitRunsFrom h hc).resolve_left List.not_mem_nil

/-- The parts of a date are as many as there are runs, and those that come last are missing. -/
structure DateRuns.Fits (assigned : DateRuns) (runs : List (List Char)) : Prop where
  year_mem : assigned.year ∈ runs
  isYearRun : isYearRun assigned.year
  month : runs.length < 2 → assigned.month = none
  day : runs.length < 3 → assigned.day = none
  clock : assigned.clock.length = runs.length - 3

private theorem DateRuns.fits_of_assign {runs : List (List Char)} {assigned : DateRuns}
    (h : DateRuns.assign runs = .ok assigned) : assigned.Fits runs := by
  unfold assign at h
  split at h
  · nomatch h
  next y rest =>
  split at h
  -- The year comes first, and the others follow in the order in which they are written.
  · next hyear =>
    obtain rfl := Except.ok.inj h
    refine ⟨List.mem_cons_self, hyear, fun hshort => ?_, fun hshort => ?_, by simp⟩
    all_goals
      rw [List.length_cons] at hshort
      exact List.getElem?_eq_none (by omega)
  split at h
  -- A month before the year.
  · next y' =>
    split at h
    · next hyear =>
      obtain rfl := Except.ok.inj h
      exact ⟨by simp, hyear, by simp, by simp, by simp⟩
    · nomatch h
  -- A month and a day before the year.
  · next d y' clock =>
    split at h
    · next hyear =>
      obtain rfl := Except.ok.inj h
      exact ⟨by simp, hyear, by simp, by simp, by simp⟩
    · nomatch h
  · nomatch h

/-! ## Moments -/

private theorem componentOr_of_none {least n : Nat} {run : Option (List Char)}
    (h : componentOr least run = .ok n) (hrun : run = none) : n = least := by
  subst hrun
  exact (Except.ok.inj h).symm

/-- The precisions by the number of components, of which there is at least one. -/
theorem ofComponents_cases {n : Nat} (h : 0 < n) :
    n = 1 ∧ Precision.ofComponents n = .year ∨ n = 2 ∧ Precision.ofComponents n = .month ∨
      n = 3 ∧ Precision.ofComponents n = .day ∨ n = 4 ∧ Precision.ofComponents n = .hour ∨
      n = 5 ∧ Precision.ofComponents n = .minute ∨ 6 ≤ n ∧ Precision.ofComponents n = .second := by
  match n with
  | 1 | 2 | 3 | 4 | 5 => simp [Precision.ofComponents]
  | n + 6 => simp [Precision.ofComponents]

private theorem adjustHour_zero (afternoon morning : Bool) :
    adjustHour afternoon morning 0 = if afternoon then 12 else 0 := by
  cases afternoon <;> cases morning <;> rfl

/-- Whether a text stands for a noon: it names the afternoon, and has no number for an hour. -/
def isNoon (text : List Char) : Bool :=
  decide ((digitRuns text).length < 4) && occursIn ['p', 'm'] (asciiLower text)

/-- What is known of the moment of a text: the components that are missing in the text have their
least values, but for the hour if the text names the afternoon. -/
structure Dated (text : List Char) (start : Moment) (p : Precision) : Prop where
  precision : p = .ofComponents (digitRuns text).length
  digit : ∃ c ∈ text, c.isDigit
  year : 0 ≤ start.date.year ∧ start.date.year ≤ 9999
  pos : 0 < (digitRuns text).length
  month : (digitRuns text).length < 2 → start.date.month = 1
  day : (digitRuns text).length < 3 → start.date.day = 1
  hour : (digitRuns text).length < 4 →
    start.time.hour = if occursIn ['p', 'm'] (asciiLower text) then 12 else 0
  minute : (digitRuns text).length < 5 → start.time.minute = 0
  second : (digitRuns text).length < 6 → start.time.second = 0
  microsecond : start.time.microsecond = 0

/-- What is read of a text is the start that the numbers in it name, to their precision. -/
theorem dated_of_timestampOf {text : List Char} {start : Moment} {p : Precision}
    (h : timestampOf text = .ok (start, p)) : Dated text start p := by
  simp only [timestampOf, bind_eq_ok_iff, orFault_eq_ok_iff] at h
  obtain ⟨runs, hassign, year, hyear, month, hmonth, day, hday, hour, hhour, minute, hminute,
    second, hsecond, date, hdate, time, htime, hpure⟩ := h
  obtain ⟨rfl, rfl⟩ := Prod.mk.inj (Except.ok.inj hpure)
  -- Which parts are missing is known from the number of runs, in all three orders.
  have hfits := DateRuns.fits_of_assign hassign
  obtain ⟨hyear', hmonth', hday'⟩ := Date.components_of_of? hdate
  obtain ⟨hhour', hminute', hsecond', hmicrosecond⟩ := TimeOfDay.components_of_of? htime
  obtain ⟨hne, hdigits, -⟩ := readNat?_eq_some_iff.mp hyear
  obtain ⟨c, hc⟩ := List.exists_mem_of_ne_nil _ hne
  have hle := readNat?_le_of_isYearRun hfits.isYearRun hyear
  have hclock : ∀ i, (digitRuns text).length < 4 + i → runs.clock[i]? = none := fun i hshort =>
    List.getElem?_eq_none (by rw [hfits.clock]; omega)
  exact {
    precision := rfl
    digit := ⟨c, mem_of_mem_digitRuns hfits.year_mem hc, hdigits c hc⟩
    year := by
      show 0 ≤ date.year ∧ date.year ≤ 9999
      omega
    pos := List.length_pos_of_mem hfits.year_mem
    month := fun hshort => hmonth'.trans (componentOr_of_none hmonth (hfits.month hshort))
    day := fun hshort => hday'.trans (componentOr_of_none hday (hfits.day hshort))
    hour := fun hshort => by
      obtain rfl := componentOr_of_none hhour (hclock 0 hshort)
      exact hhour'.trans (adjustHour_zero _ _)
    minute := fun hshort => hminute'.trans (componentOr_of_none hminute (hclock 1 hshort))
    second := fun hshort => hsecond'.trans (componentOr_of_none hsecond (hclock 2 hshort))
    microsecond := hmicrosecond }

namespace Dated

variable {text : List Char} {start : Moment} {p : Precision}

/-- The date is the first one of the bucket. -/
theorem firstDay_eq (h : Dated text start p) : p.firstDay start.date = start.date := by
  obtain ⟨hn, hp⟩ | ⟨hn, hp⟩ | ⟨-, hp⟩ | ⟨-, hp⟩ | ⟨-, hp⟩ | ⟨-, hp⟩ := ofComponents_cases h.pos
  · rw [h.precision, hp]
    exact Date.ext_iff.mpr ⟨rfl, (h.month (by omega)).symm, (h.day (by omega)).symm⟩
  · rw [h.precision, hp]
    exact Date.ext_iff.mpr ⟨rfl, rfl, (h.day (by omega)).symm⟩
  all_goals rw [h.precision, hp]; rfl

/-- Without a number for an hour a bucket is a day or more. -/
theorem span_eq_dayMicros (h : Dated text start p) (hshort : (digitRuns text).length < 4) :
    p.span = dayMicros := by
  obtain ⟨-, hp⟩ | ⟨-, hp⟩ | ⟨-, hp⟩ | ⟨hn, -⟩ | ⟨hn, -⟩ | ⟨hn, -⟩ := ofComponents_cases h.pos
  iterate 3
    · rw [h.precision, hp]
      rfl
  all_goals omega

/-- The time of a noon. -/
theorem micros_of_isNoon (h : Dated text start p) (hnoon : isNoon text = true) :
    p.span = dayMicros ∧ start.time.micros = 12 * hourMicros := by
  obtain ⟨hshort, hmark⟩ : (digitRuns text).length < 4 ∧
      occursIn ['p', 'm'] (asciiLower text) = true := by
    simpa [isNoon] using hnoon
  obtain ⟨-, -, -, -, hmicros⟩ := start.time.components
  rw [h.hour hshort, h.minute (by omega), h.second (by omega), h.microsecond, hmark] at hmicros
  exact ⟨h.span_eq_dayMicros hshort, hmicros⟩

/-- Other texts stand for a moment at which a bucket starts. -/
theorem span_dvd_micros (h : Dated text start p) (hnoon : isNoon text = false) :
    p.span ∣ start.time.micros := by
  obtain ⟨-, -, -, -, hmicros⟩ := start.time.components
  have hzero : (digitRuns text).length < 4 → start.time.micros = 0 := by
    intro hshort
    have hmark : occursIn ['p', 'm'] (asciiLower text) = false := by
      simpa [isNoon, hshort] using hnoon
    rw [hmicros, h.hour hshort, h.minute (by omega), h.second (by omega), h.microsecond, hmark]
    rfl
  obtain ⟨hn, -⟩ | ⟨hn, -⟩ | ⟨hn, -⟩ | ⟨hn, hp⟩ | ⟨hn, hp⟩ | ⟨-, hp⟩ := ofComponents_cases h.pos
  -- A bucket of a day or more starts at midnight.
  iterate 3
    · rw [hzero (by omega)]
      exact Nat.dvd_zero _
  · rw [h.precision, hp, hmicros, h.minute (by omega), h.second (by omega), h.microsecond]
    simp only [Precision.span, hourMicros]
    omega
  · rw [h.precision, hp, hmicros, h.second (by omega), h.microsecond]
    simp only [Precision.span, minuteMicros]
    omega
  · rw [h.precision, hp, hmicros, h.microsecond]
    simp only [Precision.span, secondMicros]
    omega

end Dated

/-! ## Values -/

private theorem mem_dropWhile_of_not {p : Char → Bool} {text : List Char} {c : Char} (h : c ∈ text)
    (hc : p c = false) : c ∈ text.dropWhile p := by
  rw [← List.takeWhile_append_dropWhile (p := p) (l := text)] at h
  refine (List.mem_append.mp h).resolve_left fun htake => ?_
  have hall := List.all_eq_true.mp (List.all_takeWhile (p := p) (l := text)) c htake
  simp [hc] at hall

private theorem toLower_of_isDigit {c : Char} (h : c.isDigit) : c.toLower = c := by
  have hc := toNat_of_isDigit h
  refine dif_neg fun hupper => ?_
  have hlow : 65 ≤ c.toNat := UInt32.le_iff_toNat_le.mp hupper.1
  omega

/-- A value whose text has a digit does not ask for rows without a value. -/
theorem isNullMarker_eq_false {value : Json} (h : ∃ c ∈ value.typedText.toList, c.isDigit) :
    value.isNullMarker = false := by
  obtain ⟨c, hc, hdigit⟩ := h
  cases value with
  | null =>
    have hnone : ((Json.null).typedText.toList.any Char.isDigit) = false := by decide
    exact absurd hdigit (List.any_eq_false.mp hnone c hc)
  | string text =>
    have hmem : c ∈ asciiLower (trim text.toList) := by
      have hc' : c ∈ text.toList := by simpa [Json.typedText, Json.typedChars] using hc
      have hblank := isBlank_of_isDecimalDigit (isDecimalDigit_of_isDigit hdigit)
      have htrim : c ∈ trim text.toList :=
        List.mem_reverse.mpr (mem_dropWhile_of_not
          (List.mem_reverse.mpr (mem_dropWhile_of_not hc' hblank)) hblank)
      exact List.mem_map.mpr ⟨c, htrim, toLower_of_isDigit hdigit⟩
    -- The markers are words without digits.
    have hword : ∀ word : List Char, word.any Char.isDigit = false →
        asciiLower (trim text.toList) ≠ word := by
      rintro word hnone rfl
      exact List.any_eq_false.mp hnone c hmem hdigit
    simp only [Json.isNullMarker, List.isEmpty_eq_false_iff, Bool.or_eq_false_iff, beq_eq_false_iff_ne]
    exact ⟨⟨hword _ (by decide), hword _ (by decide)⟩, hword _ (by decide)⟩
  | _ => rfl

end FieldQuery.Value
