import FieldQuery.Proofs.Value.Durations

/-!
# Forms of durations

A text that is read as a duration is a sign and a number, a clock form or amounts with units, and the
seconds are what this form stands for, rounded to a whole number. Numbers and clock forms are the whole
text. Amounts with units are looked for: any characters with which none of them begins are passed over,
so a text with such characters between them, even digits, is a duration of the amounts alone.
-/

namespace FieldQuery

open Number Text

/-! ## Rounding to whole numbers -/

namespace Number

/-- A whole number next to a rational: at most half a unit away, and even if it is that far. -/
def IsNearestWhole (x : ℚ) (n : ℤ) : Prop :=
  |x - n| ≤ 1 / 2 ∧ (|x - n| = 1 / 2 → Even n)

private theorem isNearestWhole_intCast (n : ℤ) : IsNearestWhole n n := by
  refine ⟨by simp, fun h => absurd h ?_⟩
  norm_num

/-- With the other sign the nearest whole number has the other sign. -/
theorem IsNearestWhole.neg {x : ℚ} {n : ℤ} (h : IsNearestWhole x n) : IsNearestWhole (-x) (-n) := by
  have habs : |-x - ((-n : ℤ) : ℚ)| = |x - n| := by
    rw [Int.cast_neg, ← neg_sub', abs_neg]
  refine ⟨habs ▸ h.1, fun hhalf => ?_⟩
  exact (h.2 (habs ▸ hhalf)).neg

private theorem RoundsTo.isNearestWhole {x : ℚ} {n : ℕ} (h : RoundsTo x n) : IsNearestWhole x n := by
  have hle := h.le_add
  have hge := h.sub_le
  -- both bounds first; at the half the rounded number is the even one
  refine ⟨abs_le.mpr ⟨?_, ?_⟩, fun hhalf => ?_⟩
  · rw [Int.cast_natCast]
    linarith
  · rw [Int.cast_natCast]
    linarith
  · have hmiddle : x = n + 1 / 2 ∨ x = n - 1 / 2 := by
      rw [Int.cast_natCast] at hhalf
      rcases (abs_eq (by norm_num)).mp hhalf with hhalf | hhalf
      · exact Or.inl (by linarith)
      · exact Or.inr (by linarith)
    exact (Int.even_coe_nat n).mpr (Nat.even_iff.mpr (h.even hmiddle))

/-- A decimal is rounded to the nearest whole number. -/
theorem Decimal.isNearestWhole_round (d : Decimal) : IsNearestWhole d.value d.round := by
  -- the sign is put on after rounding, which is symmetric
  have hsize : IsNearestWhole (d.mantissa / 10 ^ d.scale)
      (roundHalfEven d.mantissa (tenTo d.scale) : ℕ) := by
    have hpos : 0 < tenTo d.scale := Nat.pow_pos (by decide)
    have hround := roundsTo_roundHalfEven d.mantissa hpos
    have hten : ((tenTo d.scale : ℕ) : ℚ) = 10 ^ d.scale := Nat.cast_pow 10 d.scale
    rw [hten] at hround
    exact hround.isNearestWhole
  unfold round value signed
  split
  · rw [Int.cast_neg, neg_div]
    exact hsize.neg
  · exact hsize

end Number

namespace Value

/-! ## Amounts as decimals -/

namespace WrittenTerm

/-- The digits of an amount as one number. -/
def digits (t : WrittenTerm) : ℕ :=
  Nat.ofDigitChars 10 (t.whole ++ t.places) 0

/-- The amount of a term counted in units of a place. -/
def units (places : ℕ) (t : WrittenTerm) : ℕ :=
  t.digits * 10 ^ (places - t.places.length)

/-- The seconds of a term. -/
def seconds (t : WrittenTerm) : ℚ :=
  t.digits / 10 ^ t.places.length * t.unit.seconds

variable {t : WrittenTerm} {a : Decimal} {places : ℕ}

/-- An amount that is read has ASCII digits. -/
theorem isDigit_of_read (h : Decimal.read t.amount = .ok a) :
    ∀ c ∈ t.whole ++ t.places, c.isDigit := by
  obtain ⟨hnumber, -⟩ := Decimal.writtenNumber_of_read h
  intro c hc
  have hmem : c ∈ t.amount := by
    unfold amount
    rcases List.mem_append.mp hc with hc | hc
    · exact List.mem_append_left _ hc
    · have hne : t.places.isEmpty = false := by simpa using List.ne_nil_of_mem hc
      simp [hne, hc]
  apply (hnumber.allowed c hmem).resolve_right
  -- Signs, points and separators are no digits of any script.
  intro hmark
  have hdigit := t.isDecimalDigit c hc
  simp only [List.mem_cons, List.not_mem_nil, or_false] at hmark
  rcases hmark with rfl | rfl | rfl | rfl <;> exact absurd hdigit (by decide)

/-- The digits of an amount, and those behind its point. -/
theorem digitsOf_amount (h : ∀ c ∈ t.whole ++ t.places, c.isDigit) :
    digitsOf t.amount = t.whole ++ t.places ∧ placesOf t.amount = t.places := by
  have hwhole : digitsOf t.whole = t.whole :=
    List.filter_eq_self.mpr fun c hc => h c (List.mem_append_left _ hc)
  have hplaces : digitsOf t.places = t.places :=
    List.filter_eq_self.mpr fun c hc => h c (List.mem_append_right _ hc)
  -- the whole part has no point, so the first point is the one before the places
  have hpoint : ∀ c ∈ t.whole, (c != '.') = true := by
    intro c hc
    have hdigit := h c (List.mem_append_left _ hc)
    rw [bne_iff_ne]
    rintro rfl
    exact absurd hdigit (by decide)
  have hfraction : digitsOf ('.' :: t.places) = t.places :=
    (Decimal.digitsOf_cons_other (by decide) _).trans hplaces
  unfold placesOf
  rw [amount, List.dropWhile_append_of_pos hpoint]
  split
  · next hempty =>
    have hnil : t.places = [] := by simpa using hempty
    simp [hnil, hwhole]
  · refine ⟨?_, ?_⟩
    · rw [digitsOf, List.filter_append]
      exact congrArg₂ _ hwhole hfraction
    · rw [List.dropWhile_cons_of_neg (by simp)]
      exact hfraction

/-- An amount that is read is exact if there is room for all its digits. -/
theorem counts_of_read (h : Decimal.read t.amount = .ok a) (hplaces : places ≤ 28)
    (hle : t.places.length ≤ places) (hfits : t.units places < 2 ^ 96) :
    a.Counts places (t.units places) := by
  have hdigits := isDigit_of_read h
  obtain ⟨hall, hfraction⟩ := digitsOf_amount hdigits
  -- An amount begins with a digit, so no sign is read.
  have hread : Decimal.readFrom .zero false false t.amount = .ok a := by
    obtain ⟨c, whole, hwhole⟩ := List.exists_cons_of_ne_nil t.whole_ne_nil
    rw [amount, hwhole, List.cons_append] at h ⊢
    rwa [← Decimal.read_cons_digit _ (hdigits c (by simp [hwhole]))]
  obtain ⟨hstands, hexact⟩ := Decimal.standsFor_of_readFrom rfl (fun _ => rfl) hread
  have hzero : Decimal.zero.mantissa = 0 ∧ Decimal.zero.scale = 0 := ⟨rfl, rfl⟩
  simp only [hzero, hall, hfraction, Nat.zero_add, Bool.false_eq_true, if_false] at hexact
  have hsmall : t.digits ≤ t.units places := Nat.le_mul_of_pos_right _ (Nat.pow_pos (by decide))
  obtain ⟨hmantissa, hscale⟩ := hexact (hsmall.trans_lt hfits) (hle.trans hplaces)
  exact ⟨hstands.nonneg, hscale ▸ hle, by rw [hmantissa, hscale]; rfl⟩

/-- The units of terms are those of their seconds. -/
theorem sum_units {terms : List WrittenTerm} (hle : ∀ t ∈ terms, t.places.length ≤ places) :
    (((terms.map fun t => t.units places * t.unit.seconds).sum : ℕ) : ℚ) =
      (terms.map seconds).sum * 10 ^ places := by
  -- induction on the terms: in the finest places each amount is whole
  induction terms with
  | nil => simp
  | cons t terms ih =>
    have hterm : ((t.units places * t.unit.seconds : ℕ) : ℚ) = t.seconds * 10 ^ places := by
      obtain ⟨k, hk⟩ := Nat.exists_eq_add_of_le (hle t List.mem_cons_self)
      rw [units, seconds, hk, Nat.add_sub_cancel_left, pow_add]
      push_cast
      field_simp
    rw [List.map_cons, List.map_cons, List.sum_cons, List.sum_cons, Nat.cast_add, hterm,
      ih fun u hu => hle u (List.mem_cons_of_mem t hu), add_mul]

end WrittenTerm

/-! ## The three forms -/

/-- A text is a number, and a value is that number as far as there is room for its digits. -/
structure ReadsNumber (text : List Char) (value : ℚ) : Prop where
  written : IsWrittenNumber text
  near : ∃ d : Decimal, d.value = value ∧ |value - writtenValue text| ≤ 1 / 2 / 10 ^ d.scale
  exact : HasRoom text → value = writtenValue text

/-- A text is a clock form in ASCII digits, and a value is its seconds. -/
structure ReadsClock (text h m s : List Char) (value : ℚ) : Prop where
  form : ClockForm text h m s
  isDigit : ∀ c ∈ h ++ (m ++ s), c.isDigit
  value_eq : value = (Nat.ofDigitChars 10 h 0 * 3600 + Nat.ofDigitChars 10 m 0 * 60 +
    Nat.ofDigitChars 10 s 0 : ℕ)

/-- A text has terms in ASCII digits with nothing but passed characters between them, and a value is
their sum, which is exact as long as it fits with all the places of the amounts. -/
structure ReadsTerms (passed : Char → Prop) (text : List Char) (terms : List WrittenTerm)
    (value : ℚ) : Prop where
  scans : Scans passed text terms
  ne_nil : terms ≠ []
  isDigit : ∀ t ∈ terms, ∀ c ∈ t.whole ++ t.places, c.isDigit
  sum : ∃ total, sumTerms .zero (terms.map WrittenTerm.found) = .ok total ∧ total.value = value
  exact : ∀ places ≤ 28, (∀ t ∈ terms, t.places.length ≤ places) →
    (terms.map fun t => t.units places * t.unit.seconds).sum < 2 ^ 96 →
      value = (terms.map WrittenTerm.seconds).sum

/-- A text without a sign is a duration of a number of seconds. -/
inductive DurationForm (passed : Char → Prop) (text : List Char) (value : ℚ) : Prop where
  | number : ReadsNumber text value → DurationForm passed text value
  | clock (h m s : List Char) : ReadsClock text h m s value → DurationForm passed text value
  | terms (terms : List WrittenTerm) : ReadsTerms passed text terms value →
      DurationForm passed text value

private theorem readsNumber_of_read {text : List Char} {d : Decimal} (h : Decimal.read text = .ok d) :
    ReadsNumber text d.value := by
  obtain ⟨hwritten, hnear, hexact⟩ := Decimal.writtenNumber_of_read h
  exact ⟨hwritten, ⟨d, rfl, hnear⟩, fun hroom => (hexact hroom).2⟩

private theorem readsClock_of_clockSeconds? {text h m s : List Char} {k : Int64}
    (hform : ClockForm text h m s) (hseconds : clockSeconds? h m s = some k) :
    ReadsClock text h m s k.toInt := by
  -- The numbers are read from ASCII digits only, although the form is recognised in any digits.
  unfold clockSeconds? readNatUpTo? at hseconds
  simp only [Option.bind_eq_bind, Option.bind_eq_some_iff, Option.filter_eq_some_iff] at hseconds
  obtain ⟨hours, ⟨hhours, -⟩, minutes, ⟨hminutes, -⟩, seconds, ⟨hseconds, -⟩, hk⟩ := hseconds
  obtain ⟨-, hh, rfl⟩ := readNat?_eq_some_iff.mp hhours
  obtain ⟨-, hm, rfl⟩ := readNat?_eq_some_iff.mp hminutes
  obtain ⟨-, hs, rfl⟩ := readNat?_eq_some_iff.mp hseconds
  refine ⟨hform, ?_, ?_⟩
  · simpa only [List.forall_mem_append] using ⟨hh, hm, hs⟩
  · rw [toInt64?_eq_some_iff.mp hk, Int.cast_natCast]

private theorem exists_read_of_sumTerms {terms : List DurationTerm} {total r : Decimal}
    (h : sumTerms total terms = .ok r) : ∀ t ∈ terms, ∃ a, Decimal.read t.amount = .ok a := by
  -- induction on the terms: a sum is there only if the amount of every term could be read
  induction terms generalizing total with
  | nil => simp
  | cons t terms ih =>
    simp only [sumTerms, bind_eq_ok_iff] at h
    obtain ⟨a, ha, seconds, -, total', -, hrest⟩ := h
    intro u hu
    rcases List.mem_cons.mp hu with rfl | hu
    · cases hread : Decimal.read u.amount with
      | ok a => exact ⟨a, rfl⟩
      | error fault => rw [hread] at ha; cases ha
    · exact ih hrest u hu

private theorem readsTerms_of_sumTerms {passed : Char → Prop} {text : List Char}
    {terms : List WrittenTerm}
    {total : Decimal} (hscans : Scans passed text terms) (hne : terms ≠ [])
    (hsum : sumTerms .zero (terms.map WrittenTerm.found) = .ok total) :
    ReadsTerms passed text terms total.value := by
  have hread : ∀ t ∈ terms, ∃ a, Decimal.read t.amount = .ok a := by
    intro t ht
    exact exists_read_of_sumTerms hsum t.found (List.mem_map_of_mem ht)
  refine ⟨hscans, hne, ?_, ⟨total, hsum, rfl⟩, ?_⟩
  · intro t ht
    obtain ⟨a, ha⟩ := hread t ht
    exact WrittenTerm.isDigit_of_read ha
  · -- The sum in units of one place is the one that has been read, as there is only one result.
    intro places hplaces hle hfits
    have hcounted : ∀ t ∈ terms, t.units places < 2 ^ 96 →
        ∃ a, Decimal.read t.amount = .ok a ∧ a.Counts places (t.units places) := by
      intro t ht hunits
      obtain ⟨a, ha⟩ := hread t ht
      exact ⟨a, ha, WrittenTerm.counts_of_read ha hplaces (hle t ht) hunits⟩
    obtain ⟨r, hr, hcounts⟩ := exists_sumTerms hplaces (Decimal.counts_zero places) hcounted
      (by simpa using hfits)
    obtain rfl : r = total := Except.ok.inj (hr.symm.trans hsum)
    rw [hcounts.value_eq, Nat.zero_add, WrittenTerm.sum_units hle, mul_div_cancel_right₀]
    positivity

/-! ## Durations -/

/-- What is read without a sign is one of the three forms. -/
theorem durationForm_of_unsignedSeconds {body : List Char} {k : Int64}
    (h : unsignedSeconds body = .ok k) :
    ∃ value, DurationForm (fun _ => True) body value ∧ IsNearestWhole value k.toInt := by
  unfold unsignedSeconds at h
  split at h
  · next d hread =>
    rw [toInt64?_eq_some_iff.mp (orFault_eq_ok_iff.mp h)]
    exact ⟨d.value, .number (readsNumber_of_read hread), d.isNearestWhole_round⟩
  split at h
  · next hours minutes seconds hparts =>
    have hclock := readsClock_of_clockSeconds? (clockForm_of_clockParts? hparts)
      (orFault_eq_ok_iff.mp h)
    exact ⟨k.toInt, .clock _ _ _ hclock, isNearestWhole_intCast k.toInt⟩
  -- The amounts that are found are those of a scan, whatever stands between them.
  obtain ⟨terms, hscans⟩ := exists_scans body
  split at h
  · cases h
  · next hne =>
    obtain ⟨total, hsum, hround⟩ := bind_eq_ok_iff.mp h
    rw [hscans.durationTerms] at hne hsum
    rw [toInt64?_eq_some_iff.mp (orFault_eq_ok_iff.mp hround)]
    refine ⟨total.value, .terms terms (readsTerms_of_sumTerms hscans ?_ hsum),
      total.isNearestWhole_round⟩
    rintro rfl
    exact hne rfl

/-- A text that is read as a duration is a sign and one of the three forms, and the seconds are the
nearest whole number. Between amounts with units any characters are passed over. -/
theorem parseDuration_reads {text : String} {s : Int64} (h : parseDuration text = .ok s) :
    ∃ negative body value, Signed text.toList negative body ∧
      DurationForm (fun _ => True) body value ∧
        IsNearestWhole value (if negative then -s.toInt else s.toInt) := by
  have hseconds : durationSeconds text.toList = .ok s := by
    unfold parseDuration at h
    cases hread : durationSeconds text.toList with
    | ok k => rw [hread] at h; cases h; rfl
    | error fault => rw [hread] at h; cases h
  have hsigned := signed_splitSign text.toList
  unfold durationSeconds at hseconds
  -- the sign is taken off first, and what is left is one of the two forms
  revert hseconds hsigned
  generalize splitSign text.toList = parts
  obtain ⟨negative, body⟩ := parts
  intro hseconds hsigned
  obtain ⟨k, hk, hsign⟩ := bind_eq_ok_iff.mp hseconds
  obtain ⟨value, hform, hnearest⟩ := durationForm_of_unsignedSeconds hk
  refine ⟨negative, body, value, hsigned, hform, ?_⟩
  cases negative with
  | false =>
    obtain rfl : k = s := Except.ok.inj hsign
    exact hnearest
  | true =>
    rw [if_pos rfl, toInt64?_eq_some_iff.mp (orFault_eq_ok_iff.mp hsign), neg_neg]
    exact hnearest

/-- An hour and a half with a point. -/
theorem parseDuration_reads_hours :
    ∃ negative body value, Signed "-1.5 hours".toList negative body ∧
      DurationForm (fun _ => True) body value ∧
        IsNearestWhole value (if negative then -(-5400 : Int64).toInt else (-5400 : Int64).toInt) :=
  parseDuration_reads (by decide +kernel)

/-- Not every text that is read consists of terms with white space between them. -/
theorem parseDuration_passes_clock :
    parseDuration "1:30 minutes" = .ok 1800 ∧ ∀ negative body value,
      Signed "1:30 minutes".toList negative body →
        ¬ DurationForm (fun c => isBlank c) body value := by
  refine ⟨by decide +kernel, ?_⟩
  intro negative body value hsigned hform
  have hbody : splitSign "1:30 minutes".toList = (false, "1:30 minutes".toList) := by
    decide +kernel
  obtain ⟨rfl, rfl⟩ := Prod.mk.inj (hsigned.splitSign_eq.symm.trans hbody)
  have hmem : 'm' ∈ "1:30 minutes".toList := by decide
  have hletter : (letterOf 'm').isLower := by decide
  cases hform with
  | number hnumber => exact not_isWrittenNumber_of_letter hmem hletter hnumber.written
  | clock h m s hclock => exact not_clockForm_of_letter hmem hletter h m s hclock.form
  | terms terms hterms =>
    -- The scan can neither begin with a term nor pass over the first digit.
    have hnone := readTerm?_eq_none_iff.mp
      (show readTerm? "1:30 minutes".toList = none by decide +kernel)
    have hscans := hterms.scans
    generalize htext : "1:30 minutes".toList = text at hscans hnone
    cases hscans with
    | nil => exact hterms.ne_nil rfl
    | pass c rest terms hblank =>
      obtain rfl : '1' = c := (List.cons.inj htext).1
      exact absurd hblank (by decide)
    | take t rest terms => exact hnone t (List.prefix_append _ _)

end Value
end FieldQuery
