import FieldQuery.Proofs.Number.Layouts
import FieldQuery.Proofs.Number.Whole
import FieldQuery.Proofs.Value.Timestamps

/-!
# Numbers as search values

What a JSON number is read as in a field of numbers. For integers it loses its fraction, and beyond
the 64-bit range it becomes the end of the range, where its digits in a text are refused. For decimals
its text is read: an integer keeps its value, and so does a double that is written without an exponent
part. The exponent part of a large double is read as more digits, that of a small one is refused.
-/

namespace FieldQuery

open Number Text

namespace Json.Number

/-- The number that a JSON number stands for. -/
def value : Json.Number → ℚ
  | .integer n _ => n
  | .double x _ => x.value

end Json.Number

namespace Value

/-! ## Truncation -/

/-- A number without its fraction. -/
def truncation (q : ℚ) : ℤ :=
  if q < 0 then ⌈q⌉ else ⌊q⌋

private theorem truncation_intCast (n : ℤ) : truncation n = n := by
  simp [truncation]

private theorem truncation_neg (q : ℚ) : truncation (-q) = -truncation q := by
  rcases lt_trichotomy q 0 with hneg | rfl | hpos
  · have hpos : ¬ -q < 0 := by linarith
    simp [truncation, hneg, hpos, Int.floor_neg]
  · simp [truncation]
  · have hneg : -q < 0 := by linarith
    simp [truncation, hneg, hpos.not_gt, Int.ceil_neg]

private theorem truncation_of_nonneg {q : ℚ} (h : 0 ≤ q) : truncation q = ⌊q⌋ :=
  if_neg (not_lt.mpr h)

/-- The whole part of a double, with its sign. -/
theorem signed_floor (x : Binary64) : x.signed x.magnitude.floor = truncation x.value := by
  have hfloor : (x.magnitude.floor : ℤ) = truncation x.magnitude.value := by
    rw [truncation_of_nonneg x.magnitude.value_nonneg, ← Magnitude.numerator_div_denominator]
    exact (Rat.floor_intCast_div_natCast x.magnitude.numerator x.magnitude.denominator).symm
  unfold Binary64.signed Binary64.value
  split
  · rw [truncation_neg, hfloor]
  · exact hfloor

/-! ## Integers -/

/-- Whether an integer has 64 bits. -/
def InRange (n : ℤ) : Prop :=
  -2 ^ 63 ≤ n ∧ n < 2 ^ 63

instance (n : ℤ) : Decidable (InRange n) :=
  inferInstanceAs (Decidable (_ ∧ _))

/-- A whole number has a 64-bit integer exactly if it is in the range. -/
theorem toInt64?_eq (n : ℤ) : toInt64? n = if InRange n then some (Int64.ofInt n) else none :=
  if_congr (by unfold InRange; norm_num) rfl rfl

private theorem clamp_of_inRange {n : ℤ} (h : InRange n) : Binary64.clamp n = Int64.ofInt n := by
  have hmin : Int64.minValue.toInt = -2 ^ 63 := rfl
  have hmax : Int64.maxValue.toInt = 2 ^ 63 - 1 := rfl
  obtain ⟨hlow, hhigh⟩ := h
  rw [Binary64.clamp, hmin, hmax, if_neg (by omega), if_neg (by omega)]

private theorem clamp_of_not_inRange {n : ℤ} (h : ¬ InRange n) :
    Binary64.clamp n = if n < 0 then Int64.minValue else Int64.maxValue := by
  have hmin : Int64.minValue.toInt = -2 ^ 63 := rfl
  have hmax : Int64.maxValue.toInt = 2 ^ 63 - 1 := rfl
  unfold InRange at h
  rw [Binary64.clamp, hmin, hmax]
  split
  · rw [if_pos (by omega)]
  · rw [if_pos (by omega), if_neg (by omega)]

/-- An unsigned integer beyond the signed ones stays beyond them as a double. -/
theorem le_value_ofInt {n : ℤ} (hlow : 2 ^ 63 ≤ n) (hhigh : n < 2 ^ 64) :
    2 ^ 63 ≤ (Binary64.ofInt n).value := by
  obtain ⟨m, rfl⟩ := Int.eq_ofNat_of_zero_le (show 0 ≤ n by omega)
  obtain ⟨hcanonical, hexponent, -⟩ := ofNat_spec (show m < 2 ^ 128 by omega)
  have hsign : ¬ (m : ℤ) < 0 := by omega
  rw [Binary64.ofInt, Int.natAbs_natCast, Binary64.value_ofMagnitude _ hcanonical hexponent]
  simp only [hsign, decide_false, Bool.false_eq_true, if_false]
  have hfirst : 2 ^ 63 ≤ (Magnitude.nearest (2 ^ 63) 1).value := by decide +kernel
  refine hfirst.trans ((isNearest_nearest _ Nat.one_pos).mono (isNearest_nearest m Nat.one_pos) ?_)
  exact div_le_div_of_nonneg_right (by exact_mod_cast hlow) (by norm_num)

/-- An integer field takes the truncated number, or the end of the range next to it. -/
theorem integerOf_number (n : Json.Number) :
    integerOf (.number n) = .ok (Binary64.clamp (truncation n.value)) := by
  cases n with
  | integer n hrange =>
    rw [Json.Number.value, truncation_intCast]
    rcases lt_or_ge n (2 ^ 63) with hlt | hge
    · have hint : (Json.Number.integer n hrange).int64? = some (Int64.ofInt n) := if_pos hlt
      rw [clamp_of_inRange ⟨hrange.1, hlt⟩, integerOf, hint]
      rfl
    · -- The double of such an integer may differ from it, but both are beyond the range.
      have hint : (Json.Number.integer n hrange).int64? = none := if_neg (not_lt.mpr hge)
      have hvalue : 2 ^ 63 ≤ truncation (Binary64.ofInt n).value := by
        have hle := le_value_ofInt hge hrange.2
        rw [truncation_of_nonneg (le_trans (by norm_num) hle)]
        exact Int.le_floor.mpr (by exact_mod_cast hle)
      have hclamp {k : ℤ} (hk : 2 ^ 63 ≤ k) : Binary64.clamp k = Int64.maxValue := by
        rw [clamp_of_not_inRange fun h => by have := h.2; omega, if_neg (by omega)]
      rw [integerOf, hint, hclamp hge]
      show Except.ok (Binary64.clamp ((Binary64.ofInt n).signed (Binary64.ofInt n).magnitude.floor)) = _
      rw [signed_floor, hclamp hvalue]
  | double x hfinite =>
    rw [Json.Number.value, ← signed_floor]
    rfl

/-! ## Numeric characters -/

private theorem typedText_number (n : Json.Number) : (Json.number n).typedText = n.text :=
  String.ofList_toList

/-- A text is what was typed. -/
theorem typedText_string (text : String) : (Json.string text).typedText = text :=
  String.ofList_toList

private theorem numericChars_of_isDigit {run : List Char} (h : ∀ c ∈ run, c.isDigit) :
    numericChars run = run :=
  List.filter_eq_self.mpr fun c hc => by simp [h c hc]

/-- The characters of numbers are picked from one part after another. -/
@[simp]
theorem numericChars_append (front rest : List Char) :
    numericChars (front ++ rest) = numericChars front ++ numericChars rest :=
  List.filter_append front rest

/-- A minus is a character of numbers. -/
@[simp]
theorem numericChars_signChars (negative : Bool) :
    numericChars (signChars negative) = signChars negative := by
  cases negative <;> rfl

/-- A numeral has no other characters. -/
theorem numericChars_text (p : Numeral) : numericChars p.text = p.text := by
  have hpoint : numericChars ['.'] = ['.'] := rfl
  have hwhole : numericChars p.whole = p.whole :=
    numericChars_of_isDigit fun c hc => p.isDigit c (List.mem_append_left _ hc)
  have hfraction : numericChars p.fraction = p.fraction :=
    numericChars_of_isDigit fun c hc => p.isDigit c (List.mem_append_right _ hc)
  rw [Numeral.text, numericChars_append, hwhole]
  split
  · rfl
  · rw [← List.singleton_append, numericChars_append, hpoint, hfraction]

private theorem decimalOf_of_numericChars {text : String} {chars : List Char}
    (h : numericChars text.toList = chars) (hne : chars ≠ []) :
    decimalOf text = (Decimal.read chars).mapError .decimal := by
  subst h
  unfold decimalOf
  split
  · next hnil => exact absurd hnil hne
  · rfl

/-- The decimal in a text that has a sign and a numeral among other characters. -/
theorem decimalOf_eq_make {text : String} {negative : Bool} {p : Numeral}
    (h : numericChars text.toList = signChars negative ++ p.text) :
    decimalOf text =
      .ok (.make negative p.mantissa p.fraction.length p.mantissa_lt p.places_le) := by
  obtain ⟨c, rest, htext, -⟩ := p.text_eq_cons
  rw [decimalOf_of_numericChars h (by simp [htext]), p.read_text]
  rfl

/-- The number in a text that has a sign and a numeral among other characters. -/
theorem decimalOf_of_numeral {text : String} {negative : Bool} {p : Numeral}
    (h : numericChars text.toList = signChars negative ++ p.text) :
    ∃ d, decimalOf text = .ok d ∧ d.value = if negative then -p.value else p.value :=
  ⟨_, decimalOf_eq_make h, Decimal.value_make negative p.mantissa_lt p.places_le⟩

/-! ## Digits of integers -/

private theorem intDigits_eq (t : ℤ) : intDigits t = signChars (t < 0) ++ natDigits t.natAbs := by
  unfold intDigits signChars
  by_cases h : t < 0 <;> simp [h]

private theorem numericChars_intText (t : ℤ) :
    numericChars (intText t).toList = signChars (t < 0) ++ natDigits t.natAbs := by
  rw [intText, String.toList_ofList, intDigits_eq, numericChars_append, numericChars_signChars,
    numericChars_of_isDigit fun _ => isDigit_of_mem_natDigits]

/-- The digits of an integer are read as this integer if it has at most 96 bits. -/
theorem decimalOf_intText {t : ℤ} (h : t.natAbs < 2 ^ 96) :
    decimalOf (intText t) = .ok (.make (t < 0) t.natAbs 0 h (Nat.zero_le 28)) := by
  rw [decimalOf_of_numericChars (numericChars_intText t) (by simp [natDigits_ne_nil]),
    Decimal.read_natDigits _ h]
  rfl

private theorem decimalOf_intText_of_large {t : ℤ} (h : 2 ^ 96 ≤ t.natAbs) :
    decimalOf (intText t) = .error (.decimal .tooManyDigits) := by
  rw [decimalOf_of_numericChars (numericChars_intText t) (by simp [natDigits_ne_nil]),
    Decimal.read_of_large _ (fun _ => isDigit_of_mem_natDigits) (by simpa using h)]
  rfl

private theorem trunc_make (t : ℤ) (h : t.natAbs < 2 ^ 96) :
    (Decimal.make (t < 0) t.natAbs 0 h (Nat.zero_le 28)).trunc = t := by
  have hten : tenTo 0 = 1 := rfl
  simp only [Decimal.trunc, Decimal.signed, Decimal.make, hten, Nat.div_one, Bool.and_eq_true,
    decide_eq_true_eq, bne_iff_ne]
  split <;> omega

/-- The digits of an integer are refused in an integer field beyond the range. -/
theorem integerOf_intText (t : ℤ) :
    integerOf (.string (intText t)) =
      if InRange t then .ok (Int64.ofInt t)
      else .error (if t.natAbs < 2 ^ 96 then .outOfRange else .decimal .tooManyDigits) := by
  have hinteger : integerOf (.string (intText t)) =
      (decimalOf (intText t)).bind fun d => orFault .outOfRange (toInt64? d.trunc) := by
    unfold integerOf
    rw [typedText_string]
    rfl
  rw [hinteger]
  -- Up to 96 bits the digits are a decimal, and only its size is wrong; beyond they are not even that.
  rcases lt_or_ge t.natAbs (2 ^ 96) with hfits | hlarge
  · rw [decimalOf_intText hfits, if_pos hfits]
    show orFault _ (toInt64? (Decimal.trunc _)) = _
    rw [trunc_make, toInt64?_eq]
    split <;> rfl
  · rw [decimalOf_intText_of_large hlarge, if_neg (not_lt.mpr hlarge)]
    have hrange : ¬ InRange t := fun h => by unfold InRange at h; omega
    rw [if_neg hrange]
    rfl

/-! ## Doubles -/

/-- The characters of digits with an exponent part that count: neither the mark of this part nor a
plus sign is among them. -/
theorem numericChars_withExponent {s : Scientific} (hne : s.digits ≠ [])
    (hdigits : ∀ c ∈ s.digits, c.isDigit) (hlength : s.digits.length ≤ 17) :
    numericChars s.withExponent =
      pointedDigits s.digits ++ (signChars (s.exponent < 0) ++ natDigits s.exponent.natAbs) := by
  obtain ⟨p, hp, -⟩ := exists_pointedDigits_append_eq hne hdigits (List.forall_mem_nil _)
    (hlength.trans (by decide))
  rw [List.append_nil] at hp
  -- of the exponent's mark only a minus is kept
  have hmark : numericChars ['e', if s.exponent < 0 then '-' else '+'] =
      signChars (s.exponent < 0) := by
    by_cases h : s.exponent < 0 <;> simp only [h, if_true, if_false] <;> rfl
  rw [withExponent_eq, numericChars_append, numericChars_append, hp, numericChars_text, hmark,
    numericChars_of_isDigit fun _ => isDigit_of_mem_natDigits, List.append_assoc]

section Doubles

variable {x : Binary64} (hfinite : x.isFinite = true)
include hfinite

/-- The characters of the text of a double that count. -/
theorem numericChars_double :
    numericChars (x.text Json.numberLayout).toList =
      signChars x.isNegative ++
        numericChars ((x.magnitude.shortest .even).text Json.numberLayout) := by
  have htext : (x.text Json.numberLayout).toList =
      signChars x.isNegative ++ (x.magnitude.shortest .even).text Json.numberLayout := by
    rw [Binary64.text, if_pos hfinite, String.toList_ofList]
    rfl
  rw [htext, numericChars_append, numericChars_signChars]

/-- A double that is written without an exponent part is read as a number that is rounded to it. -/
theorem decimalOf_positional (hlarge : ¬ 10 ^ 16 ≤ |x.value|)
    (hsmall : ¬ (x.value ≠ 0 ∧ |x.value| < 1 / 10 ^ 5)) :
    ∃ d, decimalOf (x.text Json.numberLayout) = .ok d ∧
      IsNearest (if x.isNegative then -d.value else d.value) x.magnitude := by
  have hlow : -5 ≤ (x.magnitude.shortest .even).exponent :=
    not_lt.mp (x.exponent_lt_minus_five_iff.not.mpr hsmall)
  have hhigh : (x.magnitude.shortest .even).exponent < 16 :=
    not_le.mp (x.sixteen_le_exponent_iff.not.mpr hlarge)
  have htext : (x.magnitude.shortest .even).text Json.numberLayout =
      (x.magnitude.shortest .even).positional true := by
    simp [Scientific.text, Json.numberLayout, hlow, hhigh]
  -- All characters count, so what is read is the shortest decimal itself.
  have hchars := numericChars_double hfinite
  obtain ⟨n, q, hshortest, hlength, hnearest⟩ := shortest_spec .even x.canonical_magnitude
  rw [htext, hshortest] at hchars
  rw [hshortest] at hlow hhigh
  obtain ⟨p, hp, hvalue⟩ := exists_positional_eq hlength rfl hlow hhigh
  rw [hp, numericChars_text] at hchars
  obtain ⟨d, hd, hd_value⟩ := decimalOf_of_numeral hchars
  refine ⟨d, hd, ?_⟩
  have hsize : (if x.isNegative then -d.value else d.value) = n * 10 ^ q := by
    rw [hd_value, ← hvalue]
    split <;> simp
  rw [hsize]
  exact hnearest

private theorem numericChars_double_of_exponent
    (hexponent : Json.numberLayout.isPositional (x.magnitude.shortest .even).exponent = false) :
    numericChars (x.text Json.numberLayout).toList =
      signChars x.isNegative ++ (pointedDigits (x.magnitude.shortest .even).digits ++
        (signChars ((x.magnitude.shortest .even).exponent < 0) ++
          natDigits (x.magnitude.shortest .even).exponent.natAbs)) := by
  obtain ⟨hne, hdigits, hlength⟩ := shortest_digits .even x.canonical_magnitude
  rw [numericChars_double hfinite, Scientific.text, hexponent, if_neg Bool.false_ne_true,
    numericChars_withExponent hne hdigits hlength]

/-- The exponent part of a large double becomes more digits of a small number. -/
theorem decimalOf_large (h : 10 ^ 16 ≤ |x.value|) :
    ∃ d, decimalOf (x.text Json.numberLayout) = .ok d ∧ |d.value| < 10 ^ 4 := by
  have hlarge := x.sixteen_le_exponent_iff.mpr h
  have hchars := numericChars_double_of_exponent hfinite
    (by simp [Json.numberLayout, not_lt.mpr hlarge])
  have hbound := exponent_lt .even x.canonical_magnitude (Binary64.exponent_magnitude_le hfinite)
  obtain ⟨hne, hdigits, hlength⟩ := shortest_digits .even x.canonical_magnitude
  generalize x.magnitude.shortest .even = s at *
  -- One digit before the point and at most three of the exponent are left for the whole part.
  have hplaces : (natDigits s.exponent.natAbs).length ≤ 3 :=
    (Nat.length_toDigits_le_iff (by decide) (by decide)).mpr (by omega)
  have hnonneg : ¬ s.exponent < 0 := by omega
  have hsign : signChars (s.exponent < 0) = [] := by simp [signChars, hnonneg]
  obtain ⟨p, hp, hvalue⟩ := exists_pointedDigits_append_eq hne hdigits
    (fun _ => isDigit_of_mem_natDigits (n := s.exponent.natAbs)) (by omega)
  rw [hsign, List.nil_append, hp] at hchars
  obtain ⟨d, hd, hd_value⟩ := decimalOf_of_numeral hchars
  refine ⟨d, hd, ?_⟩
  have habs : |d.value| = p.value := by
    rw [hd_value]
    split
    · rw [abs_neg, abs_of_nonneg p.value_nonneg]
    · exact abs_of_nonneg p.value_nonneg
  rw [habs]
  exact hvalue.trans_le (pow_le_pow_right₀ (by norm_num) (by omega))

/-- The exponent part of a small double has a minus sign, which is refused behind the digits. -/
theorem decimalOf_small (h : x.value ≠ 0 ∧ |x.value| < 1 / 10 ^ 5) :
    decimalOf (x.text Json.numberLayout) = .error (.decimal .unknownCharacter) := by
  have hsmall := x.exponent_lt_minus_five_iff.mpr h
  have hchars := numericChars_double_of_exponent hfinite
    (by simp [Json.numberLayout, not_le.mpr hsmall])
  obtain ⟨hne, hdigits, hlength⟩ := shortest_digits .even x.canonical_magnitude
  -- the digits are fixed, since all that matters of them is the exponent
  generalize x.magnitude.shortest .even = s at *
  have hneg : s.exponent < 0 := by omega
  have hsign : signChars (s.exponent < 0) = ['-'] := by simp [signChars, hneg]
  obtain ⟨p, hp, -⟩ := exists_pointedDigits_append_eq hne hdigits (List.forall_mem_nil _)
    (hlength.trans (by decide))
  rw [List.append_nil] at hp
  rw [hsign, hp] at hchars
  rw [decimalOf_of_numericChars hchars (by simp), List.singleton_append, p.read_text_minus]
  rfl

end Doubles

/-! ## Fields of numbers -/

private theorem parseValue_integer_intText (t : ℤ) :
    parseValue .integer (.string (intText t)) =
      if InRange t then .ok (.integer (Int64.ofInt t))
      else .error (.parse .integer (intText t)
        (if t.natAbs < 2 ^ 96 then .outOfRange else .decimal .tooManyDigits)) := by
  -- every number is written with a digit, and no null marker has one
  have hmarker : (Json.string (intText t)).isNullMarker = false := by
    obtain ⟨c, rest, hdigits⟩ := List.exists_cons_of_ne_nil (natDigits_ne_nil t.natAbs)
    refine isNullMarker_eq_false ⟨c, ?_, isDigit_of_mem_natDigits (n := t.natAbs) (by simp [hdigits])⟩
    rw [typedText_string, intText, String.toList_ofList, intDigits_eq, hdigits]
    simp
  have hparse : parseValue .integer (.string (intText t)) =
      (reported .integer (Json.string (intText t)).typedText
        (integerOf (.string (intText t)))).map .integer := by
    unfold parseValue
    rw [hmarker]
    rfl
  rw [hparse, typedText_string, integerOf_intText]
  split <;> rfl

/-- The types of the fields of decimals. -/
def decimalTypes : List FieldType :=
  [.decimal, .float, .currency, .percentage]

/-- In a field of decimals the text of a value is read. -/
theorem parseValue_of_mem_decimalTypes {type : FieldType} (htype : type ∈ decimalTypes)
    {value : Json} (hvalue : value.isNullMarker = false) :
    parseValue type value =
      (reported type value.typedText (decimalOf value.typedText)).map .decimal := by
  unfold parseValue
  simp only [decimalTypes, List.mem_cons, List.not_mem_nil, or_false] at htype
  rcases htype with rfl | rfl | rfl | rfl <;> simp [hvalue]

private theorem parseValue_decimal {type : FieldType} (htype : type ∈ decimalTypes) (n : Json.Number) :
    parseValue type (.number n) = (reported type n.text (decimalOf n.text)).map .decimal := by
  rw [parseValue_of_mem_decimalTypes htype rfl, typedText_number]

/-- In an integer field a number and its digits in a text are the same in the 64-bit range, and only
there. -/
theorem parseValue_integer_number (n : Json.Number) :
    let t := truncation n.value
    if InRange t then
      ∃ k : Int64, k.toInt = t ∧ parseValue .integer (.number n) = .ok (.integer k) ∧
        parseValue .integer (.string (intText t)) = .ok (.integer k)
    else
      parseValue .integer (.number n) =
        .ok (.integer (if t < 0 then Int64.minValue else Int64.maxValue)) ∧
      parseValue .integer (.string (intText t)) = .error (.parse .integer (intText t)
        (if t.natAbs < 2 ^ 96 then .outOfRange else .decimal .tooManyDigits)) := by
  intro t
  have hnumber : parseValue .integer (.number n) = .ok (.integer (Binary64.clamp t)) := by
    show (reported .integer (Json.number n).typedText (integerOf (.number n))).map Term.integer = _
    rw [integerOf_number]
    rfl
  rw [hnumber, parseValue_integer_intText]
  -- in range both readings give the number; out of range one is clamped and the other refused
  split
  · next hrange =>
    rw [clamp_of_inRange hrange]
    exact ⟨_, Int64.toInt_ofInt_of_le hrange.1 hrange.2, rfl, rfl⟩
  · next hrange =>
    rw [clamp_of_not_inRange hrange]
    exact ⟨rfl, rfl⟩

/-- A field of decimals keeps an integer. -/
theorem decimalOf_integer {n : ℤ} (hlow : -0x8000000000000000 ≤ n) (hhigh : n < 0x10000000000000000) :
    ∃ d, decimalOf (intText n) = .ok d ∧ d.value = n := by
  refine ⟨_, decimalOf_intText (by omega), ?_⟩
  rw [Decimal.value_make, pow_zero, div_one, Nat.cast_natAbs]
  rcases lt_or_ge n 0 with hneg | hnonneg
  · simp [hneg, abs_of_neg]
  · simp [hnonneg.not_gt, abs_of_nonneg hnonneg]

/-- In an integer field a number loses its fraction and, unlike its digits in a text, is never refused:
beyond the 64-bit range it becomes the nearer end. In a field of decimals integers are kept, and so
are doubles from `1e-5` up to `1e16`, up to rounding; larger ones become a number below `10 ^ 4`, and
smaller ones are refused. -/
theorem parseValue_number (n : Json.Number) :
    (let t := truncation n.value
      if InRange t then
        ∃ k : Int64, k.toInt = t ∧ parseValue .integer (.number n) = .ok (.integer k) ∧
          parseValue .integer (.string (intText t)) = .ok (.integer k)
      else
        parseValue .integer (.number n) =
          .ok (.integer (if t < 0 then Int64.minValue else Int64.maxValue)) ∧
        parseValue .integer (.string (intText t)) = .error (.parse .integer (intText t)
          (if t.natAbs < 2 ^ 96 then .outOfRange else .decimal .tooManyDigits))) ∧
    ∀ type ∈ decimalTypes,
      match n with
      | .integer k _ => ∃ d, parseValue type (.number n) = .ok (.decimal d) ∧ d.value = k
      | .double x _ =>
        if 10 ^ 16 ≤ |x.value| then
          ∃ d, parseValue type (.number n) = .ok (.decimal d) ∧ |d.value| < 10 ^ 4
        else if x.value ≠ 0 ∧ |x.value| < 1 / 10 ^ 5 then
          parseValue type (.number n) = .error (.parse type n.text (.decimal .unknownCharacter))
        else
          ∃ d, parseValue type (.number n) = .ok (.decimal d) ∧
            IsNearest (if x.isNegative then -d.value else d.value) x.magnitude := by
  refine ⟨parseValue_integer_number n, fun type htype => ?_⟩
  simp only [parseValue_decimal htype]
  -- a number reaches every decimal type by its text alone
  have hread {d : Decimal} (hd : decimalOf n.text = .ok d) :
      (reported type n.text (decimalOf n.text)).map Term.decimal = .ok (.decimal d) := by
    rw [hd]
    rfl
  cases n with
  | integer k hrange =>
    obtain ⟨d, hd, hvalue⟩ := decimalOf_integer hrange.1 hrange.2
    exact ⟨d, hread hd, hvalue⟩
  | double x hfinite =>
    dsimp only
    split
    · next hlarge =>
      obtain ⟨d, hd, hvalue⟩ := decimalOf_large hfinite hlarge
      exact ⟨d, hread hd, hvalue⟩
    · next hlarge =>
      split
      · next hsmall =>
        have hd : decimalOf (Json.Number.double x hfinite).text = _ := decimalOf_small hfinite hsmall
        rw [hd]
        rfl
      · next hsmall =>
        obtain ⟨d, hd, hnearest⟩ := decimalOf_positional hfinite hlarge hsmall
        exact ⟨d, hread hd, hnearest⟩

/-- One tenth is read as a percentage that is rounded to the same double. -/
theorem parseValue_tenth :
    let tenth : Binary64 := ⟨0x3FB999999999999A⟩
    ∃ d, parseValue .percentage (.number (.double tenth (by decide +kernel))) = .ok (.decimal d) ∧
      IsNearest d.value tenth.magnitude := by
  intro tenth
  have h := (parseValue_number (.double tenth (by decide +kernel))).2 .percentage (by decide)
  dsimp only at h
  -- a tenth is neither too large nor too small to be written without an exponent
  rw [if_neg (by decide +kernel), if_neg (by decide +kernel)] at h
  obtain ⟨d, hd, hnearest⟩ := h
  rw [if_neg (by decide +kernel)] at hnearest
  exact ⟨d, hd, hnearest⟩

/-- The number after the last signed integer becomes the last one while its digits are refused, and
`1e22` becomes 122. -/
theorem parseValue_beyond_range :
    parseValue .integer (.number (.integer 9223372036854775808 (by decide))) =
        .ok (.integer Int64.maxValue) ∧
      parseValue .integer (.string "9223372036854775808") =
        .error (.parse .integer "9223372036854775808" .outOfRange) ∧
      ∃ large : Binary64, ∃ hfinite, large.value = 10 ^ 22 ∧
        parseValue .decimal (.number (.double large hfinite)) = .ok (.decimal (.ofNat 122)) := by
  refine ⟨by decide +kernel, by decide +kernel, ⟨0x4480F0CF064DD592⟩, by decide +kernel, ?_, ?_⟩
  · decide +kernel
  · decide +kernel

end Value

end FieldQuery
