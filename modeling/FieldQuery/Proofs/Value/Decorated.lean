import FieldQuery.Proofs.Number.Counting
import FieldQuery.Proofs.Value.Numbers

/-!
# Decorated numbers

A number may be typed with characters around and inside it that do not count: marks of a currency,
separators of groups, words, white space. Main statement: a decimal and a number of cents are read
back through any such decoration, over their whole ranges.
-/

namespace FieldQuery.Value

open FieldQuery.Number FieldQuery.Text

/-! ## Decorations -/

/-- A text with other characters put in anywhere, none of which counts in a number. -/
inductive Decorates : List Char → List Char → Prop
  | nil : Decorates [] []
  | keep (c : Char) {decorated text : List Char} (h : Decorates decorated text) :
      Decorates (c :: decorated) (c :: text)
  | insert {c : Char} (hc : c.isDigit = false ∧ c ≠ '-' ∧ c ≠ '.') {decorated text : List Char}
      (h : Decorates decorated text) : Decorates (c :: decorated) text

namespace Decorates

variable {decorated text : List Char}

/-- The same characters count in a decorated text as in the text itself. -/
theorem numericChars_eq (h : Decorates decorated text) :
    numericChars decorated = numericChars text := by
  -- induction on the decoration: what is inserted is dropped by the filter
  induction h with
  | nil => rfl
  | keep c h ih =>
    unfold numericChars at ih ⊢
    rw [List.filter_cons, List.filter_cons, ih]
  | insert hc h ih =>
    obtain ⟨hdigit, hminus, hpoint⟩ := hc
    unfold numericChars at ih ⊢
    rw [List.filter_cons_of_neg (by simp [hdigit, hminus, hpoint]), ih]

/-- A text decorates the characters of it that count. -/
theorem of_numericChars (decorated : List Char) : Decorates decorated (numericChars decorated) := by
  induction decorated with
  | nil => exact .nil
  | cons c rest ih =>
    unfold numericChars at ih ⊢
    rw [List.filter_cons]
    split
    · exact .keep c ih
    · next hc => exact .insert (by simpa [and_assoc] using hc) ih

end Decorates

/-! ## Decorated numerals -/

section Numerals

variable {decorated : String} {negative : Bool} {p : Numeral}
  (h : Decorates decorated.toList (signChars negative ++ p.text))
include h

private theorem numericChars_decorated :
    numericChars decorated.toList = signChars negative ++ p.text := by
  rw [h.numericChars_eq, numericChars_append, numericChars_signChars, numericChars_text]

/-- A decorated numeral has a digit, so it is none of the texts for no value. -/
theorem isNullMarker_decorated : (Json.string decorated).isNullMarker = false := by
  obtain ⟨c, rest, htext, hc⟩ := p.text_eq_cons
  have hmem : c ∈ numericChars decorated.toList := by
    rw [numericChars_decorated h, htext]
    exact List.mem_append_right _ List.mem_cons_self
  apply isNullMarker_eq_false
  refine ⟨c, ?_, hc⟩
  rw [typedText_string]
  exact (List.mem_filter.mp hmem).1

/-- What is read of a decorated numeral in a field of decimals. -/
theorem parseValue_decorated_numeral {type : FieldType} (htype : type ∈ decimalTypes) :
    parseValue type (.string decorated) =
      .ok (.decimal (.make negative p.mantissa p.fraction.length p.mantissa_lt p.places_le)) := by
  rw [parseValue_of_mem_decimalTypes htype (isNullMarker_decorated h), typedText_string,
    decimalOf_eq_make (numericChars_decorated h)]
  rfl

end Numerals

/-! ## Prices -/

/-- The text of a number of cents: a sign, whole units, a point, and two digits. -/
def centsText (cents : Int64) : List Char :=
  let n := cents.toInt.natAbs
  signChars (cents.toInt < 0) ++ (natDigits (n / 100) ++ '.' :: paddedDigits 2 (n % 100))

/-- The units and cents of a price are a numeral with two places. -/
theorem exists_numeral_cents {n : ℕ} (hn : n < 2 ^ 96) :
    ∃ p : Numeral, natDigits (n / 100) ++ '.' :: paddedDigits 2 (n % 100) = p.text ∧
      p.mantissa = n ∧ p.fraction.length = 2 := by
  have hlength : (paddedDigits 2 (n % 100)).length = 2 :=
    length_paddedDigits (by decide) (Nat.mod_lt n (by decide))
  -- the hundredths are padded to two digits, which puts the whole part two places up
  have hmantissa : Nat.ofDigitChars 10 (natDigits (n / 100) ++ paddedDigits 2 (n % 100)) 0 = n := by
    calc Nat.ofDigitChars 10 (natDigits (n / 100) ++ paddedDigits 2 (n % 100)) 0
        = 10 ^ (paddedDigits 2 (n % 100)).length * (n / 100) + n % 100 := by
          rw [Nat.ofDigitChars_append, ofDigitChars_natDigits,
            Nat.ofDigitChars_eq_ofDigitChars_zero, ofDigitChars_paddedDigits]
      _ = n := by rw [hlength]; exact Nat.div_add_mod n 100
  refine ⟨⟨natDigits (n / 100), paddedDigits 2 (n % 100), natDigits_ne_nil _, fun c hc => ?_,
    by rw [hlength]; decide, by rwa [hmantissa]⟩, ?_, hmantissa, hlength⟩
  · exact (List.mem_append.mp hc).elim isDigit_of_mem_natDigits isDigit_of_mem_paddedDigits
  · simp [Numeral.text, paddedDigits_ne_nil]

/-- A number of hundredths times one hundred is a whole number, which is not rounded. -/
theorem round_mul?_oneHundred (negative : Bool) {n : ℕ} (hn : n < 0x1000000000000000000000000)
    (hfits : n * 100 < 0x1000000000000000000000000) :
    ∃ r, (Decimal.make negative n 2 hn (by decide)).mul? .oneHundred = some r ∧
      r.round = if negative then -(n : ℤ) else n := by
  unfold Decimal.mul?
  split
  · -- A zero loses its places.
    next hzero =>
    have hn : n = 0 := by simpa [Decimal.make, Decimal.oneHundred, Decimal.ofNat] using hzero
    exact ⟨.zero, rfl, by simp [hn]; rfl⟩
  · next hnonzero =>
    have hn : n ≠ 0 := fun hzero => hnonzero (Or.inl hzero)
    have hround : roundHalfEven (n * 100) (tenTo 2) = n := roundHalfEven_mul_self n (by decide)
    have hscale : 2 + 0 ≤ 28 := by decide
    refine ⟨.make ((negative && n != 0) != false) (n * 100) (2 + 0) hfits hscale,
      Decimal.shorten?_of_fits _ hfits hscale, ?_⟩
    cases negative <;> simp [Decimal.round, Decimal.signed, Decimal.make, hround, hn]

private theorem parseValue_price {text : String} (h : (Json.string text).isNullMarker = false) :
    parseValue .price (.string text) =
      (reported .price text ((decimalOf text).bind fun d => orFault .outOfRange
        ((d.mul? .oneHundred).bind fun cents => toInt64? cents.round))).map .integer := by
  unfold parseValue
  simp only [h, typedText_string, Bool.false_eq_true, if_false]
  unfold centsOf
  rw [typedText_string]
  rfl

/-- What is read of a decorated number of cents in a field of prices. -/
theorem parseValue_decorated_cents {decorated : String} {cents : Int64}
    (h : Decorates decorated.toList (centsText cents)) :
    parseValue .price (.string decorated) = .ok (.integer cents) := by
  have hlow := cents.le_toInt
  have hhigh := cents.toInt_lt
  have hsize : cents.toInt.natAbs ≤ 2 ^ 63 := by omega
  obtain ⟨p, hp, hmantissa, hplaces⟩ := exists_numeral_cents (n := cents.toInt.natAbs) (by omega)
  unfold centsText at h
  simp only [hp] at h
  -- A price has at most 63 bits, so a hundred times as much still fits.
  obtain ⟨r, hr, hround⟩ := round_mul?_oneHundred (cents.toInt < 0) (n := cents.toInt.natAbs)
    (by omega) (by omega)
  have hread : decimalOf decorated =
      .ok (.make (cents.toInt < 0) cents.toInt.natAbs 2 (by omega) (by decide)) := by
    rw [decimalOf_eq_make (numericChars_decorated h)]
    simp only [hmantissa, hplaces]
  have hcents : r.round = cents.toInt := by
    rw [hround]
    by_cases hnegative : cents.toInt < 0
    · rw [if_pos (decide_eq_true hnegative)]
      omega
    · rw [if_neg (by simpa using hnegative)]
      omega
  rw [parseValue_price (isNullMarker_decorated h), hread, Except.bind, hr, Option.bind_some, hcents,
    toInt64?_eq, if_pos ⟨hlow, hhigh⟩, Int64.ofInt_toInt]
  rfl

/-! ## All decorated numbers -/

/-- A decimal of any size and number of places is read back through any decoration, with all its
places, in all fields of decimals; only a zero has no minus sign. A number of cents that is written
as a price is read back through any decoration over the whole 64-bit range. -/
theorem parseValue_decorated (decorated : String) :
    (∀ d : Decimal, Decorates decorated.toList d.text.toList → ∀ type ∈ decimalTypes,
      ∃ d', parseValue type (.string decorated) = .ok (.decimal d') ∧ d'.value = d.value ∧
        d'.scale = d.scale ∧ ((d.negative = true → d.mantissa ≠ 0) → d' = d)) ∧
    ∀ cents : Int64, Decorates decorated.toList (centsText cents) →
      parseValue .price (.string decorated) = .ok (.integer cents) := by
  refine ⟨fun d h type htype => ?_, fun cents h => parseValue_decorated_cents h⟩
  obtain ⟨p, htext, hmantissa, hplaces⟩ := d.exists_numeral_text
  rw [htext] at h
  refine ⟨.make d.negative d.mantissa d.scale d.mantissa_lt d.scale_le, ?_, d.value_make_self, rfl,
    Decimal.make_self⟩
  rw [parseValue_decorated_numeral h htype]
  simp only [hmantissa, hplaces]

/-- A sum with groups and a currency in front, and both ends of the range of prices. -/
theorem parseValue_decorated_sums :
    parseValue .currency (.string "$1,250.50") =
        .ok (.decimal ⟨false, 125050, 2, by decide, by decide⟩) ∧
      parseValue .price (.string "-$92,233,720,368,547,758.08") = .ok (.integer Int64.minValue) ∧
      parseValue .price (.string "92 233 720 368 547 758.07 each") =
        .ok (.integer Int64.maxValue) := by
  -- every text is decorated with what the reading leaves of it
  have hdecorates {decorated : String} {text : List Char}
      (h : numericChars decorated.toList = text) : Decorates decorated.toList text :=
    h ▸ .of_numericChars _
  refine ⟨?_, ?_, ?_⟩
  · obtain ⟨d, hd, -, -, hsame⟩ := (parseValue_decorated "$1,250.50").1
      ⟨false, 125050, 2, by decide, by decide⟩ (hdecorates (by decide +kernel)) .currency
      (by decide)
    rw [hd, hsame nofun]
  · exact (parseValue_decorated "-$92,233,720,368,547,758.08").2 _ (hdecorates (by decide +kernel))
  · exact (parseValue_decorated "92 233 720 368 547 758.07 each").2 _
      (hdecorates (by decide +kernel))

end FieldQuery.Value
