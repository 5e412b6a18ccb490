import FieldQuery.Proofs.Number.Reading

/-!
# Written decimals

A text that is read as a decimal is a number as it is written: digits with separators behind the first
of them, at most one point, and a sign in front or none. Main statement: this, and how far the decimal
may be from the number that is written, which is half a unit in its last place, and nothing if there
is room for all the digits.
-/

namespace FieldQuery.Number

open FieldQuery.Text

/-! ## Numbers as they are written -/

/-- The digits of a text. -/
def digitsOf (text : List Char) : List Char :=
  text.filter Char.isDigit

/-- The digits of a text after its point. -/
def placesOf (text : List Char) : List Char :=
  digitsOf (text.dropWhile (· != '.'))

/-- A number without a sign: digits, separators behind the first digit, and at most one point. -/
structure IsUnsignedNumber (text : List Char) : Prop where
  allowed : ∀ c ∈ text, c.isDigit ∨ c = '_' ∨ c = '.'
  point : text.count '.' ≤ 1
  first : ∃ c, text.find? (· != '.') = some c ∧ c.isDigit

/-- A number with a sign in front or without one. -/
def IsWrittenNumber (text : List Char) : Prop :=
  ∃ sign ∈ [[], ['-'], ['+']], ∃ digits, text = sign ++ digits ∧ IsUnsignedNumber digits

/-- The characters of a number. -/
theorem IsWrittenNumber.allowed {text : List Char} (h : IsWrittenNumber text) :
    ∀ c ∈ text, c.isDigit ∨ c ∈ ['_', '.', '-', '+'] := by
  obtain ⟨sign, hsign, digits, rfl, hdigits⟩ := h
  intro c hc
  rcases List.mem_append.mp hc with hc | hc
  · have hsign : sign = [] ∨ sign = ['-'] ∨ sign = ['+'] := by simpa using hsign
    rcases hsign with rfl | rfl | rfl <;> simp_all
  · rcases hdigits.allowed c hc with hc | hc | hc <;> simp [hc]

/-- The number that is written in a text. -/
def writtenValue (text : List Char) : ℚ :=
  let size : ℚ := Nat.ofDigitChars 10 (digitsOf text) 0 / 10 ^ (placesOf text).length
  if text.head? = some '-' then -size else size

/-- A number all of whose digits a decimal has room for. -/
structure HasRoom (text : List Char) : Prop where
  places_le : (placesOf text).length ≤ 28
  digits_lt : Nat.ofDigitChars 10 (digitsOf text) 0 < 2 ^ 96

/-! ## Reading digits -/

namespace Decimal

/-- A decimal that stands for `m / 10 ^ s`: it is off by at most half a unit of its last place. -/
structure StandsFor (d : Decimal) (m s : ℕ) : Prop where
  nonneg : d.negative = false
  scale_le : d.scale ≤ s
  le : 2 * m ≤ (2 * d.mantissa + 1) * 10 ^ (s - d.scale)
  ge : 2 * d.mantissa * 10 ^ (s - d.scale) ≤ 2 * m + 10 ^ (s - d.scale)

private theorem standsFor_self {d : Decimal} (h : d.negative = false) :
    d.StandsFor d.mantissa d.scale where
  nonneg := h
  scale_le := le_rfl
  le := by simp
  ge := by simp

private theorem digit_lt {c : Char} (h : c.isDigit) : c.toNat - '0'.toNat < 10 := by
  have hdigit := toNat_of_isDigit h
  have hzero : '0'.toNat = 48 := rfl
  omega

/-- What rounding on a digit gives stands for the number with this digit and any further ones. -/
theorem standsFor_of_roundAt {d r : Decimal} {c : Char} {m n : ℕ} (hnonneg : d.negative = false)
    (hm : m < 10 ^ n) (h : roundAt d c = .ok r) :
    c.isDigit ∧ r.StandsFor ((d.mantissa * 10 + (c.toNat - '0'.toNat)) * 10 ^ n + m)
      (d.scale + (n + 1)) := by
  unfold roundAt at h
  split at h
  swap
  · cases h
  next hdigit =>
  refine ⟨hdigit, ?_⟩
  have hlt := digit_lt hdigit
  have hdown : c.toNat < '5'.toNat ↔ c.toNat - '0'.toNat < 5 := by
    have hcode := toNat_of_isDigit hdigit
    have hzero : '0'.toNat = 48 := rfl
    have hfive : '5'.toNat = 53 := rfl
    omega
  generalize c.toNat - '0'.toNat = v at *
  have hunit : 10 ^ (n + 1) = 10 * 10 ^ n := by rw [pow_succ, mul_comm]
  split at h
  -- Below five the digit and what follows it are less than half a unit.
  · next hsmall =>
    obtain rfl := Except.ok.inj h
    have hsmall := hdown.mp hsmall
    have hv : v * 10 ^ n ≤ 4 * 10 ^ n := Nat.mul_le_mul_right _ (by omega)
    refine ⟨hnonneg, by omega, ?_, ?_⟩
    · rw [Nat.add_sub_cancel_left, hunit]
      linarith
    · rw [Nat.add_sub_cancel_left, hunit]
      linarith [Nat.zero_le (v * 10 ^ n)]
  next hlarge =>
  have hlarge := hdown.not.mp hlarge
  have hv : 5 * 10 ^ n ≤ v * 10 ^ n := Nat.mul_le_mul_right _ (by omega)
  have hv' : v * 10 ^ n ≤ 9 * 10 ^ n := Nat.mul_le_mul_right _ (by omega)
  split at h
  -- From five on they are at least half a unit, and the mantissa is rounded up.
  · obtain rfl := Except.ok.inj h
    refine ⟨by simp [make, hnonneg], by simp [make], ?_, ?_⟩
    all_goals
      simp only [make]
      rw [Nat.add_sub_cancel_left, hunit]
      linarith
  next hfull =>
  split at h
  · cases h
  -- A mantissa without room is the greatest one, which gives up a place that is rounded up too.
  · next hscale =>
    obtain rfl := Except.ok.inj h
    have hmantissa : d.mantissa = 0xFFFFFFFFFFFFFFFFFFFFFFFF := by
      have := d.mantissa_lt
      omega
    have hplaces : d.scale + (n + 1) - (d.scale - 1) = n + 2 := by omega
    have hunit' : 10 ^ (n + 2) = 100 * 10 ^ n := by rw [pow_add, mul_comm]; rfl
    refine ⟨by simp [make, hnonneg], by simp only [make]; omega, ?_, ?_⟩
    all_goals
      simp only [make, hplaces, hunit', hmantissa]
      linarith

private theorem checkDropped_eq_ok {chars : List Char} (h : checkDropped chars = .ok ()) :
    ∀ c ∈ chars, c.isDigit ∨ c = '_' := by
  -- induction on the characters: one that is no digit and no separator is refused
  induction chars with
  | nil => simp
  | cons c chars ih =>
    rw [checkDropped] at h
    split at h
    · next hc =>
      intro c' hmem
      rcases List.mem_cons.mp hmem with rfl | hmem
      · simpa using hc
      · exact ih h c' hmem
    · cases h

@[simp]
theorem digitsOf_nil : digitsOf [] = [] :=
  rfl

private theorem digitsOf_cons_digit {c : Char} (h : c.isDigit) (chars : List Char) :
    digitsOf (c :: chars) = c :: digitsOf chars :=
  List.filter_cons_of_pos h

/-- What is no digit is passed over. -/
theorem digitsOf_cons_other {c : Char} (h : c.isDigit = false) (chars : List Char) :
    digitsOf (c :: chars) = digitsOf chars :=
  List.filter_cons_of_neg (by simp [h])

private theorem isDigit_of_mem_digitsOf {chars : List Char} : ∀ c ∈ digitsOf chars, c.isDigit :=
  fun _ hc => (List.mem_filter.mp hc).2

/-- A number that is closed stands for the number with the digits that are left, and is not changed if
there are none. -/
theorem standsFor_of_closeAt {d r : Decimal} {chars : List Char} (hnonneg : d.negative = false)
    (h : closeAt d chars = .ok r) :
    (∀ c ∈ chars, c.isDigit ∨ c = '_') ∧ (digitsOf chars = [] → r = d) ∧
      r.StandsFor (Nat.ofDigitChars 10 (digitsOf chars) d.mantissa)
        (d.scale + (digitsOf chars).length) := by
  induction chars with
  | nil =>
    obtain rfl := Except.ok.inj h
    exact ⟨by simp, fun _ => rfl, standsFor_self hnonneg⟩
  | cons c chars ih =>
    rw [closeAt] at h
    split at h
    · next hseparator =>
      obtain ⟨hallowed, hsame, hstands⟩ := ih h
      have hdigits : digitsOf (c :: chars) = digitsOf chars :=
        digitsOf_cons_other (by rw [hseparator]; rfl) chars
      rw [hdigits]
      exact ⟨by simpa [hseparator] using hallowed, hsame, hstands⟩
    · -- The digit decides, and of what follows it only the number of digits matters.
      cases hclosed : roundAt d c with
      | error fault => rw [hclosed] at h; cases h
      | ok closed =>
        cases hdropped : checkDropped chars with
        | error fault => rw [hclosed, hdropped] at h; cases h
        | ok _ =>
          rw [hclosed, hdropped] at h
          obtain rfl := Except.ok.inj h
          have hrest : Nat.ofDigitChars 10 (digitsOf chars) 0 < 10 ^ (digitsOf chars).length := by
            simpa using ofDigitChars_lt isDigit_of_mem_digitsOf 0
          obtain ⟨hdigit, hstands⟩ := standsFor_of_roundAt hnonneg hrest hclosed
          rw [digitsOf_cons_digit hdigit, Nat.ofDigitChars_cons,
            Nat.ofDigitChars_eq_ofDigitChars_zero, List.length_cons, mul_comm (10 ^ _),
            mul_comm 10]
          refine ⟨?_, by simp, hstands⟩
          intro c' hmem
          rcases List.mem_cons.mp hmem with rfl | hmem
          · exact Or.inl hdigit
          · exact checkDropped_eq_ok hdropped c' hmem

/-- The ways in which reading goes on at a character. -/
theorem readFrom_cons_eq_ok {d r : Decimal} {point digits : Bool} {c : Char} {rest : List Char}
    (h : readFrom d point digits (c :: rest) = .ok r) :
    closeAt d (c :: rest) = .ok r ∧ (d.scale = 28 ∨ c.isDigit ∧ point = true ∧
        2 ^ 96 ≤ 10 * d.mantissa + (c.toNat - '0'.toNat)) ∨
      c.isDigit ∧ (∃ d' : Decimal, d'.negative = d.negative ∧
        d'.mantissa = 10 * d.mantissa + (c.toNat - '0'.toNat) ∧
        d'.scale = d.scale + point.toNat ∧ readFrom d' point true rest = .ok r) ∨
      c = '.' ∧ point = false ∧ readFrom d true digits rest = .ok r ∨
      c = '_' ∧ digits = true ∧ readFrom d point digits rest = .ok r := by
  -- the branches of the reader in their order: no places left, a digit, a point, a separator
  rw [readFrom] at h
  split at h
  · next hfull => exact Or.inl ⟨h, Or.inl hfull⟩
  next hplaces =>
  split at h
  · next hdigit =>
    split at h
    · next hfits =>
      refine Or.inr (Or.inl ⟨hdigit, d.withDigit point _ hfits hplaces, rfl, ?_, rfl, h⟩)
      simp [withDigit, Nat.mul_comm]
    · next hlarge =>
      split at h
      · next hpoint => exact Or.inl ⟨h, Or.inr ⟨hdigit, hpoint, by omega⟩⟩
      · cases h
  · split at h
    · next hpoint =>
      simp only [Bool.and_eq_true, decide_eq_true_eq, Bool.not_eq_true'] at hpoint
      exact Or.inr (Or.inr (Or.inl ⟨hpoint.1, hpoint.2, h⟩))
    · split at h
      · next hseparator =>
        simp only [Bool.and_eq_true, decide_eq_true_eq] at hseparator
        exact Or.inr (Or.inr (Or.inr ⟨hseparator.1, hseparator.2, h⟩))
      · cases h

/-- The characters that are read as digits of a number: separators need a digit before them, and a
second point is refused. -/
theorem unsigned_of_readFrom {d r : Decimal} {point digits : Bool} {chars : List Char}
    (hnonneg : d.negative = false) (hscale : digits = false → d.scale = 0)
    (h : readFrom d point digits chars = .ok r) :
    (∀ c ∈ chars, c.isDigit ∨ c = '_' ∨ c = '.') ∧
      chars.count '.' + point.toNat ≤ 1 ∧
      (digits = false → ∃ c, chars.find? (· != '.') = some c ∧ c.isDigit) := by
  induction chars generalizing d point digits with
  | nil =>
    rw [readFrom] at h
    split at h
    · next hdigits => exact ⟨by simp, by cases point <;> simp, by simp [hdigits]⟩
    · cases h
  | cons c chars ih =>
    rcases readFrom_cons_eq_ok h with ⟨hclosed, hfull⟩ |
      ⟨hdigit, d', hnegative, -, hplaces, hread⟩ | ⟨rfl, rfl, hread⟩ | ⟨rfl, rfl, hread⟩
    · -- A number without room goes on with digits and separators only.
      obtain ⟨hallowed, -, -⟩ := standsFor_of_closeAt hnonneg hclosed
      have hpoint : '.' ∉ c :: chars := by
        intro hmem
        exact absurd (hallowed '.' hmem) (by decide)
      refine ⟨fun c' hc' => (hallowed c' hc').imp_right Or.inl, ?_, ?_⟩
      · rw [List.count_eq_zero.mpr hpoint]
        cases point <;> simp
      · intro hnone
        rcases hfull with hfull | ⟨hdigit, -, -⟩
        · rw [hscale hnone] at hfull
          cases hfull
        · have hc : c ≠ '.' := by
            rintro rfl
            exact hpoint List.mem_cons_self
          exact ⟨c, List.find?_cons_of_pos (by simpa using hc), hdigit⟩
    · have hpoint : c ≠ '.' := by
        rintro rfl
        exact absurd hdigit (by decide)
      obtain ⟨hallowed, hcount, -⟩ := ih (hnegative.trans hnonneg) (by simp) hread
      refine ⟨?_, ?_, fun _ => ⟨c, List.find?_cons_of_pos (by simpa using hpoint), hdigit⟩⟩
      · simpa [hdigit] using hallowed
      · rwa [List.count_cons_of_ne hpoint]
    · obtain ⟨hallowed, hcount, hfirst⟩ := ih hnonneg hscale hread
      refine ⟨by simpa using hallowed, ?_, ?_⟩
      · simpa using hcount
      · simpa using hfirst
    · obtain ⟨hallowed, hcount, -⟩ := ih hnonneg (by simp) hread
      refine ⟨by simpa using hallowed, ?_, by simp⟩
      rwa [List.count_cons_of_ne (by decide)]

/-- The decimal that is read stands for the number with all the digits, and is this number if there is
room for it. -/
theorem standsFor_of_readFrom {d r : Decimal} {point digits : Bool} {chars : List Char}
    (hnonneg : d.negative = false) (hscale : point = false → d.scale = 0)
    (h : readFrom d point digits chars = .ok r) :
    let m := Nat.ofDigitChars 10 (digitsOf chars) d.mantissa
    let s := d.scale + (if point then digitsOf chars else placesOf chars).length
    r.StandsFor m s ∧ (m < 2 ^ 96 → s ≤ 28 → r.mantissa = m ∧ r.scale = s) := by
  induction chars generalizing d point digits with
  | nil =>
    rw [readFrom] at h
    split at h
    · obtain rfl := Except.ok.inj h
      have hplaces : placesOf [] = [] := rfl
      simpa [hplaces] using standsFor_self hnonneg
    · cases h
  | cons c chars ih =>
    rcases readFrom_cons_eq_ok h with ⟨hclosed, hfull⟩ |
      ⟨hdigit, d', hnegative, hmantissa, hplaces, hread⟩ | ⟨rfl, rfl, hread⟩ | ⟨rfl, rfl, hread⟩
    · -- Closing a number with digits left means that there is no room for them.
      obtain ⟨-, hsame, hstands⟩ := standsFor_of_closeAt hnonneg hclosed
      have hpoint : point = true := by
        rcases hfull with hfull | ⟨-, hpoint, -⟩
        · by_contra hnone
          rw [hscale (by simpa using hnone)] at hfull
          cases hfull
        · exact hpoint
      simp only [hpoint, if_true]
      refine ⟨hstands, fun hfits hplaces => ?_⟩
      rcases hfull with hfull | ⟨hdigit, -, hlarge⟩
      · have hnone : digitsOf (c :: chars) = [] := List.length_eq_zero_iff.mp (by omega)
        rw [hsame hnone, hnone]
        simp
      · rw [digitsOf_cons_digit hdigit, Nat.ofDigitChars_cons] at hfits
        exact absurd ((le_ofDigitChars _ _).trans_lt hfits) (not_lt.mpr hlarge)
    · have hpoint : c ≠ '.' := by
        rintro rfl
        exact absurd hdigit (by decide)
      have hplacesOf : placesOf (c :: chars) = placesOf chars := by
        simp [placesOf, hpoint]
      have hnext := ih (hnegative.trans hnonneg)
        (fun hnone => by simp [hplaces, hnone, hscale hnone]) hread
      rw [hmantissa, hplaces] at hnext
      simp only [digitsOf_cons_digit hdigit, hplacesOf, Nat.ofDigitChars_cons]
      cases point
      · simpa using hnext
      · simpa [Nat.add_assoc, Nat.add_comm 1] using hnext
    · have hplacesOf : placesOf ('.' :: chars) = digitsOf chars :=
        digitsOf_cons_other (by decide) chars
      have hnext := ih hnonneg (by simp) hread
      simpa [digitsOf_cons_other (c := '.') (by decide), hplacesOf] using hnext
    · have hplacesOf : placesOf ('_' :: chars) = placesOf chars := by
        simp [placesOf]
      have hnext := ih hnonneg hscale hread
      simpa [digitsOf_cons_other (c := '_') (by decide), hplacesOf] using hnext

/-! ## Reading a number -/

private theorem value_of_nonneg {d : Decimal} (h : d.negative = false) :
    d.value = d.mantissa / 10 ^ d.scale := by
  simp [value, signed, h]

private theorem value_neg {d : Decimal} (h : d.negative = false) : d.neg.value = -d.value := by
  rw [neg, value_make, value_of_nonneg h, h]
  rfl

/-- A decimal is half a unit of its last place off at most. -/
theorem StandsFor.abs_sub_le {d : Decimal} {m s : ℕ} (h : d.StandsFor m s) :
    |d.value - m / 10 ^ s| ≤ 1 / 2 / 10 ^ d.scale := by
  obtain ⟨k, rfl⟩ := Nat.exists_eq_add_of_le h.scale_le
  have hle := h.le
  have hge := h.ge
  rw [Nat.add_sub_cancel_left] at hle hge
  have hunit : (0 : ℚ) < 10 ^ k := by positivity
  have hle : (2 * m : ℚ) ≤ (2 * d.mantissa + 1) * 10 ^ k := by exact_mod_cast hle
  have hge : (2 * d.mantissa * 10 ^ k : ℚ) ≤ 2 * m + 10 ^ k := by exact_mod_cast hge
  have hupper : (m / 10 ^ k : ℚ) ≤ d.mantissa + 1 / 2 := by
    rw [div_le_iff₀ hunit]
    linarith
  have hlower : (d.mantissa : ℚ) - 1 / 2 ≤ m / 10 ^ k := by
    rw [le_div_iff₀ hunit]
    linarith
  have hhalf : |(d.mantissa : ℚ) - m / 10 ^ k| ≤ 1 / 2 :=
    abs_le.mpr ⟨by linarith, by linarith⟩
  -- Both numbers are counted in the last place of the decimal.
  calc |d.value - m / 10 ^ (d.scale + k)|
      = |((d.mantissa : ℚ) - m / 10 ^ k) / 10 ^ d.scale| := by
        rw [value_of_nonneg h.nonneg, pow_add, sub_div, div_div, mul_comm (10 ^ k : ℚ)]
    _ = |(d.mantissa : ℚ) - m / 10 ^ k| / 10 ^ d.scale := by
        rw [abs_div, abs_of_pos (show (0 : ℚ) < 10 ^ d.scale by positivity)]
    _ ≤ 1 / 2 / 10 ^ d.scale := div_le_div_of_nonneg_right hhalf (by positivity)

/-- Digits without a sign are read as the number that they are, up to the room that there is. -/
theorem unsigned_of_read {d : Decimal} {text : List Char}
    (h : readFrom zero false false text = .ok d) :
    IsUnsignedNumber text ∧ d.negative = false ∧
      |d.value - Nat.ofDigitChars 10 (digitsOf text) 0 / 10 ^ (placesOf text).length| ≤
        1 / 2 / 10 ^ d.scale ∧
      (HasRoom text → d.scale = (placesOf text).length ∧
        d.value = Nat.ofDigitChars 10 (digitsOf text) 0 / 10 ^ (placesOf text).length) := by
  -- what is read starts from zero, where mantissa and scale say nothing yet
  obtain ⟨hallowed, hcount, hfirst⟩ := unsigned_of_readFrom rfl (fun _ => rfl) h
  obtain ⟨hstands, hexact⟩ := standsFor_of_readFrom rfl (fun _ => rfl) h
  have hmantissa : zero.mantissa = 0 := rfl
  have hscale : zero.scale = 0 := rfl
  simp only [hmantissa, hscale, Nat.zero_add, Bool.false_eq_true, if_false] at hstands hexact
  refine ⟨⟨hallowed, by simpa using hcount, hfirst rfl⟩, hstands.nonneg, hstands.abs_sub_le, ?_⟩
  intro hroom
  obtain ⟨hm, hs⟩ := hexact hroom.digits_lt hroom.places_le
  exact ⟨hs, by rw [value_of_nonneg hstands.nonneg, hm, hs]⟩

/-- A text that is read as a decimal is a number, and the decimal is off by at most half a unit of its
last place, and not at all if there is room for all digits. -/
theorem writtenNumber_of_read {d : Decimal} {text : List Char} (h : read text = .ok d) :
    IsWrittenNumber text ∧ |d.value - writtenValue text| ≤ 1 / 2 / 10 ^ d.scale ∧
      (HasRoom text → d.scale = (placesOf text).length ∧ d.value = writtenValue text) := by
  -- A sign is no digit, and it comes before the point.
  have hsign : ∀ sign rest, sign ≠ '.' → sign.isDigit = false →
      digitsOf (sign :: rest) = digitsOf rest ∧ placesOf (sign :: rest) = placesOf rest := by
    intro sign rest hpoint hdigit
    exact ⟨digitsOf_cons_other hdigit rest, by simp [placesOf, hpoint]⟩
  unfold read at h
  split at h
  · cases h
  · next rest =>
    obtain ⟨hdigits, hplaces⟩ := hsign '-' rest (by decide) (by decide)
    cases hread : readFrom zero false false rest with
    | error fault => rw [hread] at h; cases h
    | ok size =>
      rw [hread] at h
      obtain rfl := Except.ok.inj h
      obtain ⟨hunsigned, hnonneg, hnear, hexact⟩ := unsigned_of_read hread
      have hscale : size.neg.scale = size.scale := rfl
      have hvalue : writtenValue ('-' :: rest) =
          -(Nat.ofDigitChars 10 (digitsOf rest) 0 / 10 ^ (placesOf rest).length) := by
        simp [writtenValue, hdigits, hplaces]
      rw [hvalue, hscale, value_neg hnonneg, ← neg_sub', abs_neg]
      refine ⟨⟨['-'], by simp, rest, rfl, hunsigned⟩, hnear, fun hroom => ?_⟩
      obtain ⟨hscale, hsame⟩ := hexact ⟨hplaces ▸ hroom.places_le, hdigits ▸ hroom.digits_lt⟩
      exact ⟨hplaces ▸ hscale, by rw [hsame]⟩
  · next rest =>
    obtain ⟨hdigits, hplaces⟩ := hsign '+' rest (by decide) (by decide)
    obtain ⟨hunsigned, -, hnear, hexact⟩ := unsigned_of_read h
    have hvalue : writtenValue ('+' :: rest) =
        Nat.ofDigitChars 10 (digitsOf rest) 0 / 10 ^ (placesOf rest).length := by
      simp [writtenValue, hdigits, hplaces]
    rw [hvalue]
    refine ⟨⟨['+'], by simp, rest, rfl, hunsigned⟩, hnear, fun hroom => ?_⟩
    obtain ⟨hscale, hsame⟩ := hexact ⟨hplaces ▸ hroom.places_le, hdigits ▸ hroom.digits_lt⟩
    exact ⟨hplaces ▸ hscale, hsame⟩
  · next hminus hplus =>
    obtain ⟨hunsigned, -, hnear, hexact⟩ := unsigned_of_read h
    have hhead : text.head? ≠ some '-' := by
      intro hhead
      obtain ⟨rest, rfl⟩ := List.head?_eq_some_iff.mp hhead
      exact hminus rest rfl
    rw [writtenValue, if_neg hhead]
    exact ⟨⟨[], by simp, text, rfl, hunsigned⟩, hnear, hexact⟩

end Decimal

end FieldQuery.Number
