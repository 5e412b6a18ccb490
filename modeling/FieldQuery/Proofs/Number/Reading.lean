import FieldQuery.Proofs.Number.Decimals
import FieldQuery.Proofs.Text.Digits

/-!
# Reading decimals

What a run of digits is read as, before and after the point. A number that fits is read exactly, a
whole part that does not fit is refused, and so is any character that has no place in a number. The
text of a decimal is read back as this decimal, and only the sign of a zero is lost.
-/

namespace FieldQuery.Number

open FieldQuery.Text

namespace Decimal

variable {d : Decimal} {run rest : List Char}

/-! ## Runs of digits -/

/-- A run of digits that fits is read as more digits of the number. -/
theorem readFrom_append (d : Decimal) (point digits : Bool) (rest : List Char)
    (hrun : ∀ c ∈ run, c.isDigit) (hscale : point = false → d.scale = 0)
    (hroom : point = true → d.scale + run.length ≤ 28)
    (hfits : Nat.ofDigitChars 10 run d.mantissa < 2 ^ 96) :
    ∃ d' : Decimal, d'.negative = d.negative ∧ d'.mantissa = Nat.ofDigitChars 10 run d.mantissa ∧
      d'.scale = d.scale + (if point then run.length else 0) ∧
      readFrom d point digits (run ++ rest) = readFrom d' point (digits || !run.isEmpty) rest := by
  -- The digits that are left only add to what has been read, so there is room for the first one.
  induction run generalizing d digits with
  | nil => exact ⟨d, rfl, rfl, by simp, by simp⟩
  | cons c run ih =>
    have hc : c.isDigit := hrun c List.mem_cons_self
    have hplaces : d.scale ≠ 28 := by
      cases point
      · rw [hscale rfl]
        decide
      · have := hroom rfl
        rw [List.length_cons] at this
        omega
    have hmantissa : d.mantissa * 10 + (c.toNat - '0'.toNat) < 0x1000000000000000000000000 := by
      rw [Nat.ofDigitChars_cons, mul_comm] at hfits
      exact (le_ofDigitChars run _).trans_lt hfits
    obtain ⟨d', hnegative, hvalue, hscale', hread⟩ :=
      ih (d.withDigit point _ hmantissa hplaces) true
        (fun c' hc' => hrun c' (List.mem_cons_of_mem c hc'))
        (fun hpoint => by simp [withDigit, hpoint, hscale hpoint])
        (fun hpoint => by
          have := hroom hpoint
          rw [List.length_cons] at this
          simp only [withDigit, hpoint, Bool.toNat_true]
          omega)
        (by simpa [withDigit, Nat.ofDigitChars_cons, mul_comm] using hfits)
    refine ⟨d', hnegative, ?_, ?_, ?_⟩
    · rw [hvalue, Nat.ofDigitChars_cons]
      simp [withDigit, mul_comm]
    · rw [hscale']
      cases point <;> simp [withDigit]
      omega
    · rw [List.cons_append, readFrom, dif_neg hplaces, if_pos hc, dif_pos hmantissa, hread]
      simp

/-- A run of digits that does not fit is refused as a whole part. -/
theorem readFrom_of_large (digits : Bool) (hrun : ∀ c ∈ run, c.isDigit) (hscale : d.scale = 0)
    (hlarge : 2 ^ 96 ≤ Nat.ofDigitChars 10 run d.mantissa) :
    readFrom d false digits run = .error .tooManyDigits := by
  -- induction on the run: the first digit that does not fit ends the reading
  induction run generalizing d digits with
  | nil => exact absurd d.mantissa_lt (not_lt.mpr hlarge)
  | cons c run ih =>
    rw [readFrom, dif_neg (by omega), if_pos (hrun c List.mem_cons_self)]
    split
    · refine ih true (fun c' hc' => hrun c' (List.mem_cons_of_mem c hc')) ?_ ?_
      · simp [withDigit, hscale]
      · simpa [withDigit, Nat.ofDigitChars_cons, mul_comm] using hlarge
    · simp

end Decimal

/-! ## Numerals -/

/-- A whole part and places that a decimal has room for. -/
structure Numeral where
  whole : List Char
  fraction : List Char
  whole_ne_nil : whole ≠ []
  isDigit : ∀ c ∈ whole ++ fraction, c.isDigit
  places_le : fraction.length ≤ 28
  fits : Nat.ofDigitChars 10 (whole ++ fraction) 0 < 2 ^ 96

namespace Numeral

/-- The digits of a numeral, with a point if it has places. -/
def text (p : Numeral) : List Char :=
  p.whole ++ if p.fraction.isEmpty then [] else '.' :: p.fraction

/-- The digits as one number. -/
def mantissa (p : Numeral) : ℕ :=
  Nat.ofDigitChars 10 (p.whole ++ p.fraction) 0

/-- The number of a numeral. -/
def value (p : Numeral) : ℚ :=
  p.mantissa / 10 ^ p.fraction.length

variable (p : Numeral) (rest : List Char)

/-- The mantissa of a numeral fits a decimal. -/
theorem mantissa_lt : p.mantissa < 0x1000000000000000000000000 :=
  p.fits

/-- A number is below the power of ten that its whole part has digits for. -/
theorem value_lt : p.value < 10 ^ p.whole.length := by
  have hlt : p.mantissa < 10 ^ (p.whole ++ p.fraction).length := by
    simpa [mantissa] using ofDigitChars_lt p.isDigit 0
  rw [List.length_append, pow_add] at hlt
  rw [value, div_lt_iff₀ (by positivity)]
  exact_mod_cast hlt

theorem value_nonneg : 0 ≤ p.value := by
  unfold value
  positivity

/-- What has been read after a numeral. -/
theorem readFrom_text :
    ∃ d : Decimal, d.negative = false ∧ d.mantissa = p.mantissa ∧ d.scale = p.fraction.length ∧
      Decimal.readFrom .zero false false (p.text ++ rest) =
        Decimal.readFrom d (!p.fraction.isEmpty) true rest := by
  obtain ⟨whole, fraction, hne, hdigits, hplaces, hfits⟩ := p
  simp only [text, mantissa]
  rw [Nat.ofDigitChars_append] at hfits ⊢
  obtain ⟨d, hnegative, hmantissa, hscale, hread⟩ := Decimal.readFrom_append .zero false false
    ((if fraction.isEmpty then [] else '.' :: fraction) ++ rest)
    (fun c hc => hdigits c (List.mem_append_left _ hc)) (fun _ => rfl) nofun
    ((le_ofDigitChars _ _).trans_lt hfits)
  have hnonempty : whole.isEmpty = false := List.isEmpty_eq_false_iff.mpr hne
  rw [hnonempty] at hread
  have hscale : d.scale = 0 := hscale
  have hmantissa : d.mantissa = Nat.ofDigitChars 10 whole 0 := hmantissa
  rw [← hmantissa] at hfits ⊢
  rw [List.append_assoc, hread]
  -- Without places there is no point, and the whole part is all that has been read.
  rcases fraction with _ | ⟨c, cs⟩
  · exact ⟨d, hnegative, rfl, hscale, rfl⟩
  · obtain ⟨d', hnegative', hmantissa', hscale', hread'⟩ := Decimal.readFrom_append d true true rest
      (fun c' hc' => hdigits c' (List.mem_append_right _ hc')) nofun (fun _ => by omega) hfits
    have hpoint (rest : List Char) : Decimal.readFrom d false true ('.' :: rest) =
        Decimal.readFrom d true true rest := by
      rw [Decimal.readFrom, dif_neg (by omega), if_neg (by decide)]
      rfl
    refine ⟨d', hnegative'.trans hnegative, hmantissa', ?_, (hpoint _).trans hread'⟩
    simpa [hscale] using hscale'

end Numeral

/-! ## Texts with a sign -/

/-- The sign in front of a number. -/
def signChars (negative : Bool) : List Char :=
  if negative then ['-'] else []

namespace Decimal

/-- A text that starts with a digit has no sign. -/
theorem read_cons_digit {c : Char} (rest : List Char) (hc : c.isDigit) :
    read (c :: rest) = readFrom zero false false (c :: rest) := by
  have hminus : c ≠ '-' := by rintro rfl; exact absurd hc (by decide)
  have hplus : c ≠ '+' := by rintro rfl; exact absurd hc (by decide)
  unfold read
  split <;> simp_all

/-- A sign in front of a text that starts with a digit applies to what the text is read as. -/
theorem read_signChars (negative : Bool) {c : Char} (rest : List Char) (hc : c.isDigit) :
    read (signChars negative ++ c :: rest) =
      (readFrom zero false false (c :: rest)).map fun d => if negative then d.neg else d := by
  cases negative
  · rw [signChars, if_neg Bool.false_ne_true, List.nil_append, read_cons_digit rest hc]
    cases readFrom zero false false (c :: rest) <;> rfl
  · rfl

/-- A whole number that is too large is refused. -/
theorem read_of_large (negative : Bool) {whole : List Char} (hwhole : ∀ c ∈ whole, c.isDigit)
    (hlarge : 2 ^ 96 ≤ Nat.ofDigitChars 10 whole 0) :
    read (signChars negative ++ whole) = .error .tooManyDigits := by
  rcases whole with _ | ⟨c, rest⟩
  · simp at hlarge
  · rw [read_signChars negative rest (hwhole c List.mem_cons_self),
      readFrom_of_large false hwhole rfl hlarge]
    rfl

end Decimal

namespace Numeral

/-- A numeral begins with a digit. -/
theorem text_eq_cons (p : Numeral) : ∃ c rest, p.text = c :: rest ∧ c.isDigit := by
  obtain ⟨c, rest, hwhole⟩ := List.exists_cons_of_ne_nil p.whole_ne_nil
  refine ⟨c, _, by rw [text, hwhole]; rfl, p.isDigit c ?_⟩
  simp [hwhole]

/-- A numeral is read as it is. -/
theorem read_text (p : Numeral) (negative : Bool) :
    Decimal.read (signChars negative ++ p.text) =
      .ok (.make negative p.mantissa p.fraction.length p.mantissa_lt p.places_le) := by
  obtain ⟨d, hnegative, hmantissa, hscale, hread⟩ := p.readFrom_text []
  obtain ⟨c, rest, htext, hc⟩ := p.text_eq_cons
  rw [List.append_nil, htext, Decimal.readFrom] at hread
  rw [htext, Decimal.read_signChars negative rest hc, hread]
  obtain ⟨sign, m, s, hm, hs⟩ := d
  simp only at hnegative hmantissa hscale
  subst hnegative hmantissa hscale
  cases negative <;> rfl

/-- A second sign is refused. -/
theorem read_text_minus (p : Numeral) (negative : Bool) (rest : List Char) :
    Decimal.read (signChars negative ++ (p.text ++ '-' :: rest)) = .error .unknownCharacter := by
  obtain ⟨d, -, -, -, hread⟩ := p.readFrom_text ('-' :: rest)
  obtain ⟨c, front, htext, hc⟩ := p.text_eq_cons
  -- a hyphen is neither a digit nor a mark, whatever was read up to it
  have hminus (point : Bool) :
      Decimal.readFrom d point true ('-' :: rest) = .error .unknownCharacter := by
    rw [Decimal.readFrom]
    split
    · rfl
    · rw [if_neg (by decide)]
      rfl
  rw [htext, List.cons_append, hminus] at hread
  rw [htext, List.cons_append, Decimal.read_signChars negative _ hc, hread]
  rfl

end Numeral

/-- The digits of a number are read as this number if it has at most 96 bits. -/
theorem Decimal.read_natDigits (negative : Bool) {n : ℕ} (h : n < 0x1000000000000000000000000) :
    read (signChars negative ++ natDigits n) = .ok (make negative n 0 h (Nat.zero_le 28)) := by
  -- the digits of a number that fits are a numeral without places
  let p : Numeral := ⟨natDigits n, [], natDigits_ne_nil n,
    by simpa using fun _ => isDigit_of_mem_natDigits, by decide, by simpa using h⟩
  have htext : p.text = natDigits n := by simp [Numeral.text, p]
  have hmantissa : p.mantissa = n := by simp [Numeral.mantissa, p]
  rw [← htext, p.read_text]
  simp only [hmantissa]
  rfl

/-- The value of a decimal is its mantissa at its places, with the sign. -/
theorem Decimal.value_make (negative : Bool) {m s : ℕ} (hm : m < 0x1000000000000000000000000)
    (hs : s ≤ 28) :
    (make negative m s hm hs).value = if negative then -(m / 10 ^ s : ℚ) else m / 10 ^ s := by
  rcases Nat.eq_zero_or_pos m with rfl | hpos
  · cases negative <;> simp [value, signed, make]
  · cases negative <;> simp [value, signed, make, hpos.ne', neg_div]

/-! ## Printed decimals -/

namespace Decimal

/-- The text of a decimal has its mantissa and its places. -/
theorem exists_numeral_text (d : Decimal) :
    ∃ p : Numeral, d.text.toList = signChars d.negative ++ p.text ∧ p.mantissa = d.mantissa ∧
      p.fraction.length = d.scale := by
  have hlength := le_length_paddedDigits (d.scale + 1) d.mantissa
  have hmantissa := ofDigitChars_paddedDigits (d.scale + 1) d.mantissa
  have hdigits : ∀ c ∈ paddedDigits (d.scale + 1) d.mantissa, c.isDigit :=
    fun _ => isDigit_of_mem_paddedDigits
  obtain ⟨whole, fraction, hsplit, hwhole, hfraction⟩ : ∃ whole fraction,
      paddedDigits (d.scale + 1) d.mantissa = whole ++ fraction ∧ whole ≠ [] ∧
        fraction.length = d.scale := by
    refine ⟨_, _, (List.take_append_drop
      ((paddedDigits (d.scale + 1) d.mantissa).length - d.scale) _).symm, ?_, ?_⟩
    · rw [← List.length_pos_iff, List.length_take]
      omega
    · rw [List.length_drop]
      omega
  rw [hsplit] at hmantissa hdigits
  refine ⟨⟨whole, fraction, hwhole, hdigits, hfraction ▸ d.scale_le, ?_⟩, ?_, hmantissa, hfraction⟩
  · rw [hmantissa]
    exact d.mantissa_lt
  · have hfront : (whole ++ fraction).length - d.scale = whole.length := by
      rw [List.length_append, hfraction]
      omega
    simp only [text, hsplit, hfront, List.take_left, List.drop_left, String.toList_ofList,
      Numeral.text, signChars, List.append_assoc]
    -- There is a point exactly if there are places.
    cases fraction with
    | nil => simp [← hfraction]
    | cons c places => simp [← hfraction]

/-- A decimal keeps its number without the sign of a zero. -/
theorem value_make_self (d : Decimal) :
    (make d.negative d.mantissa d.scale d.mantissa_lt d.scale_le).value = d.value := by
  rw [value_make, value, signed]
  cases d.negative <;> simp [neg_div]

/-- A decimal whose minus sign counts is made of its parts. -/
theorem make_self {d : Decimal} (h : d.negative = true → d.mantissa ≠ 0) :
    make d.negative d.mantissa d.scale d.mantissa_lt d.scale_le = d := by
  obtain ⟨negative, mantissa, scale, hm, hs⟩ := d
  cases negative with
  | false => rfl
  | true => simpa [make] using h rfl

end Decimal

end FieldQuery.Number
