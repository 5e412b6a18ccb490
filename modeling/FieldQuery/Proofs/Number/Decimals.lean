import FieldQuery.Number.Decimal
import FieldQuery.Proofs.Number.Whole

/-!
# Whole decimals

A text without a point is read as a decimal without places. The size of such a decimal is that of its
mantissa, rounded once, and one more or one less is a matter of the mantissa alone.
-/

namespace FieldQuery.Number

namespace Decimal

variable {d result : Decimal} {chars : List Char}

/-- The number that a decimal is. -/
def value (d : Decimal) : ℚ :=
  d.signed d.mantissa / 10 ^ d.scale

/-! ## Reading -/

private theorem scale_of_readFrom {digits : Bool} (hpoint : '.' ∉ chars) (hscale : d.scale = 0)
    (h : readFrom d false digits chars = .ok result) : result.scale = 0 := by
  -- induction on the characters: the scale grows only behind a point
  induction chars generalizing d digits with
  | nil =>
    rw [readFrom] at h
    split at h
    · cases h
      exact hscale
    · cases h
  | cons c rest ih =>
    obtain ⟨hc, hrest⟩ := not_or.mp (List.mem_cons.not.mp hpoint)
    rw [readFrom, dif_neg (by omega)] at h
    split at h
    · split at h
      · exact ih hrest (by simpa [withDigit] using hscale) h
      · simp at h
    · split at h
      · simp_all
      · split at h
        · exact ih hrest hscale h
        · cases h

/-- A text without a point is read as a decimal without places. -/
theorem scale_of_read (hpoint : '.' ∉ chars) (h : read chars = .ok result) : result.scale = 0 := by
  have hdigits {digits : List Char} {d : Decimal} (hdigits : '.' ∉ digits)
      (h : readFrom zero false false digits = .ok d) : d.scale = 0 :=
    scale_of_readFrom hdigits rfl h
  -- a sign is read first, and what follows it has no point either
  unfold read at h
  split at h
  · cases h
  · next rest =>
    rcases hread : readFrom zero false false rest with fault | d <;> rw [hread] at h
    · cases h
    · cases h
      have hscale := hdigits (List.not_mem_of_not_mem_cons hpoint) hread
      exact hscale
  · exact hdigits (List.not_mem_of_not_mem_cons hpoint) h
  · exact hdigits hpoint h

/-! ## The next decimal -/

private theorem shorten?_zero (negative : Bool) (n : ℕ) :
    shorten? negative n 0 =
      if h : n < 0x1000000000000000000000000 then some (make negative n 0 h (Nat.zero_le 28))
      else none := by
  have hten : tenTo 0 = 1 := rfl
  have hplaces : 0 - 0 ≤ 28 := by decide
  simp only [shorten?, shortenFrom, hten, roundHalfEven_one, hplaces, and_true]

/-- The whole number next to a decimal without places, away from zero, if it is in range. -/
theorem next_eq (hscale : d.scale = 0) :
    (if d.isNegative then d.sub? .one else d.add? .one) =
      if h : d.mantissa + 1 < 0x1000000000000000000000000 then
        some ⟨d.isNegative, d.mantissa + 1, 0, h, by omega⟩
      else none := by
  obtain ⟨negative, m, scale, hm, hs⟩ := d
  obtain rfl : scale = 0 := hscale
  have hten : tenTo 0 = 1 := rfl
  -- zero has no sign, so it goes up whichever it carries
  rcases Nat.eq_zero_or_pos m with rfl | hpos
  · simp [isNegative, add?, one, ofNat, make]
  · cases negative
    · have hsign : ¬ (m : ℤ) + 1 < 0 := by omega
      have hsize : ((m : ℤ) + 1).natAbs = m + 1 := by omega
      simp [isNegative, add?, one, ofNat, make, scaledTo, hten, hpos.ne', shorten?_zero, hsize,
        hsign]
    · have hsign : -(m : ℤ) < 1 := by omega
      have hsize : (-(m : ℤ) + -1).natAbs = m + 1 := by omega
      simp [isNegative, add?, sub?, neg, one, ofNat, make, scaledTo, hten, hpos.ne', shorten?_zero,
        hsize, hsign, bne_iff_ne.mpr hpos.ne']

/-! ## The double of a decimal -/

/-- The powers of ten that places are counted in, as doubles. -/
theorem places_bounds : ∀ k < 29,
    let unit := Magnitude.ofNat (tenTo k)
    let places := (Magnitude.ofNat 10).pow k
    unit.denominator ≤ unit.numerator ∧ places.denominator ≤ places.numerator ∧
      places.numerator ≤ 2 ^ 94 * places.denominator := by
  decide +kernel

private theorem magnitude_spec (d : Decimal) : d.magnitude.Canonical ∧ d.magnitude.value < 2 ^ 200 := by
  obtain ⟨hunit, hplaces, hplaces_le⟩ := places_bounds d.scale (Nat.lt_succ_of_le d.scale_le)
  have hmantissa : (d.mantissa : ℚ) < 2 ^ 96 := by exact_mod_cast d.mantissa_lt
  have hwhole : ((d.mantissa / tenTo d.scale : ℕ) : ℚ) ≤ d.mantissa := by
    exact_mod_cast Nat.div_le_self _ _
  have hwhole_le := Magnitude.value_ofNat_le (d.mantissa / tenTo d.scale)
  simp only [magnitude]
  split
  · refine ⟨canonical_nearest _ Nat.one_pos, ?_⟩
    linarith
  · have hrest : ((d.mantissa % tenTo d.scale : ℕ) : ℚ) ≤ d.mantissa := by
      exact_mod_cast Nat.mod_le _ _
    have hrest_le := Magnitude.value_ofNat_le (d.mantissa % tenTo d.scale)
    -- Every operation at most doubles what exact arithmetic gives.
    generalize Magnitude.ofNat (tenTo d.scale) = unit at *
    generalize (Magnitude.ofNat 10).pow d.scale = places at *
    generalize Magnitude.ofNat (d.mantissa / tenTo d.scale) = whole at *
    generalize Magnitude.ofNat (d.mantissa % tenTo d.scale) = rest at *
    have hfraction_le := Magnitude.value_div_le rest hunit
    have hsum_le := Magnitude.value_add_le whole (rest.div unit)
    generalize whole.add (rest.div unit) = sum at *
    have hproduct_le := Magnitude.value_mul_le sum places
    have hround_le := Magnitude.value_round_le (sum.mul places)
    generalize (sum.mul places).round = rounded at *
    refine ⟨canonical_nearest _ (Nat.mul_pos rounded.denominator_pos
      (places.denominator_pos.trans_le hplaces)), ?_⟩
    have hquotient_le := Magnitude.value_div_le rounded hplaces
    have hplaces_value : places.value ≤ 2 ^ 94 := by
      rw [← Magnitude.numerator_div_denominator, div_le_iff₀ (by exact_mod_cast places.denominator_pos)]
      exact_mod_cast hplaces_le
    have hscaled : sum.value * places.value ≤ sum.value * 2 ^ 94 :=
      mul_le_mul_of_nonneg_left hplaces_value sum.value_nonneg
    linarith

/-- Converting never leaves the range of doubles. -/
theorem isFinite_toBinary64 (d : Decimal) : d.toBinary64.isFinite = true := by
  obtain ⟨hcanonical, hvalue⟩ := d.magnitude_spec
  exact (Binary64.ofMagnitude_spec _ hcanonical (hcanonical.exponent_le hvalue)).1

/-- The double of a decimal without places is that of a whole number. -/
theorem value_toBinary64 (hscale : d.scale = 0) :
    d.toBinary64.value =
      if d.isNegative then -(roundedNat d.mantissa : ℚ) else roundedNat d.mantissa := by
  have hten : tenTo 0 = 1 := rfl
  -- with scale zero there is no fraction to add to the whole part
  have hmagnitude : d.magnitude = Magnitude.ofNat d.mantissa := by
    have hfraction : ((Magnitude.ofNat 0).div (Magnitude.ofNat 1)).isZero = true := by
      decide +kernel
    simp only [magnitude, hscale, hten, Nat.mod_one, Nat.div_one, hfraction, if_true]
  obtain ⟨hcanonical, hexponent, hvalue⟩ := ofNat_spec (d.mantissa_lt.trans (by decide))
  rw [toBinary64, hmagnitude, Binary64.value_ofMagnitude _ hcanonical hexponent, hvalue]
  rcases Nat.eq_zero_or_pos d.mantissa with hzero | hpos
  · simp [isNegative, hzero, roundedNat_of_le]
  · simp [isNegative, hpos.ne']

/-- Without places the value is the mantissa with its sign. -/
theorem value_of_whole (hscale : d.scale = 0) :
    d.value = if d.isNegative then -(d.mantissa : ℚ) else d.mantissa := by
  rw [value, hscale, pow_zero, div_one, signed]
  rcases Nat.eq_zero_or_pos d.mantissa with hzero | hpos
  · simp [isNegative, hzero]
  · cases hsign : d.negative <;> simp [isNegative, hsign, hpos.ne']

end Decimal

end FieldQuery.Number
