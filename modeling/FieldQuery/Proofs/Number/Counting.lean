import FieldQuery.Proofs.Number.Reading

/-!
# Exact sums of decimals

Decimals without a minus sign are counted in units of one place that all of them have. Counted so, a
product with a whole number and a sum are those of natural numbers as long as they fit, and nothing is
rounded away.
-/

namespace FieldQuery.Number.Decimal

open FieldQuery.Text

/-- A decimal that is a number of units of a place, or of a whole multiple of it. -/
structure Counts (d : Decimal) (places units : ℕ) : Prop where
  nonneg : d.negative = false
  scale_le : d.scale ≤ places
  units_eq : d.mantissa * 10 ^ (places - d.scale) = units

variable {d e : Decimal} {places m n : ℕ}

/-- Zero counts nothing at any number of places. -/
theorem counts_zero (places : ℕ) : zero.Counts places 0 where
  nonneg := rfl
  scale_le := Nat.zero_le _
  units_eq := Nat.zero_mul _

/-- A decimal that is made of a mantissa counts it, at its own number of places or a larger one. -/
theorem counts_make {mantissa scale : ℕ} (hm : mantissa < 0x1000000000000000000000000)
    (hs : scale ≤ 28) (hplaces : scale ≤ places) :
    (make false mantissa scale hm hs).Counts places (mantissa * 10 ^ (places - scale)) where
  nonneg := rfl
  scale_le := hplaces
  units_eq := rfl

/-- A result that fits is kept as it is. -/
theorem shorten?_of_fits (negative : Bool) {mantissa scale : ℕ}
    (hm : mantissa < 0x1000000000000000000000000) (hs : scale ≤ 28) :
    shorten? negative mantissa scale = some (make negative mantissa scale hm hs) := by
  have hten : tenTo 0 = 1 := rfl
  unfold shorten?
  -- what fits is rounded by no place, which is no rounding
  cases scale with
  | zero => simp [shortenFrom, hten, roundHalfEven_one, hm]
  | succ scale => simp [shortenFrom, hten, roundHalfEven_one, hm, hs]

namespace Counts

private theorem mantissa_le (h : d.Counts places m) : d.mantissa ≤ m := by
  rw [← h.units_eq]
  exact Nat.le_mul_of_pos_right _ (Nat.pow_pos (by decide))

/-- What a decimal counts is its value at the number of places. -/
theorem value_eq (h : d.Counts places m) : d.value = m / 10 ^ places := by
  obtain ⟨k, rfl⟩ := Nat.exists_eq_add_of_le h.scale_le
  have hunits := h.units_eq
  rw [Nat.add_sub_cancel_left] at hunits
  rw [value, signed, h.nonneg, ← hunits, pow_add]
  push_cast
  field_simp

/-- A number without units is the end of a count. -/
theorem eq_zero_of_mantissa (h : d.Counts places m) (hzero : d.mantissa = 0) : m = 0 := by
  rw [← h.units_eq, hzero, Nat.zero_mul]

/-- A product that fits is exact. -/
theorem exists_mul? (h : d.Counts places m) (hplaces : places ≤ 28)
    (hn : n < 0x1000000000000000000000000) (hfits : m * n < 0x1000000000000000000000000) :
    ∃ r, d.mul? (ofNat n hn) = some r ∧ r.Counts places (m * n) := by
  unfold mul?
  split
  · -- A zero loses its places, and counts as zero with any of them.
    next hzero =>
    have hproduct : m * n = 0 := by
      rcases hzero with hzero | hzero
      · rw [h.eq_zero_of_mantissa hzero, Nat.zero_mul]
      · rw [show n = 0 from hzero, Nat.mul_zero]
    exact ⟨zero, rfl, hproduct ▸ counts_zero places⟩
  · have hmantissa : d.mantissa * n < 0x1000000000000000000000000 :=
      (Nat.mul_le_mul_right n h.mantissa_le).trans_lt hfits
    have hscale : d.scale + 0 ≤ 28 := h.scale_le.trans hplaces
    have hsign : (d.negative != (ofNat n hn).negative) = false := by
      rw [h.nonneg]
      rfl
    rw [hsign]
    have hunits : d.mantissa * n * 10 ^ (places - (d.scale + 0)) = m * n := by
      rw [Nat.add_zero, Nat.mul_right_comm, h.units_eq]
    refine ⟨_, shorten?_of_fits false hmantissa hscale, ?_⟩
    rw [← hunits]
    exact counts_make hmantissa hscale h.scale_le

/-- The units of a place between the places of a decimal and those it is counted in. -/
theorem scaledTo_eq (h : d.Counts places m) {scale : ℕ} (hscale : d.scale ≤ scale)
    (hplaces : scale ≤ places) :
    ∃ k : ℕ, d.scaledTo scale = k ∧ k * 10 ^ (places - scale) = m := by
  -- the units of the scale are whole in the finer places
  refine ⟨d.mantissa * 10 ^ (scale - d.scale), ?_, ?_⟩
  · rw [scaledTo, h.nonneg]
    simp [tenTo]
  · rw [Nat.mul_assoc, ← pow_add, ← h.units_eq]
    congr 2
    omega

/-- A sum that fits is exact. -/
theorem exists_add? (h : d.Counts places m) (h' : e.Counts places n) (hplaces : places ≤ 28)
    (hfits : m + n < 0x1000000000000000000000000) :
    ∃ r, d.add? e = some r ∧ r.Counts places (m + n) := by
  unfold add?
  split
  · next hzero =>
    rw [h.eq_zero_of_mantissa hzero, Nat.zero_add]
    exact ⟨e, rfl, h'⟩
  split
  · next hzero =>
    rw [h'.eq_zero_of_mantissa hzero, Nat.add_zero]
    exact ⟨d, rfl, h⟩
  -- The larger of the two numbers of places is enough for both.
  have hscale : max d.scale e.scale ≤ places := max_le h.scale_le h'.scale_le
  obtain ⟨j, hj, hm⟩ := h.scaledTo_eq (le_max_left _ _) hscale
  obtain ⟨k, hk, hn⟩ := h'.scaledTo_eq (le_max_right _ _) hscale
  have hsum : (j + k) * 10 ^ (places - max d.scale e.scale) = m + n := by
    rw [Nat.add_mul, hm, hn]
  have hmantissa : j + k < 0x1000000000000000000000000 := by
    refine lt_of_le_of_lt ?_ hfits
    rw [← hsum]
    exact Nat.le_mul_of_pos_right _ (Nat.pow_pos (by decide))
  have hsize : ((j : ℤ) + k).natAbs = j + k := by omega
  have hsign : ¬ (j : ℤ) + k < 0 := by omega
  simp only [hj, hk, hsize, hsign, decide_false]
  refine ⟨_, shorten?_of_fits false hmantissa (hscale.trans hplaces), ?_⟩
  rw [← hsum]
  exact counts_make hmantissa (hscale.trans hplaces) hscale

/-- A whole number is rounded to itself. -/
theorem round_eq (h : d.Counts 0 m) : d.round = m := by
  have hscale : d.scale = 0 := Nat.le_zero.mp h.scale_le
  have hten : tenTo 0 = 1 := rfl
  have hunits := h.units_eq
  rw [hscale, Nat.sub_zero, pow_zero, Nat.mul_one] at hunits
  rw [round, signed, h.nonneg, hscale, hten, roundHalfEven_one, hunits]
  rfl

end Counts

end FieldQuery.Number.Decimal
