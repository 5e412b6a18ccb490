import FieldQuery.Proofs.Number.Doubles
import FieldQuery.Proofs.Number.Rounding
import Mathlib.Data.Nat.Cast.Order.Field

/-!
# The nearest double

A number that is not negative has one unit in which it has 53 binary digits, or fewer in the least
unit. The nearest double is what it is rounded to in this unit. It is in the form of doubles, and at
most twice the number, so that no sum and product of decimals leaves the range of doubles.
-/

namespace FieldQuery.Number

open Magnitude

/-! ## The unit of a number -/

/-- The exponent of the unit in which a number has 53 binary digits, or fewer in the least unit. -/
structure HasUnit (r : ℚ) (e : ℤ) : Prop where
  lt : r < 2 ^ 53 * 2 ^ e
  leading : 2 ^ 52 * 2 ^ e ≤ r ∨ e = leastExponent
  least_le : leastExponent ≤ e

namespace HasUnit

variable {r r' : ℚ} {e e' : ℤ}

/-- A larger number has no smaller unit. -/
theorem mono (h : HasUnit r e) (h' : HasUnit r' e') (hle : r ≤ r') : e ≤ e' := by
  by_contra hlt
  have hnext : e' + 1 ≤ e := by omega
  have hleading := h.leading.resolve_right fun hleast => by have := h'.least_le; omega
  have hpow : (2 : ℚ) ^ (e' + 1) ≤ 2 ^ e := zpow_le_zpow_right₀ one_le_two hnext
  rw [zpow_add_one₀ two_ne_zero] at hpow
  linarith [h'.lt]

/-- A number has one unit. -/
theorem unique (h : HasUnit r e) (h' : HasUnit r e') : e = e' :=
  le_antisymm (h.mono h' le_rfl) (h'.mono h le_rfl)

end HasUnit

/-- The power at the binary logarithm is not above the number. -/
theorem cast_log2_le {n : ℕ} (hn : 0 < n) : (2 : ℚ) ^ (n.log2 : ℤ) ≤ n := by
  rw [zpow_natCast]
  exact_mod_cast Nat.log2_self_le hn.ne'

/-- The power after the binary logarithm is above the number. -/
theorem cast_lt_log2 (n : ℕ) : (n : ℚ) < 2 ^ ((n.log2 : ℤ) + 1) := by
  have h : (n : ℚ) < 2 ^ (n.log2 + 1) := by exact_mod_cast Nat.lt_log2_self
  rwa [← zpow_natCast] at h

/-- The binary digits of numerator and denominator tell a quotient up to a factor of four. -/
theorem div_log2_bounds {n d : ℕ} (hn : 0 < n) (hd : 0 < d) :
    2 ^ 51 * 2 ^ ((n.log2 : ℤ) - d.log2 - 52) ≤ (n / d : ℚ) ∧
      (n / d : ℚ) < 2 ^ 53 * 2 ^ ((n.log2 : ℤ) - d.log2 - 52) := by
  have hd' : (0 : ℚ) < d := by exact_mod_cast hd
  constructor
  · -- the least numerator over the greatest denominator, which loses one binary place
    rw [le_div_iff₀ hd']
    refine le_trans ?_ (cast_log2_le hn)
    have hsplit : (2 : ℚ) ^ (n.log2 : ℤ) =
        2 ^ 51 * 2 ^ ((n.log2 : ℤ) - d.log2 - 52) * 2 ^ ((d.log2 : ℤ) + 1) := by
      rw [← zpow_natCast, ← zpow_add₀ two_ne_zero, ← zpow_add₀ two_ne_zero]
      congr 1
      push_cast
      omega
    rw [hsplit]
    exact mul_le_mul_of_nonneg_left (cast_lt_log2 d).le (by positivity)
  · -- and the greatest over the least, which gains one
    rw [div_lt_iff₀ hd']
    refine lt_of_lt_of_le (cast_lt_log2 n) ?_
    have hsplit : (2 : ℚ) ^ ((n.log2 : ℤ) + 1) =
        2 ^ 53 * 2 ^ ((n.log2 : ℤ) - d.log2 - 52) * 2 ^ (d.log2 : ℤ) := by
      rw [← zpow_natCast, ← zpow_add₀ two_ne_zero, ← zpow_add₀ two_ne_zero]
      congr 1
      push_cast
      omega
    rw [hsplit]
    exact mul_le_mul_of_nonneg_left (cast_log2_le hd) (by positivity)

/-- The test for 53 binary digits, in whole numbers. -/
theorem fits_iff (n : ℕ) {d : ℕ} (hd : 0 < d) (e : ℤ) :
    twoTo 52 * d * twoTo e.toNat ≤ n * twoTo (-e).toNat ↔ 2 ^ 52 * 2 ^ e ≤ (n / d : ℚ) := by
  have hd' : (0 : ℚ) < d := by exact_mod_cast hd
  rw [← cast_twoTo_div, le_div_iff₀ hd', ← Nat.cast_le (α := ℚ), ← mul_div_assoc, div_mul_eq_mul_div,
    div_le_iff₀ (by exact_mod_cast twoTo_pos _)]
  push_cast [cast_twoTo]
  rw [mul_right_comm]

private theorem hasUnit_unitExponent {n d : ℕ} (hn : 0 < n) (hd : 0 < d) :
    HasUnit (n / d : ℚ) (unitExponent n d) := by
  obtain ⟨hlow, hhigh⟩ := div_log2_bounds hn hd
  obtain ⟨e, he⟩ : ∃ e : ℤ, e = (n.log2 : ℤ) - d.log2 - 52 := ⟨_, rfl⟩
  have hunit : unitExponent n d =
      max (if 2 ^ 52 * 2 ^ e ≤ (n / d : ℚ) then e else e - 1) leastExponent := by
    simp only [unitExponent, ← fits_iff n hd, ← he]
  rw [← he] at hlow hhigh
  -- The lower of the two exponents has half the unit.
  have hhalf : (2 : ℚ) ^ (e - 1) = 2 ^ e / 2 := zpow_sub_one₀ two_ne_zero e
  have hchosen : ∃ e', (n / d : ℚ) < 2 ^ 53 * 2 ^ e' ∧ 2 ^ 52 * 2 ^ e' ≤ (n / d : ℚ) ∧
      unitExponent n d = max e' leastExponent := by
    by_cases h : 2 ^ 52 * 2 ^ e ≤ (n / d : ℚ)
    · exact ⟨e, hhigh, h, by rw [hunit, if_pos h]⟩
    · refine ⟨e - 1, ?_, ?_, by rw [hunit, if_neg h]⟩ <;> rw [hhalf] <;> linarith
  obtain ⟨e', hlt, hleading, heq⟩ := hchosen
  rw [heq]
  rcases le_total e' leastExponent with hle | hle
  · rw [max_eq_right hle]
    refine ⟨hlt.trans_le ?_, Or.inr rfl, le_rfl⟩
    exact mul_le_mul_of_nonneg_left (zpow_le_zpow_right₀ one_le_two hle) (by positivity)
  · rw [max_eq_left hle]
    exact ⟨hlt, Or.inl hleading, hle⟩

/-! ## Rounding -/

/-- A significand and an exponent, with one digit less if the significand was rounded up to 54. -/
def carried (m : ℕ) (e : ℤ) : Magnitude :=
  if m = 2 ^ 53 then ⟨2 ^ 52, e + 1⟩ else ⟨m, e⟩

/-- A carry into the next place leaves the value as it is. -/
@[simp]
theorem value_carried (m : ℕ) (e : ℤ) : (carried m e).value = m * 2 ^ e := by
  -- a carry halves the significand and doubles the unit
  unfold carried
  split
  · next hcarry =>
    simp only [value, hcarry, zpow_add_one₀ (two_ne_zero (α := ℚ))]
    push_cast
    ring
  · rfl

/-- The magnitude that a number is rounded to in its unit. -/
def IsNearest (r : ℚ) (x : Magnitude) : Prop :=
  ∃ m e, HasUnit r e ∧ RoundsTo (r / 2 ^ e) m ∧ x = carried m e

private theorem cast_scaled_div (n d : ℕ) (e : ℤ) :
    ((n * twoTo (-e).toNat : ℕ) / (d * twoTo e.toNat : ℕ) : ℚ) = n / d / 2 ^ e := by
  rw [← cast_twoTo_div e]
  push_cast
  field_simp

/-- The magnitude nearest to zero is zero. -/
theorem isNearest_zero : IsNearest 0 ⟨0, leastExponent⟩ := by
  refine ⟨0, leastExponent, ⟨by positivity, Or.inr rfl, le_rfl⟩, ?_, rfl⟩
  simpa using roundsTo_natCast 0

/-- The magnitude that is computed for a fraction is the nearest one. -/
theorem isNearest_nearest (n : ℕ) {d : ℕ} (hd : 0 < d) : IsNearest (n / d : ℚ) (nearest n d) := by
  rcases Nat.eq_zero_or_pos n with rfl | hn
  · simpa [nearest] using isNearest_zero
  · refine ⟨_, _, hasUnit_unitExponent hn hd, ?_, by rw [nearest, if_neg hn.ne']; rfl⟩
    rw [← cast_scaled_div]
    exact roundsTo_roundHalfEven _ (Nat.mul_pos hd (twoTo_pos _))

/-- What a number is rounded to in its unit has no more than 53 digits, but for the next power. -/
theorem HasUnit.significand_le {r : ℚ} {m : ℕ} {e : ℤ} (he : HasUnit r e)
    (hm : RoundsTo (r / 2 ^ e) m) : m ≤ 2 ^ 53 := by
  have hlt : r / 2 ^ e < 2 ^ 53 := (div_lt_iff₀ (by positivity)).mpr he.lt
  exact hm.mono (roundsTo_natCast (2 ^ 53)) (by exact_mod_cast hlt.le)

private theorem HasUnit.le_significand {r : ℚ} {m : ℕ} {e : ℤ} (hleading : 2 ^ 52 * 2 ^ e ≤ r)
    (hm : RoundsTo (r / 2 ^ e) m) : 2 ^ 52 ≤ m := by
  have hge : 2 ^ 52 ≤ r / 2 ^ e := (le_div_iff₀ (by positivity)).mpr hleading
  exact (roundsTo_natCast (2 ^ 52)).mono hm (by exact_mod_cast hge)

namespace IsNearest

variable {r r' : ℚ} {x y : Magnitude}

/-- A number has one nearest magnitude. -/
theorem unique (hx : IsNearest r x) (hy : IsNearest r y) : x = y := by
  obtain ⟨m, e, he, hm, rfl⟩ := hx
  obtain ⟨m', e', he', hm', rfl⟩ := hy
  obtain rfl := he.unique he'
  rw [hm.unique hm']

/-- A nearest magnitude is canonical. -/
theorem canonical (h : IsNearest r x) : x.Canonical := by
  obtain ⟨m, e, he, hm, rfl⟩ := h
  have hle := he.significand_le hm
  unfold carried
  -- rounded up to a power of two, the significand is carried to the next unit
  split
  · exact ⟨by norm_num, Or.inl le_rfl, he.least_le.trans (by simp)⟩
  · next hcarry =>
    exact ⟨lt_of_le_of_ne hle hcarry,
      he.leading.imp_left fun hleading => HasUnit.le_significand hleading hm, he.least_le⟩

/-- Rounding keeps the order of numbers. -/
theorem mono (hx : IsNearest r x) (hy : IsNearest r' y) (h : r ≤ r') : x.value ≤ y.value := by
  obtain ⟨m, e, he, hm, rfl⟩ := hx
  obtain ⟨m', e', he', hm', rfl⟩ := hy
  rw [value_carried, value_carried]
  rcases (he.mono he' h).lt_or_eq with hlt | rfl
  · -- The unit of the greater number is at least twice as large.
    have hpow : (2 : ℚ) ^ (e + 1) ≤ 2 ^ e' := zpow_le_zpow_right₀ one_le_two hlt
    rw [zpow_add_one₀ two_ne_zero] at hpow
    have hleading := he'.leading.resolve_right fun hleast => by have := he.least_le; omega
    have hle : (m : ℚ) ≤ 2 ^ 53 := by exact_mod_cast he.significand_le hm
    have hge : (2 ^ 52 : ℚ) ≤ m' := by exact_mod_cast HasUnit.le_significand hleading hm'
    calc (m * 2 ^ e : ℚ) ≤ 2 ^ 53 * 2 ^ e := mul_le_mul_of_nonneg_right hle (by positivity)
      _ = 2 ^ 52 * (2 ^ e * 2) := by ring
      _ ≤ m' * 2 ^ e' := mul_le_mul hge hpow (by positivity) (by positivity)
  · have hle : m ≤ m' := hm.mono hm' (div_le_div_of_nonneg_right h (by positivity))
    exact mul_le_mul_of_nonneg_right (by exact_mod_cast hle) (by positivity)

/-- No double is nearer to a number than the one it is rounded to. -/
theorem abs_sub_le (h : IsNearest r x) (hy : y.Canonical) : |r - x.value| ≤ |r - y.value| := by
  obtain ⟨m, e, he, hm, rfl⟩ := h
  have hpow : (0 : ℚ) < 2 ^ e := by positivity
  -- Among the multiples of the unit this is what rounding to a whole number does.
  have hunit (k : ℕ) : |r - m * 2 ^ e| ≤ |r - k * 2 ^ e| := by
    have hscaled (q : ℕ) : |r - q * 2 ^ e| = |r / 2 ^ e - q| * 2 ^ e := by
      rw [← abs_of_pos hpow, ← abs_mul, abs_of_pos hpow, sub_mul, div_mul_cancel₀ _ hpow.ne']
    rw [hscaled, hscaled]
    exact mul_le_mul_of_nonneg_right (hm.abs_sub_le k) hpow.le
  rw [value_carried]
  rcases le_or_gt e y.exponent with hle | hlt
  · obtain ⟨k, hk⟩ := Int.eq_ofNat_of_zero_le (sub_nonneg.mpr hle)
    have hvalue : y.value = (y.significand * 2 ^ k : ℕ) * 2 ^ e := by
      rw [value, show y.exponent = k + e by omega, zpow_add₀ two_ne_zero, zpow_natCast]
      push_cast
      ring
    rw [hvalue]
    exact hunit _
  · -- A double of a lower unit lies below the first multiple of this unit that is a double.
    have hleading := he.leading.resolve_right fun hleast => by have := hy.least_le; omega
    have hhalf : (2 : ℚ) ^ y.exponent ≤ 2 ^ e / 2 := by
      have hnext : (2 : ℚ) ^ (y.exponent + 1) ≤ 2 ^ e := zpow_le_zpow_right₀ one_le_two hlt
      rw [zpow_add_one₀ two_ne_zero] at hnext
      linarith
    have hvalue : y.value ≤ 2 ^ 52 * 2 ^ e := by
      have hdigits : (y.significand : ℚ) ≤ 2 ^ 53 := by exact_mod_cast hy.significand_lt.le
      calc y.value ≤ 2 ^ 53 * (2 ^ e / 2) :=
            mul_le_mul hdigits hhalf (by positivity) (by positivity)
        _ = 2 ^ 52 * 2 ^ e := by ring
    refine (hunit (2 ^ 52)).trans ?_
    rw [abs_of_nonneg (by push_cast; linarith), abs_of_nonneg (by linarith)]
    push_cast
    linarith

/-- Rounding at most doubles a number, but for what is less than any unit. -/
theorem value_le (h : IsNearest r x) (hr : 0 ≤ r) : x.value ≤ 2 * r + 1 := by
  obtain ⟨m, e, he, hm, rfl⟩ := h
  have hpow : (0 : ℚ) < 2 ^ e := by positivity
  have hle := (le_div_iff₀ hpow).mp hm.sub_le
  -- a unit above the least one is no larger than the number
  have hunit : (2 : ℚ) ^ e ≤ r + 1 := by
    rcases he.leading with hleading | hleast
    · linarith
    · have hone : (2 : ℚ) ^ e ≤ 2 ^ (0 : ℤ) :=
        zpow_le_zpow_right₀ one_le_two (hleast.trans_le (by decide))
      rw [zpow_zero] at hone
      linarith
  rw [value_carried]
  linarith

end IsNearest

/-- A double is not rounded. -/
theorem Magnitude.Canonical.isNearest {x : Magnitude} (hx : x.Canonical) : IsNearest x.value x := by
  have hpow : (0 : ℚ) < 2 ^ x.exponent := by positivity
  -- the number's own significand and unit are the rounding
  refine ⟨x.significand, x.exponent, ⟨?_, ?_, hx.least_le⟩, ?_, ?_⟩
  · exact mul_lt_mul_of_pos_right (by exact_mod_cast hx.significand_lt) hpow
  · exact hx.leading.imp_left fun hleading =>
      mul_le_mul_of_nonneg_right (by exact_mod_cast hleading) hpow.le
  · rw [value, mul_div_cancel_right₀ _ hpow.ne']
    exact roundsTo_natCast x.significand
  · rw [carried, if_neg (ne_of_lt hx.significand_lt)]

/-- What is computed for a fraction is its nearest magnitude, and this only. -/
theorem nearest_eq_iff {n d : ℕ} (hd : 0 < d) {x : Magnitude} :
    nearest n d = x ↔ IsNearest (n / d : ℚ) x :=
  ⟨fun h => h ▸ isNearest_nearest n hd, (isNearest_nearest n hd).unique⟩

/-- The magnitude that is computed for a fraction is canonical. -/
theorem canonical_nearest (n : ℕ) {d : ℕ} (hd : 0 < d) : (nearest n d).Canonical :=
  (isNearest_nearest n hd).canonical

private theorem value_nearest_le (n : ℕ) {d : ℕ} (hd : 0 < d) :
    (nearest n d).value ≤ 2 * (n / d) + 1 :=
  (isNearest_nearest n hd).value_le (by positivity)

/-! ## Arithmetic -/

namespace Magnitude

variable {x y : Magnitude}

/-- The magnitude of a whole number is at most one more than twice the number. -/
theorem value_ofNat_le (n : ℕ) : (ofNat n).value ≤ 2 * n + 1 := by
  simpa [ofNat] using value_nearest_le n Nat.one_pos

/-- A sum is at most one more than twice the exact one. -/
theorem value_add_le (x y : Magnitude) : (x.add y).value ≤ 2 * (x.value + y.value) + 1 := by
  have hx : (x.denominator : ℚ) ≠ 0 := by exact_mod_cast x.denominator_pos.ne'
  have hy : (y.denominator : ℚ) ≠ 0 := by exact_mod_cast y.denominator_pos.ne'
  refine (value_nearest_le _ (Nat.mul_pos x.denominator_pos y.denominator_pos)).trans_eq ?_
  rw [← numerator_div_denominator x, ← numerator_div_denominator y]
  push_cast
  field_simp

/-- A product is at most one more than twice the exact one. -/
theorem value_mul_le (x y : Magnitude) : (x.mul y).value ≤ 2 * (x.value * y.value) + 1 := by
  refine (value_nearest_le _ (Nat.mul_pos x.denominator_pos y.denominator_pos)).trans_eq ?_
  rw [← numerator_div_denominator x, ← numerator_div_denominator y]
  push_cast
  rw [div_mul_div_comm]

/-- A quotient is bounded by what is divided, unless the divisor is below one. -/
theorem value_div_le (x : Magnitude) (hy : y.denominator ≤ y.numerator) :
    (x.div y).value ≤ 2 * x.value + 1 := by
  have hnumerator : 0 < y.numerator := y.denominator_pos.trans_le hy
  refine (value_nearest_le _ (Nat.mul_pos x.denominator_pos hnumerator)).trans ?_
  have hx : (0 : ℚ) < x.denominator := by exact_mod_cast x.denominator_pos
  have hle : (x.numerator * y.denominator : ℚ) / (x.denominator * y.numerator) ≤ x.value := by
    have hy' : (y.denominator : ℚ) ≤ y.numerator := by exact_mod_cast hy
    have hnumerator' : (0 : ℚ) < y.numerator := by exact_mod_cast hnumerator
    rw [← numerator_div_denominator x, mul_div_mul_comm]
    exact mul_le_of_le_one_right (by positivity) ((div_le_one hnumerator').mpr hy')
  push_cast
  linarith

/-- Rounding makes a magnitude larger by a bounded factor only. -/
theorem value_round_le (x : Magnitude) : x.round.value ≤ 2 * (x.value + 1) + 1 := by
  refine (value_ofNat_le _).trans ?_
  have hd : (0 : ℚ) < x.denominator := by exact_mod_cast x.denominator_pos
  have hround : (roundHalfUp x.numerator x.denominator : ℚ) ≤ x.value + 1 := by
    rw [← numerator_div_denominator, roundHalfUp]
    refine Nat.cast_div_le.trans ?_
    push_cast
    -- half up is the whole part of the number and a half
    have hsplit : ((2 * x.numerator + x.denominator) / (2 * x.denominator) : ℚ) =
        x.numerator / x.denominator + 1 / 2 := by
      field_simp
    linarith
  linarith

end Magnitude

end FieldQuery.Number
