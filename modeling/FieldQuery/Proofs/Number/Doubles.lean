import FieldQuery.Number.Binary64
import Mathlib.Algebra.Order.Field.Power
import Mathlib.Data.Rat.Floor
import Mathlib.Tactic.FieldSimp
import Mathlib.Tactic.Linarith

/-!
# What doubles stand for

A finite double stands for a rational, its sign applied to its magnitude. Magnitudes come in one form
only: with 53 binary digits, or with fewer in the least unit. The bits of a sign and a magnitude of
that form give both of them back.
-/

namespace FieldQuery.Number

/-! ## Powers -/

theorem twoTo_pos (n : ℕ) : 0 < twoTo n :=
  Nat.pow_pos (by decide)

theorem cast_twoTo (n : ℕ) : (twoTo n : ℚ) = 2 ^ n :=
  Nat.cast_pow 2 n

/-- The powers of the two signs of an exponent have the power of the exponent as their quotient. -/
theorem cast_twoTo_div (e : ℤ) : (twoTo e.toNat : ℚ) / twoTo (-e).toNat = 2 ^ e := by
  rw [cast_twoTo, cast_twoTo, ← zpow_natCast, ← zpow_natCast, ← zpow_sub₀ two_ne_zero]
  congr 1
  omega

/-! ## Magnitudes -/

namespace Magnitude

variable {x : Magnitude}

/-- The number that a magnitude is the size of. -/
def value (x : Magnitude) : ℚ :=
  x.significand * 2 ^ x.exponent

/-- The form of the magnitudes of doubles, with no bound on the size. -/
structure Canonical (x : Magnitude) : Prop where
  significand_lt : x.significand < 2 ^ 53
  leading : 2 ^ 52 ≤ x.significand ∨ x.exponent = leastExponent
  least_le : leastExponent ≤ x.exponent

theorem value_nonneg (x : Magnitude) : 0 ≤ x.value := by
  unfold value
  positivity

/-- A magnitude is zero exactly if its significand is. -/
theorem value_eq_zero_iff : x.value = 0 ↔ x.significand = 0 := by
  have hpow : (2 : ℚ) ^ x.exponent ≠ 0 := by positivity
  rw [value, mul_eq_zero_iff_right hpow, Nat.cast_eq_zero]

theorem denominator_pos (x : Magnitude) : 0 < x.denominator :=
  twoTo_pos _

/-- The value is the quotient that the arithmetic works with. -/
theorem numerator_div_denominator (x : Magnitude) : (x.numerator / x.denominator : ℚ) = x.value := by
  rw [numerator, denominator, Nat.cast_mul, mul_div_assoc, cast_twoTo_div]
  rfl

/-- The unit of a magnitude is at most its value, but for the least one. -/
theorem Canonical.exponent_le (hx : x.Canonical) (hvalue : x.value < 2 ^ 200) : x.exponent ≤ 971 := by
  -- a significand with its leading one is at least 1, so the unit is no larger than the value
  rcases hx.leading with hleading | hleast
  · have hpow : (2 : ℚ) ^ x.exponent ≤ x.value := by
      have hone : (1 : ℚ) ≤ x.significand := by exact_mod_cast le_trans (by decide) hleading
      rw [value]
      exact le_mul_of_one_le_left (by positivity) hone
    have hlt : (2 : ℚ) ^ x.exponent < 2 ^ (200 : ℤ) := lt_of_le_of_lt hpow hvalue
    exact ((zpow_lt_zpow_iff_right₀ one_lt_two).mp hlt).le.trans (by decide)
  · rw [hleast]
    decide

end Magnitude

/-! ## Bits -/

namespace Binary64

/-- The number that a finite double stands for. -/
def value (x : Binary64) : ℚ :=
  if x.isNegative then -x.magnitude.value else x.magnitude.value

variable {x : Magnitude}

private theorem toNat_ofMagnitude (negative : Bool) (hx : x.Canonical) (hexponent : x.exponent ≤ 971) :
    (ofMagnitude negative x).bits.toNat = (if negative then 2 ^ 63 else 0) +
      if x.significand < 2 ^ 52 then x.significand
      else (x.exponent + 1075).toNat * 2 ^ 52 + (x.significand - 2 ^ 52) := by
  -- sign, exponent and fraction stand apart in the bits, and none carries into the next
  obtain ⟨hlt, -, hleast⟩ := hx
  have hlarge : ¬ 971 < x.exponent := not_lt.mpr hexponent
  have hbiased : (x.exponent + 1075).toNat ≤ 2046 := by omega
  simp only [ofMagnitude, twoTo, Nat.pow_eq, hlarge, if_false, UInt64.toNat_ofNat']
  refine Nat.mod_eq_of_lt ?_
  split <;> split <;> omega

/-- The bits of a sign and a magnitude have that sign and that magnitude. -/
theorem ofMagnitude_spec (negative : Bool) (hx : x.Canonical) (hexponent : x.exponent ≤ 971) :
    (ofMagnitude negative x).isFinite = true ∧ (ofMagnitude negative x).isNegative = negative ∧
      (ofMagnitude negative x).magnitude = x := by
  have hbits := toNat_ofMagnitude negative hx hexponent
  obtain ⟨hlt, hleading, hleast⟩ := hx
  obtain ⟨m, e⟩ := x
  simp only [Magnitude.leastExponent] at *
  generalize ofMagnitude negative ⟨m, e⟩ = y at hbits ⊢
  by_cases hleast_unit : m < 2 ^ 52
  · -- A magnitude with fewer digits is written in the least unit.
    obtain rfl : e = -1074 := hleading.resolve_left (not_le.mpr hleast_unit)
    simp only [hleast_unit, if_true] at hbits
    have hsign : y.isNegative = negative := by
      simp only [isNegative, twoTo, Nat.pow_eq, hbits]
      cases negative <;> simp
      omega
    have hexponentBits : y.exponentBits = 0 := by
      simp only [exponentBits, twoTo, Nat.pow_eq, hbits]
      cases negative <;> simp <;> omega
    have hfractionBits : y.fractionBits = m := by
      simp only [fractionBits, twoTo, Nat.pow_eq, hbits]
      cases negative <;> simp <;> omega
    simp [isFinite, magnitude, hexponentBits, hfractionBits, hsign, Magnitude.leastExponent]
  · simp only [hleast_unit, if_false] at hbits
    have hsign : y.isNegative = negative := by
      simp only [isNegative, twoTo, Nat.pow_eq, hbits]
      cases negative <;> simp
      omega
    have hexponentBits : y.exponentBits = (e + 1075).toNat := by
      simp only [exponentBits, twoTo, Nat.pow_eq, hbits]
      cases negative <;> simp <;> omega
    have hfractionBits : y.fractionBits = m - 2 ^ 52 := by
      simp only [fractionBits, twoTo, Nat.pow_eq, hbits]
      cases negative <;> simp <;> omega
    refine ⟨?_, hsign, ?_⟩
    · simp only [isFinite, hexponentBits, bne_iff_ne]
      omega
    · have hnonzero : (e + 1075).toNat ≠ 0 := by omega
      simp only [magnitude, hexponentBits, hfractionBits, hnonzero, if_false, twoTo, Nat.pow_eq,
        Magnitude.mk.injEq]
      omega

/-- The magnitude that the bits of a double spell is canonical. -/
theorem canonical_magnitude (y : Binary64) : y.magnitude.Canonical := by
  have hfraction : y.fractionBits < 2 ^ 52 := Nat.mod_lt _ (by decide)
  unfold magnitude
  split
  · exact ⟨by simp only; omega, Or.inr rfl, le_rfl⟩
  · refine ⟨?_, Or.inl ?_, ?_⟩ <;> simp only [twoTo, Nat.pow_eq, Magnitude.leastExponent] <;> omega

/-- A finite double has an exponent of at most 971. -/
theorem exponent_magnitude_le {y : Binary64} (h : y.isFinite = true) : y.magnitude.exponent ≤ 971 := by
  have hbits : y.exponentBits < 2048 := Nat.mod_lt _ (by decide)
  -- a finite double keeps the greatest exponent for none of its values
  have hfinite : y.exponentBits ≠ 2047 := bne_iff_ne.mp h
  unfold magnitude
  split
  · exact show Magnitude.leastExponent ≤ 971 by decide
  · simp only
    omega

/-- The magnitude of a double is its absolute value. -/
theorem abs_value (y : Binary64) : |y.value| = y.magnitude.value := by
  unfold value
  split
  · rw [abs_neg, abs_of_nonneg y.magnitude.value_nonneg]
  · exact abs_of_nonneg y.magnitude.value_nonneg

/-- A double that is made of a magnitude has its value, with the sign. -/
theorem value_ofMagnitude (negative : Bool) (hx : x.Canonical) (hexponent : x.exponent ≤ 971) :
    (ofMagnitude negative x).value = if negative then -x.value else x.value := by
  obtain ⟨-, hsign, hsize⟩ := ofMagnitude_spec negative hx hexponent
  rw [value, hsign, hsize]

end Binary64

end FieldQuery.Number
