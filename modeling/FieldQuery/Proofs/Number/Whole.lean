import FieldQuery.Proofs.Number.Nearest

/-!
# Whole numbers as doubles

A whole number is rounded in the unit of its leading digits, so whole numbers up to `2 ^ 53` are
doubles themselves. Main statement: which whole numbers are another double than the next one.
-/

namespace FieldQuery.Number

open Magnitude

/-! ## Rounding -/

/-- The unit of a whole number that has one. -/
def natUnit (n : ℕ) : ℕ :=
  2 ^ (n.log2 - 52)

/-- What a whole number is rounded to in its unit. -/
def roundedNat (n : ℕ) : ℕ :=
  roundHalfEven n (natUnit n) * natUnit n

private theorem hasUnit_natCast {n : ℕ} (hn : 0 < n) : HasUnit (n : ℚ) (n.log2 - 52) := by
  have hlow := cast_log2_le hn
  have hhigh := cast_lt_log2 n
  -- a whole number has its unit at the place 52 below its first one, and never reaches the least
  refine ⟨?_, Or.inl ?_, by unfold leastExponent; omega⟩
  · convert hhigh using 1
    rw [← zpow_natCast, ← zpow_add₀ two_ne_zero]
    congr 1
    push_cast
    omega
  · convert hlow using 1
    rw [← zpow_natCast, ← zpow_add₀ two_ne_zero]
    congr 1
    push_cast
    omega

/-- The double of a whole number is canonical and finite, and its value is the number as it is rounded.
-/
theorem ofNat_spec {n : ℕ} (hn : n < 2 ^ 128) :
    (ofNat n).Canonical ∧ (ofNat n).exponent ≤ 971 ∧ (ofNat n).value = roundedNat n := by
  refine ⟨canonical_nearest n Nat.one_pos, ?_⟩
  rcases Nat.eq_zero_or_pos n with rfl | hpos
  · decide +kernel
  have hlog : n.log2 < 128 := (Nat.log2_lt hpos.ne').mpr hn
  obtain ⟨m, hm, hvalue⟩ : ∃ m : ℕ, RoundsTo (n / 2 ^ ((n.log2 : ℤ) - 52) : ℚ) m ∧
      (m * 2 ^ ((n.log2 : ℤ) - 52) : ℚ) = roundedNat n := by
    rcases le_total 52 n.log2 with hlarge | hsmall
    · -- A longer number is rounded in whole numbers already.
      have hunit : (2 : ℚ) ^ ((n.log2 : ℤ) - 52) = natUnit n := by
        rw [natUnit, Nat.cast_pow, Nat.cast_ofNat, ← zpow_natCast]
        congr 1
        omega
      rw [hunit]
      refine ⟨_, roundsTo_roundHalfEven n (Nat.pow_pos (by decide)), ?_⟩
      rw [roundedNat, Nat.cast_mul]
    · -- A number with at most 53 digits is a multiple of its unit.
      have hunit : (2 : ℚ) ^ ((n.log2 : ℤ) - 52) = 1 / (2 ^ (52 - n.log2) : ℕ) := by
        rw [Nat.cast_pow, Nat.cast_ofNat, one_div, ← zpow_natCast, ← zpow_neg]
        congr 1
        omega
      have hpow : ((2 ^ (52 - n.log2) : ℕ) : ℚ) ≠ 0 := by positivity
      rw [hunit]
      refine ⟨n * 2 ^ (52 - n.log2), ?_, ?_⟩
      · convert roundsTo_natCast (n * 2 ^ (52 - n.log2)) using 1
        rw [Nat.cast_mul]
        field_simp
      · rw [roundedNat, natUnit, Nat.sub_eq_zero_of_le hsmall, pow_zero, roundHalfEven_one, mul_one,
          Nat.cast_mul]
        field_simp
  have hnearest : IsNearest (n / (1 : ℕ) : ℚ) (carried m (n.log2 - 52)) := by
    rw [Nat.cast_one, div_one]
    exact ⟨m, _, hasUnit_natCast hpos, hm, rfl⟩
  rw [ofNat, (nearest_eq_iff Nat.one_pos).mpr hnearest, value_carried]
  refine ⟨?_, hvalue⟩
  unfold carried
  split <;> simp only <;> omega

private theorem natUnit_pos (n : ℕ) : 0 < natUnit n :=
  Nat.pow_pos (by decide)

/-- A whole number is not rounded if its unit divides it. -/
theorem roundedNat_of_dvd {n : ℕ} (h : natUnit n ∣ n) : roundedNat n = n := by
  obtain ⟨q, hq⟩ := h
  rw [mul_comm] at hq
  have hround := roundHalfEven_mul_self q (natUnit_pos n)
  rw [← hq] at hround
  rw [roundedNat, hround, ← hq]

private theorem natUnit_of_lt {n : ℕ} (h : n < 2 ^ 53) : natUnit n = 1 := by
  have hlog : n.log2 ≤ 52 := by
    rcases Nat.eq_zero_or_pos n with rfl | hpos
    · simp
    · exact Nat.lt_succ_iff.mp ((Nat.log2_lt hpos.ne').mpr h)
  rw [natUnit, Nat.sub_eq_zero_of_le hlog, pow_zero]

/-- Numbers up to two to the 53rd are doubles. -/
theorem roundedNat_of_le {n : ℕ} (h : n ≤ 2 ^ 53) : roundedNat n = n := by
  refine roundedNat_of_dvd ?_
  rcases h.lt_or_eq with hlt | rfl
  · rw [natUnit_of_lt hlt]
    exact one_dvd n
  · decide +kernel

/-! ## Neighbours -/

/-- Whether a whole number and the next one are different doubles. Above `2 ^ 53` the middle of two
doubles has to lie between them, or to be one of them and to go the other way. -/
def Separated (n : ℕ) : Prop :=
  n < 2 ^ 53 ∨ (2 * (n % natUnit n) + 2 = natUnit n ∧ n / natUnit n % 2 = 1) ∨
    (2 * (n % natUnit n) = natUnit n ∧ n / natUnit n % 2 = 0)

instance : DecidablePred Separated := fun _ =>
  inferInstanceAs (Decidable (_ ∨ _ ∨ _))

private theorem natUnit_succ {n : ℕ} (hn : 0 < n) :
    natUnit (n + 1) = natUnit n ∨ (natUnit (n + 1) ∣ n + 1 ∧ natUnit n ∣ n + 1) := by
  have hlow := Nat.log2_self_le hn.ne'
  have hhigh : n + 1 ≤ 2 ^ (n.log2 + 1) := Nat.lt_log2_self
  rcases hhigh.lt_or_eq with hlt | heq
  · left
    rw [natUnit, (Nat.log2_eq_iff n.succ_ne_zero).mpr ⟨hlow.trans n.le_succ, hlt⟩, natUnit]
  · right
    -- The next number is a power of two.
    simp only [natUnit, heq, Nat.log2_two_pow]
    exact ⟨pow_dvd_pow 2 (by omega), pow_dvd_pow 2 (by omega)⟩

/-- The next whole number is rounded in the unit of this one. -/
theorem roundedNat_succ {n : ℕ} (hn : 0 < n) :
    roundedNat (n + 1) = roundHalfEven (n + 1) (natUnit n) * natUnit n := by
  rcases natUnit_succ hn with heq | ⟨hnext, hthis⟩
  · rw [roundedNat, heq]
  · rw [roundedNat_of_dvd hnext]
    obtain ⟨q, hq⟩ := hthis
    rw [hq, mul_comm, roundHalfEven_mul_self q (natUnit_pos n)]

private theorem natUnit_even {n : ℕ} (h : 2 ^ 53 ≤ n) : natUnit n % 2 = 0 := by
  have hlog : 53 ≤ n.log2 := (Nat.le_log2 (by omega)).mpr h
  obtain ⟨k, hk⟩ := Nat.exists_eq_add_of_le' (show 1 ≤ n.log2 - 52 by omega)
  rw [natUnit, hk, pow_succ, Nat.mul_mod_left]

/-- Rounding tells exactly the separated numbers from the next ones, and keeps their order. -/
theorem roundedNat_lt_succ_iff (n : ℕ) : roundedNat n < roundedNat (n + 1) ↔ Separated n := by
  -- below 2 ^ 53 every number is exact; above, two of them may be rounded to one
  by_cases hsmall : n < 2 ^ 53
  · rw [roundedNat_of_le hsmall.le, roundedNat_of_le hsmall]
    exact iff_of_true n.lt_succ_self (Or.inl hsmall)
  · have hpos := natUnit_pos n
    rw [roundedNat_succ (by omega), roundHalfEven_succ n hpos (natUnit_even (not_lt.mp hsmall)),
      roundedNat, Nat.add_mul]
    simp only [Separated, hsmall, false_or]
    split
    · next h =>
      simp only [h, iff_true]
      omega
    · next h => simp [h]

/-- A separated number is rounded down if at all, and the next one up. -/
theorem Separated.between {n : ℕ} (h : Separated n) :
    roundedNat n ≤ n ∧ n < roundedNat (n + 1) := by
  by_cases hsmall : n < 2 ^ 53
  · rw [roundedNat_of_le hsmall.le, roundedNat_of_le hsmall]
    exact ⟨le_rfl, n.lt_succ_self⟩
  · -- from 2 ^ 53 on, separated means that `n` is the last to be rounded down
    have hpos := natUnit_pos n
    have hmiddle := h.resolve_left hsmall
    have hdown : roundHalfEven n (natUnit n) = n / natUnit n := by
      simp only [roundHalfEven]
      exact if_neg (by omega)
    rw [roundedNat_succ (by omega), roundHalfEven_succ n hpos (natUnit_even (not_lt.mp hsmall)),
      roundedNat, hdown, if_pos hmiddle, Nat.add_one_mul (n / natUnit n)]
    exact ⟨Nat.div_mul_le_self n _, Nat.lt_div_mul_add hpos⟩

end FieldQuery.Number
